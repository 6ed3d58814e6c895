import Subscriptions.Table

namespace Subscriptions

/-- The fields of a record as a document gives them. -/
structure Fields (δ : Type) where
  given : List (String × δ)
  /-- They stand in order without their names. -/
  positional : Bool
deriving Repr, Inhabited

/-- How the values of a document are read. -/
class Document (δ : Type) where
  text? : δ → Option String
  flag? : δ → Option Bool
  count? : δ → Option Nat
  /-- A word that names one of a few choices. -/
  word? : δ → Option String
  /-- Stands for no value where a value may be missing. -/
  isAbsent : δ → Bool
  items? : δ → Option (List δ)
  entries? : δ → Option (List (String × δ))
  /-- The fields of a record that has these names in this order. -/
  fields? : List String → δ → Option (Fields δ)

/-- Counts are held in 64 bits. -/
def countLimit : Nat := UInt64.size

/-- A language of documents, and what reads them from a text. -/
structure Format where
  Value : Type
  document : Document Value
  read? : String → Option Value

instance (format : Format) : Document format.Value := format.document

namespace Document

variable {δ α : Type} [Document δ]

/-- The entries of a record that are known fields, none of them given twice. -/
def knownFields? (names : List String) (entries : List (String × δ)) : Option (Fields δ) :=
  let known := entries.filter (names.contains ·.1)
  if (known.map (·.1)).Nodup then some ⟨known, false⟩ else none

def placedFields? (names : List String) (items : List δ) : Option (Fields δ) :=
  if items.length ≤ names.length then some ⟨names.zip items, true⟩ else none

def optional (read : δ → Option α) (d : δ) : Option (Option α) :=
  if isAbsent d then some none else (read d).map some

def listOf (read : δ → Option α) (d : δ) : Option (List α) := (items? d).bind (·.mapM read)

/-- Of several entries of one name the last one counts. -/
def tableOf (read : δ → Option α) (d : δ) : Option (List (String × α)) := do
  let entries ← (← entries? d).mapM fun e => (read e.2).map fun a => (e.1, a)
  return entries.foldl (fun table e => putEntry e.1 e.2 table) []

def choice (ofName? : String → Option α) (d : δ) : Option α := (word? d).bind ofName?

def pair {β : Type} (first : δ → Option α) (second : δ → Option β) (d : δ) : Option (α × β) := do
  match ← items? d with
  | [a, b] => return (← first a, ← second b)
  | _ => none

end Document

namespace Fields

variable {δ α : Type} (fields : Fields δ)

def get (name : String) (read : δ → Option α) (default : α) : Option α :=
  match fields.given.lookup name with
  | some d => read d
  | none => some default

def require (name : String) (read : δ → Option α) : Option α :=
  (fields.given.lookup name).bind read

/-- A field whose value may be missing. Without names it still holds its place. -/
def getOptional [Document δ] (name : String) (read : δ → Option α) : Option (Option α) :=
  match fields.given.lookup name with
  | some d => Document.optional read d
  | none => if fields.positional then none else some none

end Fields

end Subscriptions
