import Subscriptions.Proofs.Types.Language

namespace Subscriptions.TypeName

open Subscriptions.Types Scanner
open Text (isAlphanumeric)

/-- A word that a type may be named by. Before a type `readonly` is an operator. -/
structure TypeWord extends Ident where
  free : toIdent.chars ≠ "readonly".toList

/-- A dotted name, with so many blanks before and behind each dot. -/
inductive Name
  | word (x : TypeWord)
  | member (d : Name) (before after : Nat) (x : Ident)

/-- A string of letters and digits. -/
structure Literal where
  double : Bool
  letters : List Char
  alphanumeric : letters.all isAlphanumeric = true

mutual
/-- What binds tighter than `keyof`. -/
inductive Primary
  | name (d : Name)
  | generic (d : Name) (gap before : Nat) (args : Args) (after : Nat)
  | array (element : Primary) (gap inside : Nat)
  | paren (before : Nat) (t : Ty) (after : Nat)
  | literal (l : Literal)
  | tuple (before : Nat) (elements : Args) (after : Nat)
  | emptyTuple (inside : Nat)
  | object (before : Nat) (fields : Fields) (after : Nat)
  | query (gap : Nat) (d : Name)
  | indexed (base : Primary) (gap before : Nat) (key : Literal) (after : Nat)

inductive Operator
  | primary (p : Primary)
  | readonlyArray (lead : Nat) (element : Primary) (gap inside : Nat)
  | keyof (lead : Nat) (o : Operator)

inductive Intersection
  | one (o : Operator)
  | more (o : Operator) (before after : Nat) (i : Intersection)

inductive Union
  | one (i : Intersection)
  | more (i : Intersection) (before after : Nat) (u : Union)

inductive Ty
  | union (u : Union)
  | function (before : Nat) (params : Fields) (after arrowBefore arrowAfter : Nat) (result : Ty)

inductive Args
  | last (t : Ty)
  | more (t : Ty) (before after : Nat) (args : Args)

/-- Names with their types: the parameters of a function type or the members of an object type. -/
inductive Fields
  | none
  | last (x : Ident) (before after : Nat) (t : Ty)
  | more (x : Ident) (before after : Nat) (t : Ty) (gap next : Nat) (fields : Fields)
end

def bracketed (opening : Char) (before : Nat) (cs : List Char) (after : Nat) (closing : Char) :
    List Char :=
  opening :: ((blanks before ++ (cs ++ blanks after)) ++ [closing])

def suffixed (cs : List Char) (gap : Nat) (opening : Char) (before : Nat) (ds : List Char)
    (after : Nat) (closing : Char) : List Char :=
  cs ++ (blanks gap ++ bracketed opening before ds after closing)

/-- A text with the brackets of an array behind it. -/
def arrayed (cs : List Char) (gap inside : Nat) : List Char :=
  suffixed cs gap '[' inside [] 0 ']'

def joined (cs : List Char) (before : Nat) (sign : Char) (after : Nat) (ds : List Char) : List Char :=
  cs ++ (blanks before ++ sign :: (blanks after ++ ds))

def Name.chars : Name → List Char
  | .word x => x.chars
  | .member d before after x => joined d.chars before '.' after x.chars

def Literal.quote (l : Literal) : Char := if l.double then '"' else '\''

def Literal.chars (l : Literal) : List Char := l.quote :: (l.letters ++ [l.quote])

/-- Whether the text begins with a word, which has to stand apart from a word before it. -/
def Primary.wordy : Primary → Bool
  | .name _ | .generic .. | .query .. => true
  | .array element _ _ => element.wordy
  | .indexed base _ _ _ _ => base.wordy
  | _ => false

def Operator.wordy : Operator → Bool
  | .primary p => p.wordy
  | _ => true

/-- A word before a type, with one blank more where the type begins with a word. -/
def prefixed (keyword : String) (wordy : Bool) (lead : Nat) (cs : List Char) : List Char :=
  keyword.toList ++ (blanks (lead + wordy.toNat) ++ cs)

mutual
def Primary.chars : Primary → List Char
  | .name d => d.chars
  | .generic d gap before args after => suffixed d.chars gap '<' before args.chars after '>'
  | .array element gap inside => arrayed element.chars gap inside
  | .paren before t after => bracketed '(' before t.chars after ')'
  | .literal l => l.chars
  | .tuple before elements after => bracketed '[' before elements.chars after ']'
  | .emptyTuple inside => bracketed '[' inside [] 0 ']'
  | .object before fields after => bracketed '{' before (fields.chars ';') after '}'
  | .query gap d => prefixed "typeof" true gap d.chars
  | .indexed base gap before key after => suffixed base.chars gap '[' before key.chars after ']'

def Operator.chars : Operator → List Char
  | .primary p => p.chars
  | .readonlyArray lead element gap inside =>
    prefixed "readonly" element.wordy lead (arrayed element.chars gap inside)
  | .keyof lead o => prefixed "keyof" o.wordy lead o.chars

def Intersection.chars : Intersection → List Char
  | .one o => o.chars
  | .more o before after i => joined o.chars before '&' after i.chars

def Union.chars : Union → List Char
  | .one i => i.chars
  | .more i before after u => joined i.chars before '|' after u.chars

def Ty.chars : Ty → List Char
  | .union u => u.chars
  | .function before params after arrowBefore arrowAfter result =>
    bracketed '(' before (params.chars ',') after ')' ++
      (blanks arrowBefore ++ '=' :: '>' :: (blanks arrowAfter ++ result.chars))

def Args.chars : Args → List Char
  | .last t => t.chars
  | .more t before after args => joined t.chars before ',' after args.chars

def Fields.chars (separator : Char) : Fields → List Char
  | .none => []
  | .last x before after t => joined x.chars before ':' after t.chars
  | .more x before after t gap next fields =>
    joined (joined x.chars before ':' after t.chars) gap separator next (fields.chars separator)
end

def Ty.text (t : Ty) : String := String.ofList t.chars

def Name.last : Name → Ident
  | .word x => x.toIdent
  | .member _ _ _ x => x

def Intersection.isNullish : Intersection → Bool
  | .one (.primary (.name (.word x))) =>
    x.chars == "null".toList || x.chars == "undefined".toList
  | _ => false

def only {α : Type} : List (Option α) → Option α
  | [a] => a
  | _ => none

mutual
/-- The type that the symbol is asked of when parentheses are taken off and `null` and `undefined`
left out of a union. A function type, an intersection and a union of several types or none have no
such type. -/
def Primary.core : Primary → Option Operator
  | .paren _ t _ => t.core
  | p => some (.primary p)

def Operator.core : Operator → Option Operator
  | .primary p => p.core
  | o => some o

def Intersection.core : Intersection → Option Operator
  | .one o => o.core
  | .more .. => none

/-- The same of every member of a union that says something. -/
def Union.cores : Union → List (Option Operator)
  | .one i => if i.isNullish then [] else [i.core]
  | .more i _ _ u => if i.isNullish then u.cores else i.core :: u.cores

def Union.core : Union → Option Operator
  | .one i => i.core
  | .more i _ _ u => only (if i.isNullish then u.cores else i.core :: u.cores)

def Ty.core : Ty → Option Operator
  | .union u => u.core
  | .function .. => none
end

/-- The symbol of a type that no other one is asked for: the last word of a name, with or without
type arguments, and `Array` for an array. -/
def Operator.ownSymbol : Operator → Option (List Char)
  | .primary (.name d) => some d.last.chars
  | .primary (.generic d _ _ _ _) => some d.last.chars
  | .primary (.array _ _ _) => some "Array".toList
  | .readonlyArray _ _ _ _ => some "Array".toList
  | _ => none

def Ty.symbol (t : Ty) : Option String := (t.core.bind Operator.ownSymbol).map String.ofList

end Subscriptions.TypeName
