import Subscriptions.Syntax.Node

namespace Subscriptions

/-- The place of a node in an arena, cut to 32 bits. -/
abbrev NodeId := UInt32

namespace Node

def id (n : Node) : NodeId := UInt32.ofNat n.serial

end Node

/-- What an arena keeps of a node. -/
structure Arena.Entry where
  kind : Kind
  span : Span
  name : Option Name := none
  declared : Option String := none
  parent : Option NodeId := none
  children : List NodeId
deriving Repr, Inhabited

/-- The nodes of a tree side by side, each after its children. -/
structure Arena where
  entries : Array Arena.Entry := #[]
deriving Repr, Inhabited

namespace Arena

def size (a : Arena) : Nat := a.entries.size

def data? (a : Arena) (id : NodeId) : Option Entry := a.entries[id.toNat]?

def parent? (a : Arena) (id : NodeId) : Option NodeId := (a.data? id).bind Entry.parent

def children (a : Arena) (id : NodeId) : List NodeId := ((a.data? id).map Entry.children).getD []

def indexInParent? (a : Arena) (id : NodeId) : Option Nat :=
  (a.parent? id).bind fun p => (a.children p).idxOf? id

def amend (a : Arena) (id : NodeId) (f : Entry → Entry) : Arena := ⟨a.entries.modify id.toNat f⟩

def setParent (a : Arena) (parent child : NodeId) : Arena :=
  a.amend child fun e => { e with parent := some parent }

def setName (a : Arena) (id : NodeId) (name : Name) : Arena :=
  a.amend id fun e => { e with name := some name }

def setDeclared (a : Arena) (id : NodeId) (text : String) : Arena :=
  a.amend id fun e => { e with declared := some text }

def alloc (a : Arena) (kind : Kind) (span : Span) (children : List NodeId) : NodeId × Arena :=
  let id := UInt32.ofNat a.size
  let linked := children.foldl (·.setParent id ·) a
  (id, ⟨linked.entries.push { kind, span, children }⟩)

def add (a : Arena) (n : Node) : Arena :=
  let (id, a) := a.alloc n.kind n.span (n.children.map Node.id)
  let a := n.name.elim a (a.setName id)
  n.declared.elim a (a.setDeclared id)

/-- The nodes that are visited with so many on the stack, the children of each next; nothing where
that takes more steps than there is fuel. -/
def visits (a : Arena) : Nat → List NodeId → Option (List NodeId)
  | _, [] => some []
  | 0, _ :: _ => none
  | fuel + 1, id :: stack => (a.visits fuel (a.children id ++ stack)).map (id :: ·)

def preorder (a : Arena) (id : NodeId) : Option (List NodeId) := a.visits a.size [id]

/-- The way up from a node, the nearest first; nothing where it is longer than there is fuel. -/
def climb (a : Arena) : Nat → NodeId → Option (List NodeId)
  | 0, _ => none
  | fuel + 1, id => (a.parent? id).elim (some []) fun p => (a.climb fuel p).map (p :: ·)

def ancestors (a : Arena) (id : NodeId) : Option (List NodeId) := a.climb a.size id

@[simp] theorem size_amend (a : Arena) (id : NodeId) (f : Entry → Entry) :
    (a.amend id f).size = a.size := Array.size_modify

@[simp] theorem size_link (ids : List NodeId) (id : NodeId) (a : Arena) :
    (ids.foldl (·.setParent id ·) a).size = a.size := by
  induction ids generalizing a with
  | nil => rfl
  | cons c cs ih => rw [List.foldl_cons, ih, setParent, size_amend]

@[simp] theorem size_alloc (a : Arena) (kind : Kind) (span : Span) (ids : List NodeId) :
    (a.alloc kind span ids).2.size = a.size + 1 := by
  have hlink := size_link ids (UInt32.ofNat a.size) a
  rw [alloc, size, Array.size_push]
  exact congrArg (· + 1) hlink

/-- Each node takes one place. -/
@[simp] theorem size_add (a : Arena) (n : Node) : (a.add n).size = a.size + 1 := by
  simp only [add]
  cases n.name <;> cases n.declared <;> simp [setName, setDeclared]

end Arena

end Subscriptions
