import Subscriptions.Syntax.Node
import Subscriptions.Text.Classes

namespace Subscriptions

/-- A node in its tree: the node, and its strict ancestors from the parent on, each with the
position of the child on the way down. -/
structure Cursor where
  focus : Node
  above : List (Node × Nat)
deriving Repr, Inhabited

namespace Node

def asRoot (n : Node) : Cursor := ⟨n, []⟩

/-- The name of a chain of members on an identifier or on `this`, with dots between. -/
def dottedName : Node → Option String
  | ⟨_, .identifier, _, name, _, _⟩ => name.map Name.text
  | ⟨_, .thisExpression, _, _, _, _⟩ => some "this"
  | ⟨_, .propertyAccess, _, some name, _, object :: _⟩ =>
    object.dottedName.map fun o => o ++ "." ++ name.text
  | ⟨_, .parenthesized, _, _, _, inner :: _⟩ => inner.dottedName
  | _ => none

def summary (n : Node) : String :=
  n.kind.name ++ "@" ++ toString n.span.start ++ ".." ++ toString n.span.stop ++
    match n.nameText with
    | some t => " " ++ Text.quoted t
    | none => ""

end Node

namespace Cursor

def kind (c : Cursor) : Kind := c.focus.kind

def span (c : Cursor) : Span := c.focus.span

/-- The positions on the way up to the root; two cursors of one tree with the same path are at the
same node. -/
def path (c : Cursor) : List Nat := c.above.map Prod.snd

def same (c d : Cursor) : Bool := c.path == d.path

def parent? (c : Cursor) : Option Cursor :=
  match c.above with
  | [] => none
  | (n, _) :: above => some ⟨n, above⟩

def indexInParent? (c : Cursor) : Option Nat := c.above.head?.map Prod.snd

def ancestorsOf : List (Node × Nat) → List Cursor
  | [] => []
  | (n, _) :: above => ⟨n, above⟩ :: ancestorsOf above

/-- The strict ancestors, the nearest first. -/
def ancestors (c : Cursor) : List Cursor := ancestorsOf c.above

def nearest? (c : Cursor) (p : Cursor → Bool) : Option Cursor := c.ancestors.find? p

def root (c : Cursor) : Cursor := c.ancestors.getLastD c

def down (c : Cursor) (i : Nat) (n : Node) : Cursor := ⟨n, (c.focus, i) :: c.above⟩

def children (c : Cursor) : List Cursor := c.focus.children.mapIdx c.down

def child? (c : Cursor) (i : Nat) : Option Cursor := (c.focus.children[i]?).map (c.down i)

def lastChild? (c : Cursor) : Option Cursor := c.children.getLast?

/-- The object of a member or index, or the callee of a call or a construction. -/
def receiver? (c : Cursor) : Option Cursor := if c.kind.hasReceiver then c.child? 0 else none

def arguments (c : Cursor) : List Cursor :=
  match c.kind with
  | .call | .construction => c.children.drop 1
  | _ => []

/-- The body of whatever can be called: its last child, unless that is a parameter. -/
def body? (c : Cursor) : Option Cursor :=
  if c.kind.isCallable then c.lastChild?.filter (!·.kind.isParameter) else none

def parameters (c : Cursor) : List Cursor := c.children.filter (·.kind.isParameter)

mutual
def preorderFrom (above : List (Node × Nat)) : Node → List Cursor
  | ⟨i, k, s, n, d, children⟩ =>
    let node : Node := ⟨i, k, s, n, d, children⟩
    ⟨node, above⟩ :: preorderList node above 0 children

def preorderList (parent : Node) (above : List (Node × Nat)) (position : Nat) :
    List Node → List Cursor
  | [] => []
  | c :: cs =>
    preorderFrom ((parent, position) :: above) c ++ preorderList parent above (position + 1) cs
end

/-- The node and all below it, each before its children. -/
def preorder (c : Cursor) : List Cursor := preorderFrom c.above c.focus

@[simp] theorem same_refl (c : Cursor) : c.same c = true := by simp [same]

theorem same_comm (c d : Cursor) : c.same d = d.same c := by simp [same, Bool.beq_comm]

theorem ancestorsOf_length (above : List (Node × Nat)) :
    (ancestorsOf above).length = above.length := by
  induction above with
  | nil => rfl
  | cons a above ih => simp [ancestorsOf, ih]

/-- The way up from a child starts at its parent. -/
theorem ancestors_down (c : Cursor) (i : Nat) (n : Node) :
    (c.down i n).ancestors = c :: c.ancestors := rfl

mutual
theorem length_preorderFrom (above : List (Node × Nat)) :
    ∀ n : Node, (preorderFrom above n).length = n.size
  | ⟨i, k, s, n, d, children⟩ => by
    simp [preorderFrom, Node.size, length_preorderList ⟨i, k, s, n, d, children⟩ above 0 children]

theorem length_preorderList (parent : Node) (above : List (Node × Nat)) (position : Nat) :
    ∀ ns : List Node, (preorderList parent above position ns).length = Node.sizes ns
  | [] => rfl
  | c :: cs => by
    simp [preorderList, Node.sizes, length_preorderFrom ((parent, position) :: above) c,
      length_preorderList parent above (position + 1) cs]
end

end Cursor

end Subscriptions
