import Subscriptions.Source.Position
import Subscriptions.Syntax.Kind

namespace Subscriptions

/-- A declared name, a referenced identifier or an accessed member, where it is written. -/
structure Name where
  text : String
  span : Span
deriving Repr, DecidableEq, Inhabited

/-- A node of the syntax tree with everything below it. -/
structure Node where
  /-- Nodes are numbered in the order in which they are built, children before their parent. -/
  serial : Nat
  kind : Kind
  span : Span
  name : Option Name
  /-- The text of the declared type: an annotation, a return type or the target of a cast. -/
  declared : Option String
  children : List Node
deriving Repr, Inhabited

namespace Node

def nameText (n : Node) : Option String := n.name.map Name.text

def isNamed (n : Node) (text : String) : Bool := n.nameText == some text

mutual
def size : Node → Nat
  | ⟨_, _, _, _, _, children⟩ => sizes children + 1

def sizes : List Node → Nat
  | [] => 0
  | c :: cs => c.size + sizes cs
end

mutual
def preorder (depth : Nat) : Node → List (Nat × Node)
  | ⟨i, k, s, n, d, children⟩ => (depth, ⟨i, k, s, n, d, children⟩) :: preorders (depth + 1) children

def preorders (depth : Nat) : List Node → List (Nat × Node)
  | [] => []
  | c :: cs => c.preorder depth ++ preorders depth cs
end

/-- A line of an outline: two blanks for each level, the kind, the name and the declared type. -/
def outlineLine (depth : Nat) (n : Node) : String :=
  String.join (List.replicate depth "  ") ++ n.kind.name ++
    (match n.nameText with | some t => " " ++ t | none => "") ++
    (match n.declared with | some t => ": " ++ t | none => "") ++ "\n"

def outline (n : Node) : String :=
  String.join ((n.preorder 0).map fun p => outlineLine p.1 p.2)

mutual
theorem length_preorder (depth : Nat) : ∀ n : Node, (n.preorder depth).length = n.size
  | ⟨_, _, _, _, _, children⟩ => by simp [preorder, size, length_preorders (depth + 1) children]

theorem length_preorders (depth : Nat) : ∀ ns : List Node, (preorders depth ns).length = sizes ns
  | [] => rfl
  | c :: cs => by simp [preorders, sizes, length_preorder depth c, length_preorders depth cs]
end

end Node

end Subscriptions
