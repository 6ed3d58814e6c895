import Subscriptions.Grammar.Statement
import Subscriptions.Syntax.Scanner

namespace Subscriptions.Grammar

/-- One rule of the grammar. Member accesses, and classes through their heritage, are not counted
as nesting. -/
def body (go : Recur) : Rule → Parse Node
  | .statement => nested (statement go)
  | .assignment => nested (assignment go)
  | .binary above => nested (binary go above)
  | .unary => nested (unary go)
  | .construction => nested (construction go)
  | .access => access go

/-- The grammar, each rule inside another taking a unit of fuel. -/
def rule : Nat → Rule → Parse Node
  | 0, _ => .stuck
  | fuel + 1, r => body (rule fuel) r

def statements (go : Recur) : Parse (List Node) := gather do
  if (← look).atEnd then return ([], false)
  else
    let (node, progress) ← moved (go .statement)
    if !progress then
      report .statement
      advance
    return ([node], true)

def program (go : Recur) (length : Nat) : Parse Node := do
  let nodes ← statements go
  fun _ s =>
    let root : Node := ⟨s.built, .sourceFile, ⟨0, length⟩, none, none, nodes⟩
    some (root, s.alloc root)

/-- Between two tokens read, fewer rules than this can meet inside one another. -/
def rulesPerToken : Nat := 8

end Grammar

/-- A source with its tree, the faults found in it and the arena in which the tree was built. -/
structure Parsed where
  source : List Char
  root : Node
  faults : List Fault
  arena : Arena
deriving Repr, Inhabited

namespace Parsed

def built (p : Parsed) : Nat := p.arena.size

/-- The run of the grammar on scanned tokens with an amount of fuel. -/
def run (fuel : Nat) (source : List Char) : Option (Node × Grammar.State) :=
  let scan := tokenize source
  let tokens := scan.tokens.filter (!·.isEnd)
  let last := scan.tokens.getLastD default
  Grammar.program (Grammar.rule fuel) (byteLength source) 0 ⟨tokens, last, 0, {}, []⟩

def fuelFor (source : List Char) : Nat :=
  Grammar.rulesPerToken * ((tokenize source).tokens.length + 1)

/-- Reads a source. Faults of the scanner come before those of the grammar. -/
def ofSource (source : List Char) : Parsed :=
  match run (fuelFor source) source with
  | some (root, s) => ⟨source, root, (tokenize source).faults ++ s.faults.reverse, s.arena⟩
  | none =>
    let root : Node := ⟨0, .sourceFile, ⟨0, byteLength source⟩, none, none, []⟩
    ⟨source, root, [], Arena.add {} root⟩

end Parsed

end Subscriptions
