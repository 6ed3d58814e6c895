import Subscriptions.Grammar.Skip
import Subscriptions.Syntax.Arena
import Subscriptions.Syntax.Fault

namespace Subscriptions.Grammar

/-- Where a parse stands in the token list, and what it has built so far. -/
structure State where
  /-- The tokens still to be read, the end of the file left out. -/
  rest : List Token
  /-- The end of the file, which is never read past. -/
  last : Token
  /-- Where the last token read ends. -/
  readTo : Nat
  /-- The nodes built. -/
  arena : Arena
  /-- The faults found, the latest first. -/
  faults : List Fault
deriving Repr, Inhabited

namespace State

/-- The token `n` places ahead; past the last one it is the end of the file. -/
def ahead (s : State) (n : Nat) : Token := s.rest[n]?.getD s.last

def current (s : State) : Token := s.rest.headD s.last

def built (s : State) : Nat := s.arena.size

def atEnd (s : State) : Bool := s.rest.isEmpty

def isAt (s : State) (p : String) : Bool := s.current.isPunct p

def isAtWord (s : State) (w : String) : Bool := s.current.isTheWord w

def aheadIs (s : State) (n : Nat) (p : String) : Bool := (s.ahead n).isPunct p

/-- Reads the tokens of a split, which must cut the tokens still to be read. -/
def read (s : State) (split : Split) : State :=
  { s with rest := split.2, readTo := (split.1.getLast?.map (·.span.stop)).getD s.readTo }

def report (s : State) (f : Fault) : State := { s with faults := f :: s.faults }

def alloc (s : State) (n : Node) : State := { s with arena := s.arena.add n }

@[simp] theorem rest_alloc (s : State) (n : Node) : (s.alloc n).rest = s.rest := rfl

@[simp] theorem readTo_alloc (s : State) (n : Node) : (s.alloc n).readTo = s.readTo := rfl

@[simp] theorem faults_alloc (s : State) (n : Node) : (s.alloc n).faults = s.faults := rfl

@[simp] theorem built_alloc (s : State) (n : Node) : (s.alloc n).built = s.built + 1 :=
  s.arena.size_add n

end State

/-- A parse at a nesting depth. It fails only where its fuel runs out. -/
def Parse (α : Type) : Type := Nat → State → Option (α × State)

namespace Parse

def run {α : Type} (p : Parse α) (depth : Nat) (s : State) : Option (α × State) := p depth s

/-- Out of fuel. -/
def stuck {α : Type} : Parse α := fun _ _ => none

instance : Monad Parse where
  pure a := fun _ s => some (a, s)
  bind p f := fun depth s =>
    match p depth s with
    | none => none
    | some (a, s') => f a depth s'

instance {α : Type} : Inhabited (Parse α) := ⟨stuck⟩

@[simp] theorem pure_run {α : Type} (a : α) (depth : Nat) (s : State) :
    (pure a : Parse α) depth s = some (a, s) := rfl

theorem bind_run {α β : Type} (p : Parse α) (f : α → Parse β) (depth : Nat) (s : State) :
    (p >>= f) depth s = (p depth s).bind fun r => f r.1 depth r.2 := by
  change (match p depth s with | none => none | some (a, s') => f a depth s') = _
  cases p depth s <;> rfl

end Parse

def look : Parse State := fun _ s => some (s, s)

def update (f : State → State) : Parse Unit := fun _ s => some ((), f s)

/-- Reads one token, unless at the end of the file. -/
def advance : Parse Unit := update fun s => s.read (s.rest.take 1, s.rest.drop 1)

def advanceBy (n : Nat) : Parse Unit := update fun s => s.read (s.rest.splitAt n)

def skip (cut : List Token → Split) : Parse (List Token) := fun _ s =>
  let split := cut s.rest
  some (split.1, s.read split)

/-- Reads the punctuator `p` if it comes next, and tells whether it did. -/
def accept (p : String) : Parse Bool := do
  let s ← look
  if s.isAt p then
    advance
    pure true
  else pure false

def acceptWord (w : String) : Parse Bool := do
  let s ← look
  if s.isAtWord w then
    advance
    pure true
  else pure false

/-- Reads `p` if it comes next. -/
def optional (p : String) : Parse Unit := do
  let _ ← accept p

def optionalWord (w : String) : Parse Unit := do
  let _ ← acceptWord w

/-- Reports that the current token is not what the grammar asks for. -/
def report (what : Expectation) : Parse Unit := update fun s =>
  let t := s.current
  s.report (.expected what (if t.isEnd then none else some t.text) t.span)

/-- Reads `p`, or reports that it is missing. -/
def expect (p : String) : Parse Unit := do
  if !(← accept p) then report (.token p)

def here : Parse Nat := fun _ s => some (s.current.span.start, s)

def buildNamed (kind : Kind) (start : Nat) (name : Option Name) (declared : Option String)
    (children : List Node) : Parse Node := fun _ s =>
  let node : Node := ⟨s.built, kind, ⟨start, max s.readTo start⟩, name, declared, children⟩
  some (node, s.alloc node)

def build (kind : Kind) (start : Nat) (children : List Node) : Parse Node :=
  buildNamed kind start none none children

def takeName : Parse Name := do
  let t := (← look).current
  advance
  pure ⟨t.text, t.span⟩

def takeNameIfWord : Parse (Option Name) := do
  if (← look).current.isWord then return some (← takeName)
  else return none

def skipBalanced : Parse Unit := do
  let _ ← skip (balanced 0)

/-- Reads type parameters or arguments, if `<` comes next. -/
def skipAngles : Parse Unit := do
  if (← look).isAt "<" then
    let _ ← skip (angles 0 0)

def typeUpTo (stops : List String) : Parse (Option String) := do
  return typeText (← skip (typeTokens stops none 0))

/-- Reads a colon and a type, if a colon comes next. -/
def annotation (stops : List String) : Parse (Option String) := do
  if ← accept ":" then typeUpTo stops
  else return none

/-- Statements and expressions nested deeper than this are skipped. -/
def maxNesting : Nat := 256

/-- Reports too deep a nesting and skips the rest of the enclosing bracket as one node. -/
def skipTooDeep : Parse Node := do
  let start ← here
  update fun s => s.report (.tooDeep maxNesting s.current.span)
  let _ ← skip (enclosed 0)
  build .unknown start []

/-- One nesting level deeper, or nothing where the limit is reached. -/
def nested (p : Parse Node) : Parse Node := fun depth =>
  if maxNesting ≤ depth then skipTooDeep depth else p (depth + 1)

/-- The nodes of one turn after another, as long as a turn asks for more. -/
def turns : Nat → Parse (List Node × Bool) → Parse (List Node)
  | 0, _ => .stuck
  | fuel + 1, turn => do
    let (nodes, more) ← turn
    if more then return nodes ++ (← turns fuel turn)
    else return nodes

/-- A turn that asks for more has read a token, so as many turns as tokens and one more do. -/
def gather (turn : Parse (List Node × Bool)) : Parse (List Node) := do
  turns ((← look).rest.length + 1) turn

/-- One turn after another on the node that the last one left, as long as a turn asks for more. -/
def climbs : Nat → (Node → Parse (Node × Bool)) → Node → Parse Node
  | 0, _, _ => .stuck
  | fuel + 1, turn, node => do
    let (node, more) ← turn node
    if more then climbs fuel turn node
    else return node

def climb (turn : Node → Parse (Node × Bool)) (node : Node) : Parse Node := do
  climbs ((← look).rest.length + 1) turn node

/-- The number of tokens read by a parse tells whether it moved. -/
def moved (p : Parse Node) : Parse (Node × Bool) := do
  let before := (← look).rest.length
  let node ← p
  return (node, (← look).rest.length != before)

/-- The rules through which the grammar meets itself again. -/
inductive Rule
  | statement
  | assignment
  /-- Operators that bind more tightly than a precedence. -/
  | binary (above : Nat)
  | unary
  | construction
  /-- A primary expression with its member accesses and calls. -/
  | access
deriving Repr, DecidableEq, Inhabited

abbrev Recur := Rule → Parse Node

end Subscriptions.Grammar
