import Subscriptions.Pattern.CharSet

namespace Subscriptions.Pattern

/-- What holds between two characters. -/
inductive Boundary
  | textStart
  | textEnd
  | lineStart
  | lineEnd
  | word
  | notWord
  | wordStart
  | wordEnd
deriving Repr, DecidableEq, Inhabited

/-- A regular expression. Groups and greediness do not show here: only whether there is a match
matters. -/
inductive Expression
  | empty
  | char (set : CharSet)
  | boundary (b : Boundary)
  | sequence (a b : Expression)
  | either (a b : Expression)
  | many (a : Expression)
deriving Repr, DecidableEq, Inhabited

/-- A place in a text: the characters before and after it, if any. -/
structure Place where
  before : Option Char
  after : Option Char
deriving Repr, DecidableEq, Inhabited

namespace Place

def afterWord (p : Place) : Bool := p.before.any Text.isWordChar

def beforeWord (p : Place) : Bool := p.after.any Text.isWordChar

end Place

/-- The places of a text from left to right, given the character before it. -/
def places (before : Option Char) : List Char → List Place
  | [] => [⟨before, none⟩]
  | c :: cs => ⟨before, some c⟩ :: places (some c) cs

theorem length_places (before : Option Char) (text : List Char) :
    (places before text).length = text.length + 1 := by
  induction text generalizing before with
  | nil => rfl
  | cons c cs ih => simp [places, ih]

def Boundary.holds (b : Boundary) (p : Place) : Bool :=
  match b with
  | .textStart => p.before.isNone
  | .textEnd => p.after.isNone
  | .lineStart => p.before.all (· == '\n')
  | .lineEnd => p.after.all (· == '\n')
  | .word => p.afterWord != p.beforeWord
  | .notWord => p.afterWord == p.beforeWord
  | .wordStart => !p.afterWord && p.beforeWord
  | .wordEnd => p.afterWord && !p.beforeWord

/-- Some places of a text: a mark for each of them. -/
abbrev Marks := List Bool

namespace Marks

def union (ms ns : Marks) : Marks := ms.zipWith (· || ·) ns

def keep (test : Place → Bool) (ps : List Place) (ms : Marks) : Marks :=
  ms.zipWith (fun m p => m && test p) ps

/-- The places behind a character of the set that stands behind a marked place. The first place is
marked if `first` is. -/
def advance (set : CharSet) (first : Bool) : List Place → Marks → Marks
  | p :: ps, m :: ms => first :: advance set (m && p.after.any set.holds) ps ms
  | _, _ => []

/-- The places reached by any number of steps, within a number of rounds. -/
def closure (step : Marks → Marks) : Nat → Marks → Marks
  | 0, ms => ms
  | rounds + 1, ms =>
    let next := ms.union (step ms)
    if next == ms then ms else closure step rounds next

end Marks

namespace Expression

/-- The places of a text where a match from a marked place can end. A repetition reaches a further
place with each round, so as many rounds as places do. -/
def ends (ps : List Place) : Expression → Marks → Marks
  | .empty, ms => ms
  | .char set, ms => ms.advance set false ps
  | .boundary b, ms => ms.keep b.holds ps
  | .sequence a b, ms => b.ends ps (a.ends ps ms)
  | .either a b, ms => (a.ends ps ms).union (b.ends ps ms)
  | .many a, ms => ms.closure (a.ends ps) ps.length

def found (e : Expression) (text : String) : Bool :=
  let ps := places none text.toList
  (e.ends ps (ps.map fun _ => true)).any id

def times (e : Expression) : Nat → Expression
  | 0 => .empty
  | n + 1 => .sequence e (e.times n)

def atMost (e : Expression) : Nat → Expression
  | 0 => .empty
  | n + 1 => .either .empty (.sequence e (e.atMost n))

/-- At least `low` times and at most `high` times, without a bound if there is none. -/
def repeated (e : Expression) (low : Nat) : Option Nat → Expression
  | none => .sequence (e.times low) (.many e)
  | some high => .sequence (e.times low) (e.atMost (high - low))

def concat : List Expression → Expression
  | [] => .empty
  | [e] => e
  | e :: es => .sequence e (concat es)

def alternatives (first : Expression) : List Expression → Expression
  | [] => first
  | e :: es => .either first (alternatives e es)

def literal (text : List Char) : Expression := concat (text.map fun c => .char (.single c))

end Expression

end Subscriptions.Pattern
