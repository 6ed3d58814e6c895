import Subscriptions.Glob.Basic

namespace Subscriptions.Glob

/-- The ranges of a class, the last one first, while it is read. -/
structure ClassState where
  ranges : List (Char × Char)
  first : Bool
  /-- A hyphen has just opened a range. -/
  opened : Bool
deriving Repr, Inhabited

namespace ClassState

def start : ClassState := ⟨[], true, false⟩

/-- The character closes the open range or stands for itself. -/
def add (s : ClassState) (c : Char) : Except Fault ClassState :=
  match s.opened, s.ranges with
  | true, (a, _) :: rest =>
    if c < a then .error (.invalidRange a c) else .ok ⟨(a, c) :: rest, false, false⟩
  | _, ranges => .ok ⟨(c, c) :: ranges, false, false⟩

/-- A hyphen stands for itself in front, at the end and as the end of a range. -/
def hyphen (s : ClassState) : Except Fault ClassState :=
  if s.first || s.opened then s.add '-' else .ok { s with opened := true }

def finish (s : ClassState) : List (Char × Char) :=
  (if s.opened then ('-', '-') :: s.ranges else s.ranges).reverse

end ClassState

/-- The ranges of a class up to its closing bracket, which stands for itself in front. -/
def classRanges : ClassState → List Char → Except Fault (List (Char × Char) × List Char)
  | _, [] => .error .unclosedClass
  | s, c :: cs =>
    if c == ']' && !s.first then .ok (s.finish, cs)
    else do classRanges (← if c == '-' then s.hyphen else s.add c) cs

def classToken (cs : List Char) : Except Fault (Token × List Char) := do
  let negated := cs.head? == some '!' || cs.head? == some '^'
  let (ranges, rest) ← classRanges .start (if negated then cs.drop 1 else cs)
  return (.oneOf negated ranges, rest)

/-- What has been read of a glob: the branch that is being read, the branches before it in the
same choice, and around them what was open before. All lists have their latest element first. -/
structure Reading where
  branch : List Token
  branches : List (List Token)
  around : List (List Token × List (List Token))
deriving Repr, Inhabited

namespace Reading

def start : Reading := ⟨[], [], []⟩

def inChoice (r : Reading) : Bool := !r.around.isEmpty

def push (t : Token) (r : Reading) : Reading := { r with branch := t :: r.branch }

def openChoice (r : Reading) : Reading := ⟨[], [], (r.branch, r.branches) :: r.around⟩

def nextBranch (r : Reading) : Reading := { r with branch := [], branches := r.branch :: r.branches }

def closeChoice (r : Reading) : Except Fault Reading :=
  match r.around with
  | [] => .error .unopenedChoice
  | (branch, branches) :: around =>
    let all := ((r.branch :: r.branches).reverse).map List.reverse
    .ok ⟨.choice all :: branch, branches, around⟩

/-- Two stars that are no whole component are two wildcards. -/
def twoStars (r : Reading) : Reading := (r.push .anything).push .anything

/-- Two stars between slashes take the place of the slash before them. Behind two stars that
already lead or end, they add nothing. -/
def directories (last : Bool) (r : Reading) : Reading :=
  match r.branch with
  | .leading :: _ => r
  | .under :: _ => r
  | _ :: rest => { r with branch := (if last then .under else .between) :: rest }
  | [] => r

/-- Two stars come next; `previous` is the character before them. What they mean is pushed, with
the rest of the text and the character before that rest. -/
def doubleStar (previous : Option Char) (r : Reading) (cs : List Char) :
    Reading × Option Char × List Char :=
  if r.branch.isEmpty then
    match cs with
    | [] => (r.push .leading, some '*', [])
    | '/' :: rest => (r.push .leading, some '/', rest)
    | rest => (r.twoStars, some '*', rest)
  else if previous != some '/' &&
      !(r.inChoice && (previous == some ',' || previous == some '{')) then
    (r.twoStars, some '*', cs)
  else
    match cs with
    | [] => (r.directories true, some '*', [])
    | '/' :: rest => (r.directories false, some '/', rest)
    | c :: rest =>
      if r.inChoice && (c == ',' || c == '}') then (r.directories true, some '*', c :: rest)
      else (r.twoStars, some '*', c :: rest)

/-- The tokens of a text without an open choice. -/
def finish (r : Reading) : Except Fault (List Token) :=
  if r.inChoice then .error .unclosedChoice else .ok r.branch.reverse

end Reading

/-- Reads a text from a character on whose predecessor is given, one part for each unit of fuel. -/
def readFrom : Nat → Option Char → Reading → List Char → Except Fault (List Token)
  | 0, _, r, _ => r.finish
  | _, _, r, [] => r.finish
  | fuel + 1, previous, r, c :: cs =>
    match c, cs with
    | '?', cs => readFrom fuel (some c) (r.push .any) cs
    | '*', '*' :: cs =>
      let (r, previous, rest) := r.doubleStar previous cs
      readFrom fuel previous r rest
    | '*', cs => readFrom fuel (some c) (r.push .anything) cs
    | '[', cs => do
      let (t, rest) ← classToken cs
      readFrom fuel (some ']') (r.push t) rest
    | '{', cs => readFrom fuel (some c) r.openChoice cs
    | '}', cs => do readFrom fuel (some c) (← r.closeChoice) cs
    | ',', cs =>
      readFrom fuel (some c) (if r.inChoice then r.nextBranch else r.push (.literal c)) cs
    | '\\', [] => .error .danglingEscape
    | '\\', e :: cs => readFrom fuel (some e) (r.push (.literal e)) cs
    | c, cs => readFrom fuel (some c) (r.push (.literal c)) cs

def ofText (text : String) : Except Error Glob :=
  match readFrom text.length none .start text.toList with
  | .ok ts => .ok ⟨text, ts⟩
  | .error fault => .error ⟨text, fault⟩

def ofTexts (texts : List String) : Except Error (List Glob) := texts.mapM ofText

end Subscriptions.Glob
