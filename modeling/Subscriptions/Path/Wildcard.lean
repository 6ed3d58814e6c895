import Subscriptions.Path.Basic

namespace Subscriptions.Path

/-- One character or a range of characters. -/
inductive CharClass
  | one (c : Char)
  | range (first last : Char)
deriving Repr, DecidableEq, Inhabited

def CharClass.holds (c : Char) : CharClass → Bool
  | .one d => c == d
  | .range first last => first ≤ c && c ≤ last

/-- A part of a pattern for paths. -/
inductive Wildcard
  | char (c : Char)
  | any
  /-- Any characters. -/
  | star
  /-- Two stars, a component on their own. -/
  | directories
  | oneOf (negated : Bool) (classes : List CharClass)
deriving Repr, DecidableEq, Inhabited

namespace Wildcard

/-- What is wrong with a pattern, at a character. -/
inductive Fault
  | stars (position : Nat)
  | directories (position : Nat)
  | range (position : Nat)
deriving Repr, DecidableEq, Inhabited

namespace Fault

def position : Fault → Nat
  | .stars n | .directories n | .range n => n

def reason : Fault → String
  | .stars _ => "wildcards are either regular \x60*\x60 or recursive \x60**\x60"
  | .directories _ => "recursive wildcards must form a single path component"
  | .range _ => "invalid range pattern"

def message (f : Fault) : String :=
  "Pattern syntax error near position " ++ toString f.position ++ ": " ++ f.reason

end Fault

/-- The classes of a bracket. A hyphen between two characters makes a range. -/
def classes : List Char → List CharClass
  | a :: '-' :: b :: cs => .range a b :: classes cs
  | c :: cs => .one c :: classes cs
  | [] => []

/-- The characters of a bracket, one at least, and what follows the closing bracket. -/
def bracket? : List Char → Option (List Char × List Char)
  | [] => none
  | c :: cs =>
    match cs.dropWhile (· != ']') with
    | [] => none
    | _ :: rest => some (c :: cs.takeWhile (· != ']'), rest)

def oneOf? (cs : List Char) : Option (Wildcard × List Char) :=
  match cs with
  | '!' :: rest => (bracket? rest).map fun r => (.oneOf true (classes r.1), r.2)
  | rest => (bracket? rest).map fun r => (.oneOf false (classes r.1), r.2)

/-- Two stars at a position, with the character before them and the text after them. They fill a
component, and the slash after it goes with them. -/
def twoStars (position : Nat) (previous : Option Char) (cs : List Char) :
    Except Fault (List Char × Nat × Option Char) :=
  if previous.all (· == '/') then
    match cs with
    | [] => .ok ([], position + 2, some '*')
    | '/' :: rest => .ok (rest, position + 3, some '/')
    | _ => .error (.directories (position + 2))
  else .error (.directories (position - 1))

/-- Reads a pattern from a position on, one part for each unit of fuel. -/
def readFrom : Nat → Nat → Option Char → List Char → Except Fault (List Wildcard)
  | 0, _, _, _ => .ok []
  | _, _, _, [] => .ok []
  | fuel + 1, n, previous, c :: cs => do
    match c, cs with
    | '?', cs => return .any :: (← readFrom fuel (n + 1) (some c) cs)
    | '*', '*' :: '*' :: _ => throw (.stars (n + 2))
    | '*', '*' :: cs =>
      let (rest, next, previous) ← twoStars n previous cs
      return .directories :: (← readFrom fuel next previous rest)
    | '*', cs => return .star :: (← readFrom fuel (n + 1) (some c) cs)
    | '[', cs =>
      match oneOf? cs with
      | some (w, rest) =>
        return w :: (← readFrom fuel (n + 1 + (cs.length - rest.length)) (some ']') rest)
      | none => throw (.range n)
    | c, cs => return .char c :: (← readFrom fuel (n + 1) (some c) cs)

def ofChars (cs : List Char) : Except Fault (List Wildcard) := readFrom cs.length 0 none cs

def someEnd (next : List Char → Bool) : List Char → Bool
  | [] => next []
  | c :: cs => next (c :: cs) || someEnd next cs

def matchAll : List Wildcard → List Char → Bool
  | [], cs => cs.isEmpty
  | .star :: ws, cs => someEnd (matchAll ws) cs
  | .directories :: ws, cs => someEnd (matchAll ws) cs
  | _ :: _, [] => false
  | .char d :: ws, c :: cs => c == d && matchAll ws cs
  | .any :: ws, _ :: cs => matchAll ws cs
  | .oneOf negated classes :: ws, c :: cs => classes.any (·.holds c) != negated && matchAll ws cs

/-- The text of a pattern without wildcards. -/
def plainText? (ws : List Wildcard) : Option String := (ws.mapM char?).map String.ofList
where
  char? : Wildcard → Option Char
    | .char c => some c
    | _ => none

def isRecursive (ws : List Wildcard) : Bool := ws.contains .directories

/-- The patterns of the components of a path. The whole text is read first, so that its faults
come before those of a component. -/
def components (text : String) : Except Fault (List (List Wildcard)) := do
  let _ ← ofChars text.toList
  let cs := text.toList
  let inner := if cs.head? == some '/' then cs.drop 1 else cs
  let parts := Path.parts inner
  let parts := if parts.getLast? == some [] then parts.dropLast else parts
  (if inner.isEmpty then [[]] else parts).mapM ofChars

end Wildcard

end Subscriptions.Path
