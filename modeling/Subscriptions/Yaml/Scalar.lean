import Subscriptions.Text.Digits

namespace Subscriptions.Yaml

def isGapChar (c : Char) : Bool := c == ' ' || c == '\t'

/-- A blank, the end of a line or the end of the text comes next. -/
def blankNext : List Char → Bool
  | [] => true
  | c :: _ => isGapChar c || c == '\n'

/-- Characters that have a meaning of their own inside flow collections. -/
def isFlowMark (c : Char) : Bool := c == ',' || c == '[' || c == ']' || c == '{' || c == '}'

/-- Characters that no plain scalar starts with. -/
def indicators : List Char := [
  ',', '[', ']', '{', '}', '#', '&', '*', '!', '|', '>', '\'', '"', '%', '@', '\x60']

/-- A plain scalar starts here. A hyphen, a question mark or a colon starts one if it is not
followed by a blank, and the latter two only outside flow collections. -/
def startsPlain (flow : Bool) : List Char → Bool
  | [] => false
  | c :: cs =>
    if isGapChar c || c == '\n' then false
    else if c == '-' then !blankNext cs
    else if c == '?' || c == ':' then !flow && !blankNext cs
    else !indicators.contains c

def isTightColon (flow : Bool) : List Char → Bool
  | ':' :: c :: _ => flow && (c == '?' || isFlowMark c)
  | _ => false

/-- A plain scalar ends before the text, which a blank precedes or not. -/
def endsPlain (flow afterBlank : Bool) : List Char → Bool
  | [] => true
  | c :: cs =>
    c == '\n' || (c == '#' && afterBlank) || (c == ':' && blankNext cs) ||
      (flow && isFlowMark c) || isTightColon flow (c :: cs)

/-- The part of a plain scalar on one line, without blanks at its end, and what follows it. -/
def plainLine (flow : Bool) : Bool → List Char → List Char × List Char
  | _, [] => ([], [])
  | afterBlank, c :: cs =>
    if endsPlain flow afterBlank (c :: cs) then ([], c :: cs)
    else
      let r := plainLine flow (isGapChar c) cs
      if isGapChar c && r.1.isEmpty then ([], c :: cs) else (c :: r.1, r.2)

/-- Line ends and blanks up to the next character: how many lines end, the column of the
character and the text from it on. -/
def nextLine : Nat → Nat → List Char → Nat × Nat × List Char
  | breaks, column, [] => (breaks, column, [])
  | breaks, column, c :: cs =>
    if c == '\n' then nextLine (breaks + 1) 0 cs
    else if isGapChar c then nextLine breaks (column + 1) cs
    else (breaks, column, c :: cs)

/-- One line end between two parts of a scalar stands for a blank, further ones for themselves. -/
def folded (breaks : Nat) : List Char :=
  if breaks ≤ 1 then [' '] else List.replicate (breaks - 1) '\n'

/-- A plain scalar, over as many lines as are indented enough. -/
def plain (flow : Bool) (least : Nat) : Nat → List Char → List Char × List Char
  | 0, cs => ([], cs)
  | fuel + 1, cs =>
    let (text, rest) := plainLine flow false cs
    let (breaks, column, next) := nextLine 0 0 rest
    if breaks == 0 || next.head? == some '#' || (!flow && column < least) ||
        endsPlain flow true next then (text, rest)
    else
      let r := plain flow least fuel next
      (text ++ folded breaks ++ r.1, r.2)

/-- A plain scalar, unless a colon stands inside it where none may. -/
def plain? (flow : Bool) (least : Nat) (cs : List Char) : Option (String × List Char) :=
  let r := plain flow least (cs.length + 1) cs
  if isTightColon flow r.2 then none else some (String.ofList r.1, r.2)

/-- What separates two parts of a quoted scalar. -/
inductive Pause
  /-- Blanks on one line, the last one first. -/
  | blanks (cs : List Char)
  /-- Line ends, one at least. -/
  | lines (breaks : Nat)
  /-- An escaped line end, and line ends after it. -/
  | joined (breaks : Nat)
deriving Repr, DecidableEq, Inhabited

namespace Pause

def none : Pause := .blanks []

def text : Pause → List Char
  | .blanks cs => cs.reverse
  | .lines breaks => folded breaks
  | .joined breaks => List.replicate breaks '\n'

def blank (c : Char) : Pause → Pause
  | .blanks cs => .blanks (c :: cs)
  | pause => pause

def lineEnd : Pause → Pause
  | .blanks _ => .lines 1
  | .lines breaks => .lines (breaks + 1)
  | .joined breaks => .joined (breaks + 1)

end Pause

def before (text : List Char) (r : Option (List Char × List Char)) :
    Option (List Char × List Char) :=
  r.map fun r => (text ++ r.1, r.2)

/-- The inside of a scalar in single quotes, in which two quotes stand for one. -/
def single? : Pause → List Char → Option (List Char × List Char)
  | _, [] => none
  | pause, '\'' :: '\'' :: cs => before (pause.text ++ ['\'']) (single? .none cs)
  | pause, '\'' :: cs => some (pause.text, cs)
  | pause, c :: cs =>
    if c == '\n' then single? pause.lineEnd cs
    else if isGapChar c then single? (pause.blank c) cs
    else before (pause.text ++ [c]) (single? .none cs)

def escapes : List (Char × Char) := [
  ('0', '\x00'), ('a', '\x07'), ('b', '\x08'), ('t', '\t'), ('\t', '\t'), ('n', '\n'),
  ('v', '\x0b'), ('f', '\x0c'), ('r', '\r'), ('e', '\x1b'), (' ', ' '), ('"', '"'), ('/', '/'),
  ('\\', '\\'), ('N', '\u0085'), ('_', '\u00a0'), ('L', '\u2028'), ('P', '\u2029')]

def coded? (digits : List Char) : Option Char := do
  let n ← Text.number? 16 digits
  if n.isValidChar then some (Char.ofNat n) else none

def double? : Pause → List Char → Option (List Char × List Char)
  | _, [] => none
  | pause, '"' :: cs => some (pause.text, cs)
  | pause, '\\' :: '\n' :: cs => before pause.text (double? (.joined 0) cs)
  | pause, '\\' :: 'x' :: a :: b :: cs => do
    before (pause.text ++ [← coded? [a, b]]) (double? .none cs)
  | pause, '\\' :: 'u' :: a :: b :: c :: d :: cs => do
    before (pause.text ++ [← coded? [a, b, c, d]]) (double? .none cs)
  | pause, '\\' :: 'U' :: a :: b :: c :: d :: e :: f :: g :: h :: cs => do
    before (pause.text ++ [← coded? [a, b, c, d, e, f, g, h]]) (double? .none cs)
  | pause, '\\' :: c :: cs => do
    before (pause.text ++ [← escapes.lookup c]) (double? .none cs)
  | pause, c :: cs =>
    if c == '\n' then double? pause.lineEnd cs
    else if isGapChar c then double? (pause.blank c) cs
    else before (pause.text ++ [c]) (double? .none cs)

def startsQuoted : List Char → Bool
  | c :: _ => c == '"' || c == '\''
  | [] => false

def quoted? : List Char → Option (String × List Char)
  | '"' :: cs => (double? .none cs).map fun r => (String.ofList r.1, r.2)
  | '\'' :: cs => (single? .none cs).map fun r => (String.ofList r.1, r.2)
  | _ => none

def sameLine (start stop : List Char) : Bool :=
  !(start.take (start.length - stop.length)).contains '\n'

end Subscriptions.Yaml
