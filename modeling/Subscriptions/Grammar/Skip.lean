import Subscriptions.Syntax.Token
import Subscriptions.Text.Trim

namespace Subscriptions.Grammar

/-- A token list cut in two: what is skipped, and the rest. -/
abbrev Split := List Token × List Token

def take (t : Token) (s : Split) : Split := (t :: s.1, s.2)

def openers : List String := ["(", "[", "\x7b"]

def closers : List String := [")", "]", "\x7d"]

/-- From an opening bracket through the bracket that closes it, or to the end. -/
def balanced : Nat → List Token → Split
  | _, [] => ([], [])
  | depth, t :: ts =>
    if t.isPunctOf openers then take t (balanced (depth + 1) ts)
    else if t.isPunctOf closers then
      if depth ≤ 1 then ([t], ts) else take t (balanced (depth - 1) ts)
    else take t (balanced depth ts)

/-- The rest of the innermost bracket or template substitution, its end left standing. -/
def enclosed : Nat → List Token → Split
  | _, [] => ([], [])
  | depth, t :: ts =>
    if t.isPunctOf openers || t.kind == .templateHead then take t (enclosed (depth + 1) ts)
    else if t.isPunctOf closers || t.kind == .templateTail then
      if depth == 0 then ([], t :: ts) else take t (enclosed (depth - 1) ts)
    else if t.kind == .templateMiddle && depth == 0 then ([], t :: ts)
    else take t (enclosed depth ts)

/-- Type arguments or type parameters from `<` through their `>`. Brackets inside, counted by
`inner`, are skipped as a whole; a stray closer or a semicolon ends the list early. Outside of the
brackets only the texts of the tokens are looked at, so that a template that breaks off right behind
a substitution ends the list as well. -/
def angles : Nat → Nat → List Token → Split
  | _, _, [] => ([], [])
  | inner + 1, depth, t :: ts =>
    if t.isPunctOf openers then take t (angles (inner + 2) depth ts)
    else if t.isPunctOf closers then take t (angles inner depth ts)
    else take t (angles (inner + 1) depth ts)
  | 0, depth, t :: ts =>
    if openers.contains t.text then take t (angles 1 depth ts)
    else if (";" :: closers).contains t.text then ([], t :: ts)
    else if t.text == "<" then take t (angles 0 (depth + 1) ts)
    else
      let closed := if t.text == ">" then 1 else if t.text == ">>" then 2
        else if t.text == ">>>" then 3 else 0
      if depth ≤ closed then ([t], ts) else take t (angles 0 (depth - closed) ts)

/-- Texts after which a type goes on in the next line. -/
def continuing : List String := [
  "|", "&", "=>", ",", ":", "<", ".", "?", "extends", "keyof", "typeof", "=", "(", "[", "\x7b"]

/-- Texts that continue a type from the line before. -/
def continued : List String := ["|", "&", "=>", ".", "?", "extends", "["]

/-- At bracket depth zero the type ends before this token. An opening brace that is the first
token of a type opens an object type even where it is a stop. -/
def endsType (stops : List String) (previous : Option Token) (t : Token) : Bool :=
  (t.isPunctOf stops && !(t.text == "\x7b" && previous.isNone)) ||
  (t.isWord && stops.contains t.text) ||
  match previous with
  | none => false
  | some p => t.newlineBefore && !continuing.contains p.text && !continued.contains t.text

/-- The tokens of a type: up to a stop or an unmatched closer at depth zero, or a line break that
cannot continue the type. -/
def typeTokens (stops : List String) : Option Token → Nat → List Token → Split
  | _, _, [] => ([], [])
  | previous, depth, t :: ts =>
    if depth == 0 && endsType stops previous t then ([], t :: ts)
    else if t.isPunctOf ("<" :: openers) then take t (typeTokens stops (some t) (depth + 1) ts)
    else
      let closed := if t.isPunctOf (">" :: closers) then 1 else if t.isPunct ">>" then 2
        else if t.isPunct ">>>" then 3 else 0
      if depth < closed then ([], t :: ts)
      else take t (typeTokens stops (some t) (depth - closed) ts)

def typeText (tokens : List Token) : Option String :=
  let text := Text.trim (textOfTokens tokens)
  if text.isEmpty then none else some text

/-- An import or export clause: up to its semicolon or module name, or to a line break after its
closing brace. `inner` counts open brackets; `previous` is the token before, `first` tells that
nothing is skipped yet. -/
def clauseTokens : Nat → Bool → Token → List Token → Split
  | _, _, _, [] => ([], [])
  | inner + 1, _, _, t :: ts =>
    if t.isPunctOf openers then take t (clauseTokens (inner + 2) false t ts)
    else if t.isPunctOf closers then take t (clauseTokens inner false t ts)
    else take t (clauseTokens (inner + 1) false t ts)
  | 0, first, previous, t :: ts =>
    if t.isPunct ";" then ([t], ts)
    else if !first && t.newlineBefore && previous.text == "\x7d" && !t.isTheWord "from" then
      ([], t :: ts)
    else if t.kind == .string then
      if ["from", "import", "export"].contains previous.text then
        match ts with
        | u :: us => if u.isPunct ";" then ([t, u], us) else ([t], ts)
        | [] => ([t], [])
      else take t (clauseTokens 0 false t ts)
    else if t.isPunct "\x7b" then take t (clauseTokens 1 false t ts)
    else take t (clauseTokens 0 false t ts)

def typeThenArrow : Nat → List Token → Bool
  | _, [] => false
  | depth, t :: ts =>
    if depth == 0 && t.isPunct "=>" then true
    else if t.isPunctOf ("<" :: openers) then typeThenArrow (depth + 1) ts
    else if t.isPunctOf (">" :: closers) then depth != 0 && typeThenArrow (depth - 1) ts
    else if depth == 0 && t.isPunctOf [";", ",", "="] then false
    else typeThenArrow depth ts

/-- The opening parenthesis in front starts the parameters of an arrow function. -/
def opensArrow (ts : List Token) : Bool :=
  match (balanced 0 ts).2 with
  | [] => false
  | t :: rest => t.isPunct "=>" || (t.isPunct ":" && typeThenArrow 0 rest)

/-- The tokens looked at when deciding what `<` opens. -/
def maxTypeArgumentTokens : Nat := 64

def typeArgumentPuncts : List String := [
  ",", ".", "[", "]", "|", "&", "\x7b", "\x7d", ":", "?", "=>", "(", ")"]

/-- From `<`, type arguments and then an opening parenthesis, within a number of tokens. -/
def typeArgumentsThenCall : Nat → Nat → List Token → Bool
  | 0, _, _ => false
  | _, _, [] => false
  | fuel + 1, depth, t :: ts =>
    let callNext := match ts with
      | [] => false
      | u :: _ => u.isPunct "("
    let close (k : Nat) := if depth == k then callNext
      else k < depth && typeArgumentsThenCall fuel (depth - k) ts
    if t.kind == .word || t.kind == .string || t.kind == .number then
      if depth == 0 then callNext else typeArgumentsThenCall fuel depth ts
    else if t.isPunct "<" then typeArgumentsThenCall fuel (depth + 1) ts
    else if t.isPunct ">" then close 1
    else if t.isPunct ">>" then close 2
    else if t.isPunct ">>>" then close 3
    else t.isPunctOf typeArgumentPuncts && depth != 0 && typeArgumentsThenCall fuel depth ts

end Subscriptions.Grammar
