import Subscriptions.Syntax.Scanner
import Subscriptions.Text.Trim

namespace Subscriptions.TypeName

open Text

/-- The pieces of a text at the characters that satisfy `p`, which are left out. -/
def pieces (p : Char → Bool) : List Char → List (List Char)
  | [] => [[]]
  | c :: cs =>
    if p c then [] :: pieces p cs
    else
      match pieces p cs with
      | [] => [[c]]
      | w :: ws => (c :: w) :: ws

def lastSegment (dotted : List Char) : Option (List Char) :=
  let segment := strip isBlank ((pieces (· == '.') dotted).getLastD [])
  if !segment.isEmpty && segment.all Scanner.isWordPart then some segment else none

/-- The pieces of a type at a separator outside any brackets, or nothing if there is an arrow
outside brackets, which makes it a function type. -/
def topLevelPieces (separator : Char) : Int → List Char → Option (List (List Char))
  | _, [] => some [[]]
  | depth, '=' :: '>' :: cs =>
    if depth == 0 then none
    else (topLevelPieces separator depth cs).map (prepend ['=', '>'])
  | depth, c :: cs =>
    if ['(', '[', '{', '<'].contains c then
      (topLevelPieces separator (depth + 1) cs).map (prepend [c])
    else if [')', ']', '}', '>'].contains c then
      (topLevelPieces separator (depth - 1) cs).map (prepend [c])
    else if c == separator && depth == 0 then (topLevelPieces separator depth cs).map ([] :: ·)
    else (topLevelPieces separator depth cs).map (prepend [c])
where
  /-- Characters before the first piece. -/
  prepend (front : List Char) : List (List Char) → List (List Char)
    | [] => [front]
    | w :: ws => (front ++ w) :: ws

/-- The text after the given characters, if it starts with them. -/
def withoutStart (start cs : List Char) : List Char := (Scanner.afterStart? start cs).getD cs

def inParentheses? : List Char → Option (List Char)
  | '(' :: cs => if cs.getLast? == some ')' then some cs.dropLast else none
  | _ => none

/-- A type without blanks around it and without a leading `readonly`. -/
def bare (text : List Char) : List Char :=
  strip isBlank (withoutStart "readonly ".toList (strip isBlank text))

/-- Union members that say nothing about the type: blanks, `null` and `undefined`. -/
def isNullish (member : List Char) : Bool :=
  member.isEmpty || member == "null".toList || member == "undefined".toList

/-- What the text of a type asks for. -/
inductive Form
  | noSymbol
  /-- The symbol is that of another type. -/
  | inner (text : List Char)
  | symbol (name : List Char)
deriving Repr, DecidableEq, Inhabited

def unionForm (members : List (List Char)) : Form :=
  match (members.map (strip isBlank)).filter (!isNullish ·) with
  | [single] => .inner single
  | _ => .noSymbol

/-- A dotted name before any type arguments. A name that starts with a digit is none. -/
def namedForm (text : List Char) : Form :=
  let head := strip isBlank (text.takeWhile (· != '<'))
  if head.any isBlank then .noSymbol
  else
    match lastSegment head with
    | some (c :: cs) => if c.isDigit then .noSymbol else .symbol (c :: cs)
    | _ => .noSymbol

/-- The form of a type that is neither a union nor an intersection. -/
def simpleForm (text : List Char) : Form :=
  if text.reverse.take 2 == "][".toList then .symbol "Array".toList
  else
    match inParentheses? text with
    | some inner => .inner inner
    | none => namedForm text

/-- The form of a type: unions bind loosest, then intersections, arrays and parentheses. -/
def form (text : List Char) : Form :=
  let text := bare text
  if text.isEmpty then .noSymbol
  else
    match topLevelPieces '|' 0 text with
    | none => .noSymbol
    | some members =>
      if 1 < members.length then unionForm members
      else
        match topLevelPieces '&' 0 text with
        | some [_] => simpleForm text
        | _ => .noSymbol

/-- The symbol of a type, one unit of fuel for each type inside another. -/
def symbolIn : Nat → List Char → Option (List Char)
  | 0, _ => none
  | fuel + 1, text =>
    match form text with
    | .noSymbol => none
    | .inner text => symbolIn fuel text
    | .symbol name => some name

/-- The name of the one symbol that a type stands for. A type inside another is shorter than it,
so the fuel lasts. -/
def symbol? (text : String) : Option String :=
  (symbolIn (text.toList.length + 1) text.toList).map String.ofList

def lastSegment? (dotted : String) : Option String :=
  (lastSegment dotted.toList).map String.ofList

end Subscriptions.TypeName
