import Subscriptions.Json.Basic
import Subscriptions.Text.Digits

namespace Subscriptions.Json

def isSpace (c : Char) : Bool := c == ' ' || c == '\n' || c == '\t' || c == '\r'

def skipSpace (cs : List Char) : List Char := cs.dropWhile isSpace

def digits? (cs : List Char) : Option (List Char × List Char) :=
  let ds := cs.takeWhile Char.isDigit
  if ds.isEmpty then none else some (ds, cs.dropWhile Char.isDigit)

/-- A zero, or digits that start with none. -/
def whole? : List Char → Option (List Char × List Char)
  | '0' :: cs => some (['0'], cs)
  | cs => digits? cs

/-- A full stop and digits, or nothing. -/
def fraction? : List Char → Option (List Char × List Char)
  | '.' :: cs => (digits? cs).map fun r => ('.' :: r.1, r.2)
  | cs => some ([], cs)

def sign : List Char → List Char × List Char
  | '+' :: cs => (['+'], cs)
  | '-' :: cs => (['-'], cs)
  | cs => ([], cs)

/-- An exponent, or nothing. -/
def exponent? : List Char → Option (List Char × List Char)
  | c :: cs =>
    if c == 'e' || c == 'E' then
      let (s, rest) := sign cs
      (digits? rest).map fun r => (c :: s ++ r.1, r.2)
    else some ([], c :: cs)
  | [] => some ([], [])

/-- A number without its sign. -/
def magnitude? (cs : List Char) : Option (List Char × List Char) := do
  let (w, rest) ← whole? cs
  let (f, rest) ← fraction? rest
  let (e, rest) ← exponent? rest
  return (w ++ f ++ e, rest)

def number? : List Char → Option (List Char × List Char)
  | '-' :: cs => (magnitude? cs).map fun r => ('-' :: r.1, r.2)
  | cs => magnitude? cs

/-- What a string is written with: characters, and escaped codes of which two may make one. -/
inductive Unit16
  | char (c : Char)
  | code (n : Nat)
deriving Repr, DecidableEq, Inhabited

def escaped? : Char → Option Char
  | '"' => some '"'
  | '\\' => some '\\'
  | '/' => some '/'
  | 'b' => some '\x08'
  | 'f' => some '\x0c'
  | 'n' => some '\n'
  | 'r' => some '\r'
  | 't' => some '\t'
  | _ => none

/-- The inside of a string up to its closing quote, and the text after the quote. -/
def units? : List Char → Option (List Unit16 × List Char)
  | [] => none
  | '"' :: rest => some ([], rest)
  | '\\' :: 'u' :: a :: b :: c :: d :: rest => do
    let n ← Text.number? 16 [a, b, c, d]
    let (us, rest) ← units? rest
    return (.code n :: us, rest)
  | '\\' :: c :: rest => do
    let e ← escaped? c
    let (us, rest) ← units? rest
    return (.char e :: us, rest)
  | c :: rest =>
    if c.toNat < 0x20 then none
    else (units? rest).map fun r => (.char c :: r.1, r.2)

def isLeading (n : Nat) : Bool := 0xD800 ≤ n && n < 0xDC00

def isTrailing (n : Nat) : Bool := 0xDC00 ≤ n && n < 0xE000

/-- The characters that the parts of a string make. A leading half without its trailing half, and
a trailing half on its own, make none. -/
def ofUnits? : List Unit16 → Option (List Char)
  | [] => some []
  | .char c :: us => (ofUnits? us).map (c :: ·)
  | .code n :: us =>
    if isLeading n then
      match us with
      | .code m :: us =>
        if isTrailing m then
          (ofUnits? us).map (Char.ofNat (0x10000 + (n - 0xD800) * 0x400 + (m - 0xDC00)) :: ·)
        else none
      | _ => none
    else if isTrailing n then none
    else (ofUnits? us).map (Char.ofNat n :: ·)

/-- A string behind its opening quote. Its text is missing if it holds half a character. -/
def string? (cs : List Char) : Option (Option String × List Char) :=
  (units? cs).map fun r => ((ofUnits? r.1).map String.ofList, r.2)

def ofText : Option String → Json
  | some s => .string s
  | none => .unreadable

def ofFields (fields : List (Option String × Json)) : Json :=
  match fields.mapM fun f => f.1.map fun name => (name, f.2) with
  | some fields => .object fields
  | none => .unreadable

def afterWord? : List Char → List Char → Option (List Char)
  | [], cs => some cs
  | w :: ws, c :: cs => if w == c then afterWord? ws cs else none
  | _ :: _, [] => none

def scalar? (cs : List Char) : Option (Json × List Char) :=
  match cs with
  | '"' :: rest => (string? rest).map fun r => (ofText r.1, r.2)
  | 'n' :: _ => (afterWord? "null".toList cs).map fun rest => (.null, rest)
  | 't' :: _ => (afterWord? "true".toList cs).map fun rest => (.bool true, rest)
  | 'f' :: _ => (afterWord? "false".toList cs).map fun rest => (.bool false, rest)
  | _ => (number? cs).map fun r => (.number (String.ofList r.1), r.2)

mutual

def value? : Nat → List Char → Option (Json × List Char)
  | 0, _ => none
  | fuel + 1, cs =>
    match skipSpace cs with
    | '[' :: rest =>
      match skipSpace rest with
      | ']' :: rest => some (.array [], rest)
      | rest => (items? fuel rest).map fun r => (.array r.1, r.2)
    | '{' :: rest =>
      match skipSpace rest with
      | '}' :: rest => some (.object [], rest)
      | rest => (fields? fuel rest).map fun r => (ofFields r.1, r.2)
    | cs => scalar? cs

/-- The items of an array, one at least, and its closing bracket. -/
def items? : Nat → List Char → Option (List Json × List Char)
  | 0, _ => none
  | fuel + 1, cs => do
    let (item, rest) ← value? fuel cs
    match skipSpace rest with
    | ',' :: rest =>
      let (items, rest) ← items? fuel rest
      return (item :: items, rest)
    | ']' :: rest => return ([item], rest)
    | _ => none

/-- The fields of an object, one at least, and its closing brace. -/
def fields? : Nat → List Char → Option (List (Option String × Json) × List Char)
  | 0, _ => none
  | fuel + 1, cs =>
    match skipSpace cs with
    | '"' :: rest => do
      let (name, rest) ← string? rest
      match skipSpace rest with
      | ':' :: rest =>
        let (value, rest) ← value? fuel rest
        match skipSpace rest with
        | ',' :: rest =>
          let (fields, rest) ← fields? fuel rest
          return ((name, value) :: fields, rest)
        | '}' :: rest => return ([(name, value)], rest)
        | _ => none
      | _ => none
    | _ => none

end

/-- Each character starts one value and one item at most. -/
def fuelFor (cs : List Char) : Nat := 2 * cs.length + 2

def ofText? (text : String) : Option Json := do
  let cs := text.toList
  let (value, rest) ← value? (fuelFor cs) cs
  if (skipSpace rest).isEmpty then some value else none

end Subscriptions.Json
