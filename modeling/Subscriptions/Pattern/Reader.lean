import Subscriptions.Pattern.Expression

namespace Subscriptions.Pattern

/-- How the characters of an expression are read. -/
structure Flags where
  ignoreCase : Bool := false
  multiLine : Bool := false
  dotNewline : Bool := false
deriving Repr, DecidableEq, Inhabited

/-- The set, closed under case where case is ignored. -/
def Flags.close (f : Flags) (set : CharSet) : CharSet :=
  if f.ignoreCase then .folded set else set

/-- What a backslash and the characters after it stand for. -/
inductive Escape
  | char (c : Char)
  | set (s : CharSet)
  | boundary (b : Boundary)
deriving Repr, DecidableEq, Inhabited

/-- Characters with a meaning of their own, somewhere. -/
def isMeta (c : Char) : Bool := "\\.+*?()|[]\x7b\x7d^$#&-~".toList.contains c

/-- A character that stands for itself after a backslash. -/
def isEscapable (c : Char) : Bool :=
  isMeta c || (c.toNat < 0x80 && !c.isAlphanum && c != '<' && c != '>')

def hexDigit? (c : Char) : Option Nat :=
  if '0' ≤ c && c ≤ '9' then some (c.toNat - '0'.toNat)
  else if 'a' ≤ c && c ≤ 'f' then some (c.toNat - 'a'.toNat + 10)
  else if 'A' ≤ c && c ≤ 'F' then some (c.toNat - 'A'.toNat + 10)
  else none

/-- The number that hexadecimal digits write; there must be some. -/
def hexNumber? (digits : List Char) : Option Nat :=
  if digits.isEmpty then none
  else (digits.mapM hexDigit?).map (·.foldl (fun n d => 16 * n + d) 0)

/-- The character of a code point, unless it is a surrogate or too large. -/
def charOf? (n : Nat) : Option Char :=
  if n.isValidChar then some (Char.ofNat n) else none

def hexEscape? (digits : Nat) : List Char → Option (Char × List Char)
  | '{' :: cs => do
    let inside := cs.takeWhile (· != '}')
    let rest ← (cs.drop inside.length).tail?
    return (← charOf? (← hexNumber? inside), rest)
  | cs => do
    let front := cs.take digits
    if front.length < digits then none
    else return (← charOf? (← hexNumber? front), cs.drop digits)

/-- Reads what follows a backslash. Back-references and unknown letters are refused. -/
def escape? : List Char → Option (Escape × List Char)
  | [] => none
  | 'x' :: cs => (hexEscape? 2 cs).map fun r => (.char r.1, r.2)
  | 'u' :: cs => (hexEscape? 4 cs).map fun r => (.char r.1, r.2)
  | 'U' :: cs => (hexEscape? 8 cs).map fun r => (.char r.1, r.2)
  | c :: cs =>
    match c with
    | 'd' => some (.set .decimal, cs)
    | 'D' => some (.set (.complement .decimal), cs)
    | 's' => some (.set .blank, cs)
    | 'S' => some (.set (.complement .blank), cs)
    | 'w' => some (.set .word, cs)
    | 'W' => some (.set (.complement .word), cs)
    | 'a' => some (.char '\x07', cs)
    | 'f' => some (.char '\x0c', cs)
    | 't' => some (.char '\t', cs)
    | 'n' => some (.char '\n', cs)
    | 'r' => some (.char '\r', cs)
    | 'v' => some (.char '\x0b', cs)
    | 'A' => some (.boundary .textStart, cs)
    | 'z' => some (.boundary .textEnd, cs)
    | 'b' => some (.boundary .word, cs)
    | 'B' => some (.boundary .notWord, cs)
    | '<' => some (.boundary .wordStart, cs)
    | '>' => some (.boundary .wordEnd, cs)
    | _ => if isEscapable c then some (.char c, cs) else none

/-- How two parts of a class are joined; plain neighbours are united. -/
inductive SetJoin
  | intersection
  | difference
  | symmetric
deriving Repr, DecidableEq, Inhabited

def SetJoin.join : SetJoin → CharSet → CharSet → CharSet
  | .intersection, a, b => .intersection a b
  | .difference, a, b => .difference a b
  | .symmetric, a, b => .union (.difference a b) (.difference b a)

/-- A class as far as it is read: the part before the last join, and the members after it. -/
structure OpenClass where
  negated : Bool
  left : Option (CharSet × SetJoin)
  members : CharSet
deriving Repr, DecidableEq, Inhabited

namespace OpenClass

def add (k : OpenClass) (s : CharSet) : OpenClass :=
  { k with members := if k.members == .empty then s else .union k.members s }

def value (f : Flags) (k : OpenClass) : CharSet :=
  match k.left with
  | none => k.members
  | some (a, j) => j.join (f.close a) (f.close k.members)

def joinWith (f : Flags) (j : SetJoin) (k : OpenClass) : OpenClass :=
  { k with left := some (k.value f, j), members := .empty }

def close (f : Flags) (k : OpenClass) : CharSet :=
  let s := f.close (k.value f)
  if k.negated then .complement s else s

end OpenClass

/-- The start of a class after its bracket: a caret negates it, and hyphens, or else a closing
bracket, stand for themselves in front. -/
def openClass (cs : List Char) : OpenClass × List Char :=
  let (negated, cs) := match cs with
    | '^' :: r => (true, r)
    | _ => (false, cs)
  let hyphens := cs.takeWhile (· == '-')
  let rest := cs.drop hyphens.length
  if !hyphens.isEmpty then (⟨negated, none, .single '-'⟩, rest)
  else
    match rest with
    | ']' :: r => (⟨negated, none, .single ']'⟩, r)
    | _ => (⟨negated, none, .empty⟩, rest)

def namedClass? (cs : List Char) : Option (CharSet × List Char) :=
  let (negated, cs) := match cs with
    | '^' :: r => (true, r)
    | _ => (false, cs)
  let name := cs.takeWhile (· != ':')
  match cs.drop name.length, CharSet.named? (String.ofList name) with
  | ':' :: ']' :: rest, some s => some (if negated then .complement s else s, rest)
  | _, _ => none

/-- One member of a class. -/
inductive Member
  | char (c : Char)
  | set (s : CharSet)
deriving Repr, DecidableEq, Inhabited

def Member.toSet : Member → CharSet
  | .char c => .single c
  | .set s => s

def member? : List Char → Option (Member × List Char)
  | [] => none
  | '\\' :: cs =>
    match escape? cs with
    | some (.char c, rest) => some (.char c, rest)
    | some (.set s, rest) => some (.set s, rest)
    | _ => none
  | c :: cs => some (.char c, cs)

/-- A member or a range of characters. A hyphen before a bracket or another hyphen makes none. -/
def memberRange? (cs : List Char) : Option (CharSet × List Char) := do
  let (first, rest) ← member? cs
  match rest with
  | [] => none
  | '-' :: ']' :: _ | '-' :: '-' :: _ => return (first.toSet, rest)
  | '-' :: more =>
    let (last, rest) ← member? more
    match first, last with
    | .char a, .char b => if a.toNat ≤ b.toNat then some (.range a b, rest) else none
    | _, _ => none
  | _ => return (first.toSet, rest)

/-- Reads classes inside one another up to the bracket that closes the outermost one. -/
def class? (f : Flags) : Nat → List OpenClass → List Char → Option (CharSet × List Char)
  | 0, _, _ => none
  | _, [], _ => none
  | _, _, [] => none
  | fuel + 1, k :: outer, '[' :: cs =>
    match cs with
    | ':' :: named =>
      match namedClass? named with
      | some (s, rest) => class? f fuel (k.add s :: outer) rest
      | none => let o := openClass cs; class? f fuel (o.1 :: k :: outer) o.2
    | _ => let o := openClass cs; class? f fuel (o.1 :: k :: outer) o.2
  | fuel + 1, k :: outer, ']' :: cs =>
    match outer with
    | [] => some (k.close f, cs)
    | l :: ls => class? f fuel (l.add (k.close f) :: ls) cs
  | fuel + 1, k :: outer, '&' :: '&' :: cs => class? f fuel (k.joinWith f .intersection :: outer) cs
  | fuel + 1, k :: outer, '-' :: '-' :: cs => class? f fuel (k.joinWith f .difference :: outer) cs
  | fuel + 1, k :: outer, '~' :: '~' :: cs => class? f fuel (k.joinWith f .symmetric :: outer) cs
  | fuel + 1, k :: outer, cs => do
    let (s, rest) ← memberRange? cs
    class? f fuel (k.add s :: outer) rest

def skipBlanks (cs : List Char) : List Char := cs.dropWhile Text.isBlank

/-- A decimal number of 32 bits with blanks around it. -/
def count? (cs : List Char) : Option (Nat × List Char) :=
  let cs := skipBlanks cs
  let digits := cs.takeWhile Char.isDigit
  let n := digits.foldl (fun n d => 10 * n + (d.toNat - '0'.toNat)) 0
  if digits.isEmpty || UInt32.size ≤ n then none
  else some (n, skipBlanks (cs.drop digits.length))

def bounds? (cs : List Char) : Option ((Nat × Option Nat) × List Char) := do
  let (low, rest) ← count? cs
  match rest with
  | '}' :: rest => return ((low, some low), rest)
  | ',' :: '}' :: rest => return ((low, none), rest)
  | ',' :: more =>
    let (high, rest) ← count? more
    match rest with
    | '}' :: rest => if low ≤ high then some ((low, some high), rest) else none
    | _ => none
  | _ => none

/-- A repetition may be marked as lazy, which changes no answer. -/
def dropLazy : List Char → List Char
  | '?' :: cs => cs
  | cs => cs

def Flags.switch (f : Flags) (on : Bool) : Char → Option Flags
  | 'i' => some { f with ignoreCase := on }
  | 'm' => some { f with multiLine := on }
  | 's' => some { f with dotNewline := on }
  | 'U' => some f
  | 'u' => if on then some f else none
  | _ => none

/-- Flag letters up to a colon or a closing parenthesis. No letter comes twice, and some letter
follows the hyphen that turns the letters after it off. -/
def flags? (f : Flags) (on : Bool) (seen : List Char) : List Char → Option (Flags × List Char)
  | [] => none
  | c :: cs =>
    if c == ':' || c == ')' then
      if seen.head? == some '-' then none else some (f, c :: cs)
    else if seen.contains c then none
    else if c == '-' then flags? f false (c :: seen) cs
    else (f.switch on c).bind fun g => flags? g on (c :: seen) cs

def groupName? (cs : List Char) : Option (String × List Char) :=
  let name := cs.takeWhile (· != '>')
  match name, cs.drop name.length with
  | c :: later, '>' :: rest =>
    if (c == '_' || Text.isAlphabetic c) &&
        later.all (fun d => Text.isAlphanumeric d || ['_', '.', '[', ']'].contains d) then
      some (String.ofList name, rest)
    else none
  | _, _ => none

/-- What an opening parenthesis starts. -/
inductive Opening
  | group (flags : Flags)
  | named (name : String)
  /-- Switches flags for the rest of the enclosing group. -/
  | switch (flags : Flags)
deriving Repr, DecidableEq, Inhabited

/-- Reads what follows an opening parenthesis. Look-around is refused. -/
def opening? (f : Flags) : List Char → Option (Opening × List Char)
  | '?' :: 'P' :: '<' :: cs => (groupName? cs).map fun r => (.named r.1, r.2)
  | '?' :: '<' :: cs => (groupName? cs).map fun r => (.named r.1, r.2)
  | '?' :: ')' :: _ => none
  | '?' :: cs =>
    match flags? f true [] cs with
    | some (g, ':' :: rest) => some (.group g, rest)
    | some (g, ')' :: rest) => some (.switch g, rest)
    | _ => none
  | cs => some (.group f, cs)

/-- An alternation as far as it is read, the latest first. What only switches flags is no item
that can be repeated. -/
structure OpenGroup where
  /-- The flags of the enclosing group, which come back after this one. -/
  outerFlags : Flags
  done : List Expression
  items : List (Option Expression)
deriving Repr, DecidableEq, Inhabited

namespace OpenGroup

def push (g : OpenGroup) (e : Expression) : OpenGroup := { g with items := some e :: g.items }

def current (g : OpenGroup) : Expression := .concat (g.items.reverse.filterMap id)

def nextAlternative (g : OpenGroup) : OpenGroup := { g with done := g.current :: g.done, items := [] }

def value (g : OpenGroup) : Expression :=
  match (g.current :: g.done).reverse with
  | [] => .empty
  | e :: es => .alternatives e es

def repeatLast? (g : OpenGroup) (low : Nat) (high : Option Nat) : Option OpenGroup :=
  match g.items with
  | some e :: items => some { g with items := some (e.repeated low high) :: items }
  | _ => none

end OpenGroup

/-- The boundaries that carets and dollars stand for. -/
def Flags.lineStart (f : Flags) : Boundary := if f.multiLine then .lineStart else .textStart

def Flags.lineEnd (f : Flags) : Boundary := if f.multiLine then .lineEnd else .textEnd

def Flags.dot (f : Flags) : CharSet := if f.dotNewline then .complement .empty else .notNewline

def Escape.toExpression (f : Flags) : Escape → Expression
  | .char c => .char (f.close (.single c))
  | .set s => .char s
  | .boundary b => .boundary b

/-- Reads an expression with the groups that are open, the innermost first. -/
def read? : Nat → Flags → List String → List OpenGroup → List Char → Option Expression
  | 0, _, _, _, _ => none
  | _, _, _, [], _ => none
  | _, _, _, [g], [] => some g.value
  | _, _, _, _ :: _ :: _, [] => none
  | fuel + 1, f, names, g :: outer, c :: cs =>
    let push (e : Expression) (rest : List Char) := read? fuel f names (g.push e :: outer) rest
    let repeated (low : Nat) (high : Option Nat) (rest : List Char) :=
      (g.repeatLast? low high).bind fun g => read? fuel f names (g :: outer) (dropLazy rest)
    match c with
    | '(' =>
      match opening? f cs with
      | some (.group h, rest) => read? fuel h names (⟨f, [], []⟩ :: g :: outer) rest
      | some (.named name, rest) =>
        if names.contains name then none
        else read? fuel f (name :: names) (⟨f, [], []⟩ :: g :: outer) rest
      | some (.switch h, rest) =>
        read? fuel h names ({ g with items := none :: g.items } :: outer) rest
      | none => none
    | ')' =>
      match outer with
      | [] => none
      | h :: others => read? fuel g.outerFlags names (h.push g.value :: others) cs
    | '|' => read? fuel f names (g.nextAlternative :: outer) cs
    | '*' => repeated 0 none cs
    | '+' => repeated 1 none cs
    | '?' => repeated 0 (some 1) cs
    | '{' => (bounds? cs).bind fun r => repeated r.1.1 r.1.2 r.2
    | '[' =>
      let o := openClass cs
      (class? f (cs.length + 1) [o.1] o.2).bind fun r => push (.char r.1) r.2
    | '.' => push (.char f.dot) cs
    | '^' => push (.boundary f.lineStart) cs
    | '$' => push (.boundary f.lineEnd) cs
    | '\\' => (escape? cs).bind fun r => push (r.1.toExpression f) r.2
    | _ => push (.char (f.close (.single c))) cs

/-- The expression that a text writes, if it writes one. Every item takes a character, so the fuel
lasts. -/
def Expression.ofText? (text : String) : Option Expression :=
  read? (text.toList.length + 1) {} [] [⟨{}, [], []⟩] text.toList

end Subscriptions.Pattern

namespace Subscriptions

/-- A compiled pattern: the text that it was read from, and the names that it is found in. -/
structure NamePattern where
  text : String
  found : String → Bool
deriving Inhabited

/-- What compiles patterns. It may refuse a text, and the marker of disable comments. -/
structure PatternCompiler where
  found? : String → Option (String → Bool)
  takesMarker : String → Bool

namespace PatternCompiler

/-- Reads regular expressions. In a marker no character has a meaning of its own. -/
def standard : PatternCompiler where
  found? text := (Pattern.Expression.ofText? text).map (·.found)
  takesMarker _ := true

variable (compiler : PatternCompiler)

def pattern? (text : String) : Option NamePattern := (compiler.found? text).map (⟨text, ·⟩)

/-- The patterns of a list of texts, or the first text that is none. -/
def patterns : List String → Except String (List NamePattern)
  | [] => .ok []
  | t :: ts =>
    match compiler.pattern? t with
    | none => .error t
    | some p => (patterns ts).map (p :: ·)

end PatternCompiler

namespace NamePattern

def ofTexts (texts : List String) : Except String (List NamePattern) :=
  PatternCompiler.standard.patterns texts

def anyFound (ps : List NamePattern) (name : String) : Bool := ps.any (·.found name)

end NamePattern

end Subscriptions
