import Subscriptions.Text.Classes
import Subscriptions.Source.Position
import Subscriptions.Syntax.Fault
import Subscriptions.Syntax.Token

namespace Subscriptions.Scanner

open Text

/-- Punctuators, longer ones before those they begin with. -/
def punctuators : List String := [
  ">>>=", "...", "===", "!==", "**=", "<<=", ">>=", ">>>", "&&=", "||=", "??=", "=>", "==",
  "!=", "<=", ">=", "&&", "||", "??", "?.", "++", "--", "+=", "-=", "*=", "/=", "%=", "&=",
  "|=", "^=", "**", "<<", ">>", "\x7b", "\x7d", "(", ")", "[", "]", ";", ",", "<", ">", "+", "-",
  "*", "/", "%", "&", "|", "^", "!", "~", "?", ":", "=", ".", "@"]

/-- Words after which a slash starts a regular expression. -/
def wordsBeforeRegex : List String := [
  "return", "typeof", "instanceof", "in", "of", "new", "delete", "void", "throw", "case",
  "do", "else", "yield", "await"]

def isWordStart (c : Char) : Bool := c == '_' || c == '$' || isAlphabetic c

def isWordPart (c : Char) : Bool := c == '_' || c == '$' || isAlphanumeric c

def isNumberPart (c : Char) : Bool := isAsciiAlphanumeric c || c == '_' || c == '.'

/-- Where the gap between two tokens stands. -/
inductive Gap
  | blank
  | lineComment
  /-- With the offset at which the comment starts and whether it has held a line feed. -/
  | blockComment (start : Nat) (newline : Bool)
deriving Repr, DecidableEq, Inhabited

/-- The gap before a token. -/
structure Trivia where
  taken : List Char
  rest : List Char
  newline : Bool
  /-- Where a block comment starts that is never closed. -/
  unclosed : Option Nat
deriving Repr, DecidableEq, Inhabited

namespace Trivia

def push (c : Char) (t : Trivia) : Trivia := { t with taken := c :: t.taken }

def breakLine (t : Trivia) : Trivia := { t with newline := true }

end Trivia

def skipTrivia : Gap → Nat → List Char → Trivia
  | .blank, pos, '/' :: '/' :: cs => ((skipTrivia .lineComment (pos + 2) cs).push '/').push '/'
  | .blank, pos, '/' :: '*' :: cs =>
    ((skipTrivia (.blockComment pos false) (pos + 2) cs).push '*').push '/'
  | .blank, pos, c :: cs =>
    if c == '\n' then ((skipTrivia .blank (pos + 1) cs).push c).breakLine
    else if isBlank c then (skipTrivia .blank (pos + c.utf8Size) cs).push c
    else ⟨[], c :: cs, false, none⟩
  | .lineComment, pos, c :: cs =>
    if c == '\n' then ((skipTrivia .blank (pos + 1) cs).push c).breakLine
    else (skipTrivia .lineComment (pos + c.utf8Size) cs).push c
  | .blockComment _ newline, pos, '*' :: '/' :: cs =>
    let t := ((skipTrivia .blank (pos + 2) cs).push '/').push '*'
    if newline then t.breakLine else t
  | .blockComment start newline, pos, c :: cs =>
    (skipTrivia (.blockComment start (newline || c == '\n')) (pos + c.utf8Size) cs).push c
  | .blockComment start _, _, [] => ⟨[], [], false, some start⟩
  | _, _, [] => ⟨[], [], false, none⟩

/-- How a literal ends. -/
inductive Ending
  | closed
  /-- At the start of a template substitution. -/
  | substitution
  | unclosed
deriving Repr, DecidableEq, Inhabited

/-- A text cut after a literal. -/
structure Cut where
  taken : List Char
  rest : List Char
  ending : Ending
deriving Repr, DecidableEq, Inhabited

def Cut.push (c : Char) (k : Cut) : Cut := { k with taken := c :: k.taken }

/-- A string after its opening quote: a backslash takes the next character with it, and a line
feed that is not so taken leaves the string unclosed. -/
def cutString (quote : Char) : List Char → Cut
  | '\\' :: c :: cs => ((cutString quote cs).push c).push '\\'
  | c :: cs =>
    if c == '\\' then (cutString quote cs).push c
    else if c == '\n' then ⟨[], c :: cs, .unclosed⟩
    else if c == quote then ⟨[c], cs, .closed⟩
    else (cutString quote cs).push c
  | [] => ⟨[], [], .unclosed⟩

/-- Template text after its opening quote or after the brace that ends a substitution. -/
def cutTemplate : List Char → Cut
  | '\\' :: c :: cs => ((cutTemplate cs).push c).push '\\'
  | '$' :: '{' :: cs => ⟨['$', '{'], cs, .substitution⟩
  | c :: cs => if c == '\x60' then ⟨[c], cs, .closed⟩ else (cutTemplate cs).push c
  | [] => ⟨[], [], .unclosed⟩

/-- A regular expression after its opening slash, with its flags. A slash inside a class does not
end it. -/
def cutRegex (inClass : Bool) : List Char → Cut
  | '\\' :: c :: cs => ((cutRegex inClass cs).push c).push '\\'
  | c :: cs =>
    if c == '\n' then ⟨[], c :: cs, .unclosed⟩
    else if c == '[' then (cutRegex true cs).push c
    else if c == ']' then (cutRegex false cs).push c
    else if c == '/' && !inClass then ⟨c :: cs.takeWhile isWordPart, cs.dropWhile isWordPart, .closed⟩
    else (cutRegex inClass cs).push c
  | [] => ⟨[], [], .unclosed⟩

/-- The characters after a text that starts with the given ones. -/
def afterStart? : List Char → List Char → Option (List Char)
  | [], cs => some cs
  | _ :: _, [] => none
  | p :: ps, c :: cs => if p == c then afterStart? ps cs else none

def punctuator? (cs : List Char) : Option (List Char × List Char) :=
  punctuators.findSome? fun p => (afterStart? p.toList cs).map fun rest => (p.toList, rest)

/-- A token without its place. -/
structure Lexeme where
  kind : TokenKind
  taken : List Char
  rest : List Char
  /-- Open substitutions after the token, innermost first, each with its count of open braces. -/
  braces : List Nat
  /-- What is wrong with the token, given its place. -/
  fault : Option (Span → Fault)

/-- The first slash after the previous token starts a regular expression, not a division. -/
def regexAllowed : Option Token → Bool
  | none => true
  | some t =>
    match t.kind with
    | .word => wordsBeforeRegex.contains t.text
    | .number | .string | .template | .templateTail | .regex => false
    | .templateHead | .templateMiddle | .endOfFile => true
    | .punct => !([")", "]", "\x7d", "++", "--"].contains t.text)

def punctLexeme (braces : List Nat) (c : Char) (cs : List Char) : Lexeme :=
  match punctuator? (c :: cs) with
  | some (taken, rest) => ⟨.punct, taken, rest, braces, none⟩
  | none => ⟨.punct, [c], cs, braces, some (.unexpectedChar c)⟩

def literalLexeme (kind : TokenKind) (braces : List Nat) (what : Unclosed) (c : Char) (k : Cut) :
    Lexeme :=
  ⟨kind, c :: k.taken, k.rest, braces,
    if k.ending == .unclosed then some (.unterminated what) else none⟩

def templateLexeme (braces : List Nat) (c : Char) (cs : List Char) : Lexeme :=
  let k := cutTemplate cs
  if k.ending == .substitution then literalLexeme .templateHead (0 :: braces) .template c k
  else literalLexeme .template braces .template c k

/-- A template from the brace that ends its innermost substitution. -/
def templateRestLexeme (outer : List Nat) (c : Char) (cs : List Char) : Lexeme :=
  let k := cutTemplate cs
  if k.ending == .substitution then literalLexeme .templateMiddle (0 :: outer) .template c k
  else literalLexeme .templateTail outer .template c k

/-- An opening brace counts in the innermost substitution. -/
def openBrace : List Nat → List Nat
  | [] => []
  | n :: ns => (n + 1) :: ns

def closeBrace : List Nat → List Nat
  | [] => []
  | n :: ns => (n - 1) :: ns

def startsNumber : List Char → Bool
  | '.' :: c :: _ => c.isDigit
  | c :: _ => c.isDigit
  | [] => false

/-- The token that starts with `c`, which is no trivia. -/
def lexeme (braces : List Nat) (previous : Option Token) (c : Char) (cs : List Char) : Lexeme :=
  if isWordStart c || c == '#' then
    ⟨.word, c :: cs.takeWhile isWordPart, cs.dropWhile isWordPart, braces, none⟩
  else if startsNumber (c :: cs) then
    ⟨.number, c :: cs.takeWhile isNumberPart, cs.dropWhile isNumberPart, braces, none⟩
  else if c == '"' || c == '\'' then literalLexeme .string braces .string c (cutString c cs)
  else if c == '\x60' then templateLexeme braces c cs
  else if c == '{' then punctLexeme (openBrace braces) c cs
  else if c == '}' then
    match braces with
    | 0 :: outer => templateRestLexeme outer c cs
    | _ => punctLexeme (closeBrace braces) c cs
  else if c == '/' && regexAllowed previous then
    literalLexeme .regex braces .regex c (cutRegex false cs)
  else punctLexeme braces c cs

/-- A scanned source: its tokens, the last of which is the end of the file, and the faults in
them in source order. -/
structure Scan where
  tokens : List Token
  faults : List Fault
deriving Repr, DecidableEq, Inhabited

/-- The tokens of a text from an offset on, one for each unit of fuel at most. -/
def scanFrom : Nat → List Nat → Option Token → Nat → List Char → Scan
  | 0, _, _, _, _ => ⟨[], []⟩
  | fuel + 1, braces, previous, pos, cs =>
    let gap := skipTrivia .blank pos cs
    let start := pos + byteLength gap.taken
    let open? := gap.unclosed.toList.map fun s => Fault.unterminated .blockComment ⟨s, start⟩
    match gap.rest with
    | [] => ⟨[⟨.endOfFile, String.ofList gap.taken, "", ⟨start, start⟩, gap.newline⟩], open?⟩
    | c :: rest =>
      let l := lexeme braces previous c rest
      let span : Span := ⟨start, start + byteLength l.taken⟩
      let token : Token :=
        ⟨l.kind, String.ofList gap.taken, String.ofList l.taken, span, gap.newline⟩
      let later := scanFrom fuel l.braces (some token) span.stop l.rest
      ⟨token :: later.tokens, open? ++ (l.fault.map (· span)).toList ++ later.faults⟩

end Scanner

/-- The tokens of a source. Every token takes a character, so the fuel lasts. -/
def tokenize (source : List Char) : Scanner.Scan :=
  Scanner.scanFrom (source.length + 1) [] none 0 source

end Subscriptions
