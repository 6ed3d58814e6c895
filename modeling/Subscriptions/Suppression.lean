import Subscriptions.Syntax.Scanner
import Subscriptions.Table
import Subscriptions.Text.Lines

namespace Subscriptions

open Text

/-- What a disable comment applies to. -/
inductive Scope
  | nextLine
  | line
  | file
deriving Repr, DecidableEq, Inhabited

namespace Scope

def all : List Scope := [.nextLine, .line, .file]

def name : Scope → String
  | .nextLine => "next-line"
  | .line => "line"
  | .file => "file"

/-- The line that a comment on a line applies to; zero stands for the file. -/
def target : Scope → Nat → Nat
  | .nextLine, n => n + 1
  | .line, n => n
  | .file, _ => 0

end Scope

/-- A disable comment: what it applies to, the rules it names and why. -/
structure Directive where
  scope : Scope
  ruleIds : List String
  reason : Option String
deriving Repr, DecidableEq, Inhabited

namespace Directive

def isIdChar (c : Char) : Bool := isWordChar c || c == '-'

def skipBlanks (cs : List Char) : List Char := cs.dropWhile isBlank

/-- The text after one blank at least and all that follow it. -/
def afterBlanks? : List Char → Option (List Char)
  | c :: cs => if isBlank c then some (skipBlanks cs) else none
  | [] => none

def ruleId? (cs : List Char) : Option (String × List Char) :=
  let word := cs.takeWhile isIdChar
  if word.isEmpty then none else some (String.ofList word, cs.dropWhile isIdChar)

/-- Rule ids separated by commas, with blanks around the commas. -/
def ruleIds? : Nat → List Char → Option (List String × List Char)
  | 0, _ => none
  | fuel + 1, cs =>
    match ruleId? cs with
    | none => none
    | some (id, rest) =>
      match skipBlanks rest with
      | ',' :: more =>
        match ruleIds? fuel (skipBlanks more) with
        | some (ids, rest) => some (id :: ids, rest)
        | none => some ([id], rest)
      | _ => some ([id], rest)

def afterEnd? (cs : List Char) : Option (List Char) :=
  match skipBlanks cs with
  | [] => some []
  | '*' :: '/' :: rest => some rest
  | _ => none

/-- The shortest text that the end of a comment follows, of one character at least. -/
def reason? : List Char → Option (List Char × List Char)
  | [] => none
  | c :: cs =>
    match afterEnd? cs with
    | some rest => some ([c], rest)
    | none => (reason? cs).map fun r => (c :: r.1, r.2)

/-- A reason after its mark. Blanks alone are an empty reason. -/
def reasonAfter? (cs : List Char) : Option (List Char × List Char) :=
  match skipBlanks cs with
  | [] => if cs.isEmpty then none else some ([], [])
  | rest => reason? rest

/-- A reason behind a colon, or between blanks behind two hyphens. -/
def markedReason? (cs : List Char) : Option (List Char × List Char) :=
  match skipBlanks cs with
  | ':' :: rest => reasonAfter? rest
  | '-' :: '-' :: c :: rest =>
    if (afterBlanks? cs).isSome && isBlank c then reasonAfter? rest else none
  | _ => none

/-- What the directive applies to, and the text after it. -/
def scope? (cs : List Char) : Option (Scope × List Char) :=
  Scope.all.findSome? fun s => (Scanner.afterStart? s.name.toList cs).map fun rest => (s, rest)

def inComment? (marker : List Char) (cs : List Char) : Option (Directive × List Char) := do
  let rest ← markerAfterBlanks? cs
  let (scope, rest) ← scope? rest
  let rest ← afterBlanks? rest
  let (ids, rest) ← ruleIds? (rest.length + 1) rest
  match markedReason? rest with
  | some (reason, rest) => return (⟨scope, ids, some (String.ofList reason)⟩, rest)
  | none => return (⟨scope, ids, none⟩, ← afterEnd? rest)
where
  /-- The text after blanks, the marker and a hyphen. The marker may start with blanks. -/
  markerAfterBlanks? : List Char → Option (List Char)
    | [] => Scanner.afterStart? (marker ++ ['-']) []
    | c :: cs =>
      match Scanner.afterStart? (marker ++ ['-']) (c :: cs) with
      | some rest => some rest
      | none => if isBlank c then markerAfterBlanks? cs else none

def atStart? (marker : List Char) : List Char → Option (Directive × List Char)
  | '/' :: '/' :: cs => inComment? marker cs
  | '/' :: '*' :: cs => inComment? marker cs
  | _ => none

/-- The directives of a line from left to right, each after the end of the one before. -/
def inLine (marker : List Char) : Nat → List Char → List Directive
  | 0, _ => []
  | _, [] => []
  | fuel + 1, c :: cs =>
    match atStart? marker (c :: cs) with
    | some (d, rest) => d :: inLine marker fuel rest
    | none => inLine marker fuel cs

end Directive

/-- A rule disabled on a line, or in the file if the line is zero. -/
structure Disable where
  line : Nat
  ruleId : String
  reason : Option String
deriving Repr, DecidableEq, Inhabited

/-- The disables found in one file: the lines on which a rule is disabled, the rules disabled in the
file, and the reasons for a rule by line. -/
structure Suppressions where
  ruleLines : List (String × List Nat) := []
  fileRules : List String := []
  reasons : List (String × List (Nat × String)) := []
deriving Repr, DecidableEq, Inhabited

namespace Suppressions

def defaultMarker : String := "subtrack-disable"

def allRules : String := "all"

def fileLevel : Nat := 0

def ofDirective (line : Nat) (d : Directive) : List Disable :=
  d.ruleIds.map fun id => ⟨d.scope.target line, id, d.reason⟩

def ofLine (marker : List Char) (number : Nat) (line : List Char) : List Disable :=
  (Directive.inLine marker (line.length + 1) line).flatMap (ofDirective number)

def ofLines (marker : List Char) : Nat → List (List Char) → List Disable
  | _, [] => []
  | number, l :: ls => ofLine marker number l ++ ofLines marker (number + 1) ls

def written (marker : String) (source : List Char) : List Disable :=
  ofLines marker.toList 1 (Text.lines source)

def mark (s : Suppressions) (ruleId : String) (line : Nat) : Suppressions :=
  if line = fileLevel then { s with fileRules := s.fileRules.insert ruleId }
  else { s with
    ruleLines := putEntry ruleId (((s.ruleLines.lookup ruleId).getD []).insert line) s.ruleLines }

/-- Takes on a disable. Its reason replaces an earlier one for the same rule and line. -/
def insert (s : Suppressions) (d : Disable) : Suppressions :=
  match d.reason with
  | none => s.mark d.ruleId d.line
  | some reason => { s.mark d.ruleId d.line with
      reasons :=
        putEntry d.ruleId (putEntry d.line reason ((s.reasons.lookup d.ruleId).getD [])) s.reasons }

def ofSource (marker : String) (source : List Char) : Suppressions :=
  (written marker source).foldl insert {}

def isEmpty (s : Suppressions) : Bool := s.ruleLines.isEmpty && s.fileRules.isEmpty

def disablesFile (s : Suppressions) (ruleId : String) : Bool :=
  s.fileRules.contains ruleId || s.fileRules.contains allRules

def disables (s : Suppressions) (ruleId : String) (line : Nat) : Bool :=
  s.disablesFile ruleId ||
    [ruleId, allRules].any fun id => (s.ruleLines.lookup id).any (·.contains line)

/-- Why a rule is disabled on a line: its own id before all rules, the line before the file. -/
def reason? (s : Suppressions) (ruleId : String) (line : Nat) : Option String :=
  [ruleId, allRules].findSome? fun id =>
    (s.reasons.lookup id).bind fun lines => (lines.lookup line).or (lines.lookup fileLevel)

def ownReason? (s : Suppressions) (ruleId : String) (line : Nat) : Option String :=
  (s.reasons.lookup ruleId).bind (·.lookup line)

def listed (s : Suppressions) : List Disable :=
  s.fileRules.map (fun id => ⟨fileLevel, id, s.ownReason? id fileLevel⟩) ++
    s.ruleLines.flatMap fun e => e.2.map fun line => ⟨line, e.1, s.ownReason? e.1 line⟩

def before (a b : Disable) : Bool :=
  a.line < b.line || (a.line == b.line && a.ruleId < b.ruleId)

def all (s : Suppressions) : List Disable := s.listed.mergeSort fun a b => !before b a

end Suppressions

end Subscriptions
