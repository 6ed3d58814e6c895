import Subscriptions.Path.Basic
import Subscriptions.Report.Basic
import Subscriptions.Report.Paint

namespace Subscriptions

namespace Text

def blanks (n : Nat) : String := String.ofList (List.replicate n ' ')

def padLeft (width : Nat) (s : String) : String := blanks (width - s.length) ++ s

def padRight (width : Nat) (s : String) : String := s ++ blanks (width - s.length)

theorem length_padLeft (width : Nat) (s : String) :
    (padLeft width s).length = max width s.length := by
  simp only [padLeft, blanks, String.length_append, String.length_ofList, List.length_replicate]
  omega

theorem length_padRight (width : Nat) (s : String) :
    (padRight width s).length = max width s.length := by
  simp only [padRight, blanks, String.length_append, String.length_ofList, List.length_replicate]
  omega

end Text

open Text

/-- What a report for readers shows. -/
structure TextStyle where
  colored : Bool := true
  showSource : Bool := true
  showHelp : Bool := true
  showStats : Bool := true
  showContext : Bool := true
deriving Repr, DecidableEq, Inhabited

namespace TextStyle

section
variable (style : TextStyle)

def paint (s : Style) (text : String) : String := Subscriptions.paint style.colored s text

def severity (s : Severity) : String :=
  match s with
  | .error => style.paint .error s.name
  | .warning => style.paint .warning s.name
  | .info => style.paint .info s.name

def gutter : String := style.paint .info "|"

def lineNumber (n : Nat) : String := padLeft 4 (toString n)

/-- What stands in front of a line that has no number. -/
def margin : String := blanks 5

def contextLine (l : Nat × String) : String :=
  style.paint .faint (lineNumber l.1) ++ " " ++ style.gutter ++ " " ++
    style.paint .faint l.2 ++ "\n"

def contextLines (ls : NumberedLines) : String :=
  if style.showContext then String.join (ls.map style.contextLine) else ""

/-- The place, the severity, the rule and the message. -/
def headline (d : Diagnostic) : String :=
  let l := d.location
  l.file ++ ":" ++ toString l.line ++ ":" ++ toString l.column ++ ": " ++
    style.severity d.severity ++ "[" ++ style.paint .rule d.ruleId ++ "]: " ++ d.message ++ "\n"

def sourceLine (l : Location) (source : String) : String :=
  style.paint .info (lineNumber l.line) ++ " " ++ style.gutter ++ " " ++ source ++ "\n"

def underline (l : Location) : String :=
  if l.column == 0 then ""
  else
    margin ++ style.gutter ++ " " ++ blanks (l.column - 1) ++
      style.paint .problem (String.ofList (List.replicate (max l.length 1) '^')) ++ "\n"

def excerpt (d : Diagnostic) : String :=
  match d.sourceLine with
  | some source =>
    if style.showSource then
      margin ++ style.gutter ++ "\n" ++ style.contextLines d.context.before ++
        style.sourceLine d.location source ++ style.underline d.location ++
        style.contextLines d.context.after
    else ""
  | none => ""

def helpLine (d : Diagnostic) : String :=
  match d.help with
  | some help =>
    if style.showHelp then margin ++ style.paint .info "=" ++ " help: " ++ help ++ "\n" else ""
  | none => ""

def diagnostic (d : Diagnostic) : String :=
  style.headline d ++ style.excerpt d ++ style.helpLine d

def counted (n : Nat) (one many : String) : String :=
  toString n ++ " " ++ (if n == 1 then one else many)

/-- A painted number, unless it is zero. -/
def tally (s : Style) (n : Nat) (one many : String) : List String :=
  if n == 0 then [] else [style.paint s (counted n one many)]

def tallies (r : Report) : List String :=
  style.tally .problem r.errorCount "error" "errors" ++
    style.tally .doubt r.warningCount "warning" "warnings" ++
    style.tally .info r.infoCount "info" "infos"

def summary (r : Report) : String :=
  let tallies := style.tallies r
  "\n" ++ counted r.filesProcessed "file" "files" ++ " processed: " ++
    (if tallies.isEmpty then style.paint .fine "no problems" else ", ".intercalate tallies) ++
    (if r.suppressedCount == 0 then ""
      else " (" ++ toString r.suppressedCount ++ " suppressed)") ++
    "\nFinished in " ++ r.duration.secondsText ++ "s\n"

end

/-- Problems of one file. -/
structure Group where
  file : String
  diagnostics : List Diagnostic
deriving Repr, Inhabited

/-- Puts a problem into the group of its file, which keeps its first spelling. Groups are in the
order of paths. -/
def insert (d : Diagnostic) : List Group → List Group
  | [] => [⟨d.location.file, [d]⟩]
  | g :: gs =>
    if Path.same g.file d.location.file then { g with diagnostics := g.diagnostics ++ [d] } :: gs
    else if Path.inOrder g.file d.location.file then g :: insert d gs
    else ⟨d.location.file, [d]⟩ :: g :: gs

def groups (ds : List Diagnostic) : List Group := ds.foldl (fun gs d => insert d gs) []

def group (style : TextStyle) (g : Group) : String :=
  style.paint .file g.file ++ "\n" ++
    String.join (g.diagnostics.map fun d => style.diagnostic d ++ "\n")

def report (style : TextStyle) (r : Report) : String :=
  String.join ((groups r.diagnostics).map style.group) ++
    (if style.showStats then style.summary r else "")

end TextStyle

/-- What a report of one line for each problem shows. -/
structure CompactStyle where
  showSeverity : Bool := true
  showRule : Bool := true
deriving Repr, DecidableEq, Inhabited

namespace CompactStyle

def diagnostic (style : CompactStyle) (d : Diagnostic) : String :=
  let l := d.location
  let place := l.file ++ ":" ++ toString l.line ++ ":" ++ toString l.column
  ": ".intercalate ([place] ++ (if style.showSeverity then [d.severity.name] else []) ++
    (if style.showRule then [d.ruleId] else []) ++ [d.message])

def report (style : CompactStyle) (r : Report) : String :=
  String.join (r.diagnostics.map fun d => style.diagnostic d ++ "\n")

end CompactStyle

end Subscriptions
