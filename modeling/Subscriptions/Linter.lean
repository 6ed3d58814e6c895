import Subscriptions.Config.Basic
import Subscriptions.Config.Error
import Subscriptions.Glob.Filter
import Subscriptions.Grammar.Program
import Subscriptions.Report.Basic

namespace Subscriptions

/-- All that is needed to look at sources. -/
structure Linter where
  config : Config
  rule : UntrackedRule
  filter : FileFilter
  /-- How the types in a source are found. -/
  resolver : List Char → Resolver
  /-- Lines shown around a finding. -/
  contextLines : Nat

/-- A finding with all that is said about it. -/
structure Finding where
  ruleId : String
  severity : Severity
  message : String
  span : Span
  help : Option String
deriving Repr, DecidableEq, Inhabited

namespace Linter

def parseErrorId : String := "parse-error"

def readErrorId : String := "file-read-error"

/-- Settles the rule, the marker of disable comments and the globs of a configuration. -/
def ofConfig (config : Config) (compiler : PatternCompiler := .standard)
    (globs : GlobReader := FileFilter.ofTexts) : Except ConfigError Linter := do
  let rule ← config.rules.untracked.rule compiler
  if compiler.takesMarker config.marker then
    match globs config.files.included config.files.excluded with
    | .error e => throw (.glob e)
    | .ok filter =>
      return ⟨config, rule, filter, fun _ => Resolver.declared Resolver.defaultDepth,
        config.output.context⟩
  else throw (.pattern config.marker)

section
variable (linter : Linter)

def rules : List RuleInfo := [linter.rule.info]

def faultFindings (path : String) (parsed : Parsed) : List Finding :=
  if linter.config.isActive parseErrorId path then
    parsed.faults.map fun f => ⟨parseErrorId, .warning, "Parse error: " ++ f.message, f.span, none⟩
  else []

def ruleMatches (path : String) (parsed : Parsed) : Option (List RuleMatch) :=
  if linter.config.isActive linter.rule.info.id path then
    some (linter.rule.check (linter.resolver parsed.source) parsed.root)
  else none

def ruleSeverity : Severity :=
  (linter.config.severityOverride? linter.rule.info.id).getD linter.rule.info.severity

def matchFinding (m : RuleMatch) : Finding :=
  ⟨linter.rule.info.id, linter.ruleSeverity, m.message, m.span, m.help⟩

/-- The characters of a span, or its bytes if it starts or ends inside a character. -/
def spanLength? (source : List Char) (s : Span) : Option Nat :=
  match slice? source s with
  | some text => some text.length
  | none => s.length?

/-- The finding at its place, if the place and the lines around it can be told. -/
def diagnostic? (path : String) (source : List Char) (lines : List String) (f : Finding) :
    Option Diagnostic := do
  let (line, column) := lineColumn source f.span.start
  let length ← spanLength? source f.span
  let known := 0 < line && line ≤ lines.length
  let context ← if known then Window.around? lines line linter.contextLines else some ⟨[], []⟩
  return {
    ruleId := f.ruleId
    severity := f.severity
    message := f.message
    location := ⟨path, line, column, length⟩
    sourceLine := if known then lines[line - 1]? else none
    context := context
    help := f.help }

def inOrder (a b : Diagnostic) : Bool :=
  let p := a.location
  let q := b.location
  p.line < q.line || (p.line == q.line && p.column ≤ q.column)

/-- A report of one file with its problems in order. -/
def reportOf (shown : List Diagnostic) (suppressed : Nat) (timings : List RuleTiming) : Report :=
  let counted := shown.foldl Report.addDiagnostic {}
  { counted with
    diagnostics := shown.mergeSort inOrder
    filesProcessed := 1
    filesWithErrors := if counted.hasErrors then 1 else 0
    filesWithWarnings := if counted.hasWarnings then 1 else 0
    suppressedCount := suppressed
    timings := timings }

/-- Looks at a source as the text of a file. There is no report if some place in it cannot be
told. -/
def lintSource (path : String) (source : List Char) : Option Report := do
  let parsed := Parsed.ofSource source
  let suppressions := Suppressions.ofSource linter.config.marker source
  let lines := (Text.lines source).map String.ofList
  let found := linter.ruleMatches path parsed
  let findings := linter.faultFindings path parsed ++ (found.getD []).map linter.matchFinding
  let candidates ← findings.mapM (linter.diagnostic? path source lines)
  let (dropped, shown) := candidates.partition fun d =>
    suppressions.disables d.ruleId d.location.line
  let timings := match found with
    | some ms => [⟨linter.rule.info.id, .zero, 1, ms.length⟩]
    | none => []
  return reportOf shown dropped.length timings

def unreadable (path : String) (e : ReadError) : Report :=
  reportOf [⟨readErrorId, .error, "Failed to read file: " ++ e.message, ⟨path, 0, 0, 0⟩, none,
    ⟨[], []⟩, none⟩] 0 []

def lintFile (path : String) (text : Except ReadError String) : Option Report :=
  match text with
  | .ok text => linter.lintSource path text.toList
  | .error e => some (unreadable path e)

def lint (files : List (String × Except ReadError String)) : Option Report :=
  (files.mapM fun f => linter.lintFile f.1 f.2).map fun reports => reports.foldl Report.merge {}

end

end Linter

end Subscriptions
