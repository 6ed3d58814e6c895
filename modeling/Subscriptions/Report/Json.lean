import Subscriptions.Json.Writer
import Subscriptions.Report.Basic

namespace Subscriptions

def optionalField (name : String) (value : Option String) : List (String × Json) :=
  match value with
  | some s => [(name, .string s)]
  | none => []

def Diagnostic.toJson (d : Diagnostic) : Json :=
  .object ([
    ("rule_id", .string d.ruleId), ("severity", .string d.severity.name),
    ("message", .string d.message), ("file", .string d.location.file),
    ("line", .natural d.location.line), ("column", .natural d.location.column),
    ("length", .natural d.location.length)] ++
    optionalField "source_line" d.sourceLine ++ optionalField "help" d.help)

namespace Report

def summaryJson (r : Report) : Json := .object [
  ("files_processed", .natural r.filesProcessed), ("files_with_errors", .natural r.filesWithErrors),
  ("files_with_warnings", .natural r.filesWithWarnings), ("error_count", .natural r.errorCount),
  ("warning_count", .natural r.warningCount), ("info_count", .natural r.infoCount),
  ("suppressed_count", .natural r.suppressedCount), ("duration_ms", .natural r.duration.millis)]

def toJson (r : Report) : Json := .object [
  ("diagnostics", .array (r.diagnostics.map Diagnostic.toJson)), ("summary", r.summaryJson)]

end Report

/-- Whether JSON is written on lines of its own. -/
structure JsonStyle where
  pretty : Bool := false
deriving Repr, DecidableEq, Inhabited

namespace JsonStyle

def write (style : JsonStyle) (value : Json) : String :=
  if style.pretty then value.pretty 0 else value.compact

def diagnostic (style : JsonStyle) (d : Diagnostic) : String := style.write d.toJson

def report (style : JsonStyle) (r : Report) : String := style.write r.toJson

end JsonStyle

end Subscriptions
