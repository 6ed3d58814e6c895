import Subscriptions.Report.Paint
import Subscriptions.Rule.Info
import Subscriptions.Text.Lines

namespace Subscriptions.Command

section
variable (colored : Bool)

def severityText (s : Severity) : String :=
  match s with
  | .error => paint colored .problem s.name
  | .warning => paint colored .doubt s.name
  | .info => paint colored .info s.name

def heading (text : String) : String := paint colored .heading text

def ruleEntry (info : RuleInfo) : String :=
  "    " ++ paint colored .rule info.id ++ " [" ++ severityText colored info.severity ++ "] (" ++
    info.category.name ++ ")\n" ++
    (match info.description with
      | some text => "      " ++ text ++ "\n"
      | none => "") ++
    (if info.tags.isEmpty then "" else "      Tags: " ++ ", ".intercalate info.tags ++ "\n")

def ruleList (rules : List RuleInfo) : String :=
  heading colored "Available rules:" ++ "\n" ++ String.join (rules.map (ruleEntry colored))

def property (name value : String) : String :=
  "  " ++ heading colored name ++ ": " ++ value ++ "\n"

def paragraph (title : String) (text : Option String) : String :=
  match text with
  | some text => "\n  " ++ heading colored title ++ "\n  " ++ text ++ "\n"
  | none => ""

def codeExample (style : Style) (kind : String) (code : Option String) : String :=
  match code with
  | some code =>
    "\n  " ++ heading colored "Example" ++ " " ++ paint colored style kind ++ "\n" ++
      String.join ((Text.lines code.toList).map fun line => "    " ++ String.ofList line ++ "\n")
  | none => ""

def explanation (info : RuleInfo) : String :=
  heading colored "Rule Details" ++ "\n\n" ++
    property colored "ID" (paint colored .rule info.id) ++
    property colored "Severity" (severityText colored info.severity) ++
    property colored "Category" info.category.name ++
    paragraph colored "Description" info.description ++
    paragraph colored "Rationale" info.rationale ++
    codeExample colored .problem "(incorrect)" info.exampleBad ++
    codeExample colored .fine "(correct)" info.exampleGood

end

end Subscriptions.Command
