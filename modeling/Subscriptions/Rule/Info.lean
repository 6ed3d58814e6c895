import Subscriptions.Severity
import Subscriptions.Source.Position

namespace Subscriptions

/-- What kind of trouble a rule is about. -/
inductive Category
  | correctness
  | suspicious
  | style
  | restriction
deriving Repr, DecidableEq, Inhabited

namespace Category

def name : Category → String
  | .correctness => "correctness"
  | .suspicious => "suspicious"
  | .style => "style"
  | .restriction => "restriction"

def all : List Category := [.correctness, .suspicious, .style, .restriction]

def ofName? (text : String) : Option Category := all.find? (·.name == text)

def ofWord (word : String) : Except String Category :=
  match ofName? word.toLower with
  | some c => .ok c
  | none => .error word

/-- What is said of a word that names no category. -/
def unknownMessage (word : String) : String := "Unknown category: " ++ word

theorem ofName?_name (c : Category) : ofName? c.name = some c := by
  cases c <;> decide

end Category

/-- What is told about a rule. -/
structure RuleInfo where
  id : String
  description : Option String := none
  severity : Severity := .warning
  category : Category := .style
  rationale : Option String := none
  exampleBad : Option String := none
  exampleGood : Option String := none
  tags : List String := []
deriving Repr, DecidableEq, Inhabited

def RuleInfo.hasTag (i : RuleInfo) (tag : String) : Bool := i.tags.contains tag

/-- A finding of a rule, not yet placed in a file. -/
structure RuleMatch where
  span : Span
  message : String
  help : Option String
deriving Repr, DecidableEq, Inhabited

end Subscriptions
