import Subscriptions.Glob.Match
import Subscriptions.Rule.Untracked
import Subscriptions.Suppression

namespace Subscriptions

/-- How a report is written. -/
inductive OutputFormat
  | text
  | json
  | compact
deriving Repr, DecidableEq, Inhabited

namespace OutputFormat

def name : OutputFormat → String
  | .text => "text"
  | .json => "json"
  | .compact => "compact"

def all : List OutputFormat := [.text, .json, .compact]

def ofName? (text : String) : Option OutputFormat := all.find? (·.name == text)

def ofWord (word : String) : Except String OutputFormat :=
  match ofName? word.toLower with
  | some f => .ok f
  | none => .error word

/-- What is said of a word that names no format. -/
def unknownMessage (word : String) : String := "Unknown output format: " ++ word

theorem ofName?_name (f : OutputFormat) : ofName? f.name = some f := by
  cases f <;> decide

end OutputFormat

/-- When a report is coloured. -/
inductive ColorMode
  | auto
  | always
  | never
deriving Repr, DecidableEq, Inhabited

namespace ColorMode

def name : ColorMode → String
  | .auto => "auto"
  | .always => "always"
  | .never => "never"

def all : List ColorMode := [.auto, .always, .never]

def ofName? (text : String) : Option ColorMode := all.find? (·.name == text)

end ColorMode

structure EngineSettings where
  parallel : Bool := true
  /-- Zero stands for as many as there are processors. -/
  jobs : Nat := 0
deriving Repr, DecidableEq, Inhabited

structure OutputSettings where
  format : OutputFormat := .text
  color : ColorMode := .auto
  verbose : Bool := false
  /-- Lines shown around a finding. -/
  context : Nat := 0
deriving Repr, DecidableEq, Inhabited

/-- Globs of the files that are looked at. -/
structure FileSettings where
  included : List String := ["**/*.ts", "**/*.js", "**/*.mjs"]
  excluded : List String := ["**/node_modules/**", "**/*.d.ts", "**/dist/**"]
deriving Repr, DecidableEq, Inhabited

/-- Settings of the rule against untracked subscriptions. -/
structure UntrackedSettings where
  enabled : Bool := true
  severity : Option Severity := none
  verb : String := UntrackedRule.defaultVerb
  trackedVerb : String := UntrackedRule.defaultTrackedVerb
  typePatterns : List String := UntrackedRule.defaultPatternTexts
  constructors : List String := UntrackedRule.defaultConstructors
deriving Repr, DecidableEq, Inhabited

structure RuleSettings where
  disabled : List String := []
  /-- The rules that are enabled, or no rule if all are. -/
  enabled : List String := []
  /-- Severities by rule. -/
  severity : List (String × Severity) := []
  /-- Rules that are ignored in the files of a glob. -/
  perFile : List (String × List String) := []
  untracked : UntrackedSettings := {}
deriving Repr, DecidableEq, Inhabited

structure Config where
  /-- Presets and files whose settings come first. -/
  parents : List String := []
  engine : EngineSettings := {}
  output : OutputSettings := {}
  files : FileSettings := {}
  rules : RuleSettings := {}
  /-- What disable comments start with. -/
  marker : String := Suppressions.defaultMarker
deriving Repr, DecidableEq, Inhabited

namespace Config

def strict : Config := { rules := { untracked := { severity := some .error } } }

def presets : List (String × Config) := [("recommended", {}), ("strict", strict)]

def preset? (name : String) : Option Config := presets.lookup name

/-- A rule is enabled unless its own settings or the list of disabled rules say otherwise, or there
is a list of enabled rules without it. -/
def isRuleEnabled (config : Config) (ruleId : String) : Bool :=
  let rules := config.rules
  (ruleId != UntrackedRule.ruleId || rules.untracked.enabled) &&
    !rules.disabled.contains ruleId && (rules.enabled.isEmpty || rules.enabled.contains ruleId)

/-- The severity that findings of a rule have instead of their own. -/
def severityOverride? (config : Config) (ruleId : String) : Option Severity :=
  let own := if ruleId == UntrackedRule.ruleId then config.rules.untracked.severity else none
  (config.rules.severity.lookup ruleId).or own

/-- The rules ignored in the files of a glob include the rule, and the glob matches the path. A
glob that cannot be read matches nothing. -/
def entryIgnores (ruleId path : String) (entry : String × List String) : Bool :=
  match Glob.ofText entry.1 with
  | .ok glob => glob.matchesPath path &&
      entry.2.any fun r => r == Suppressions.allRules || r == ruleId
  | .error _ => false

def ignores (config : Config) (ruleId path : String) : Bool :=
  config.rules.perFile.any (entryIgnores ruleId path)

/-- The rule is enabled and not ignored in the file. -/
def isActive (config : Config) (ruleId path : String) : Bool :=
  config.isRuleEnabled ruleId && !config.ignores ruleId path

end Config

end Subscriptions
