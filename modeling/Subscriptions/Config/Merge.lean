import Subscriptions.Config.Basic
import Subscriptions.Document

namespace Subscriptions

def unlessDefault {α : Type} [DecidableEq α] (default ours theirs : α) : α :=
  if theirs = default then ours else theirs

/-- The other elements that are not there yet, one after another, behind ours. -/
def addMissing (ours theirs : List String) : List String :=
  theirs.foldl (fun xs x => if xs.contains x then xs else xs ++ [x]) ours

/-- The other entries, in place of ours of the same name. -/
def overlay {α : Type} (ours theirs : List (String × α)) : List (String × α) :=
  theirs.foldl (fun table e => putEntry e.1 e.2 table) ours

def extend {α : Type} (ours theirs : List (String × List α)) : List (String × List α) :=
  theirs.foldl (fun table e => putEntry e.1 ((table.lookup e.1).getD [] ++ e.2) table) ours

/-- Where other settings differ from the default, they take the place of ours or add to them. -/
def EngineSettings.merge (ours theirs : EngineSettings) : EngineSettings where
  parallel := theirs.parallel
  jobs := unlessDefault 0 ours.jobs theirs.jobs

def OutputSettings.merge (ours theirs : OutputSettings) : OutputSettings where
  format := unlessDefault .text ours.format theirs.format
  color := unlessDefault .auto ours.color theirs.color
  verbose := ours.verbose || theirs.verbose
  context := unlessDefault 0 ours.context theirs.context

def FileSettings.merge (ours theirs : FileSettings) : FileSettings where
  included := addMissing ours.included theirs.included
  excluded := addMissing ours.excluded theirs.excluded

def UntrackedSettings.merge (ours theirs : UntrackedSettings) : UntrackedSettings where
  enabled := ours.enabled && theirs.enabled
  severity := theirs.severity.or ours.severity
  verb := unlessDefault UntrackedRule.defaultVerb ours.verb theirs.verb
  trackedVerb := unlessDefault UntrackedRule.defaultTrackedVerb ours.trackedVerb theirs.trackedVerb
  typePatterns :=
    unlessDefault UntrackedRule.defaultPatternTexts ours.typePatterns theirs.typePatterns
  constructors :=
    unlessDefault UntrackedRule.defaultConstructors ours.constructors theirs.constructors

def RuleSettings.merge (ours theirs : RuleSettings) : RuleSettings where
  disabled := ours.disabled ++ theirs.disabled
  enabled := unlessDefault [] ours.enabled theirs.enabled
  severity := overlay ours.severity theirs.severity
  perFile := extend ours.perFile theirs.perFile
  untracked := ours.untracked.merge theirs.untracked

namespace Config

/-- Takes on another configuration. Its parents are not taken on. -/
def merge (ours theirs : Config) : Config where
  parents := ours.parents
  engine := ours.engine.merge theirs.engine
  output := ours.output.merge theirs.output
  files := ours.files.merge theirs.files
  rules := ours.rules.merge theirs.rules
  marker := unlessDefault Suppressions.defaultMarker ours.marker theirs.marker

end Config

/-- What a command line changes in a configuration. -/
structure Overrides where
  format : Option OutputFormat := none
  verbose : Option Bool := none
  jobs : Option Nat := none
  context : Option Nat := none
  noColor : Bool := false
  verb : Option String := none
  patterns : List String := []
  constructors : List String := []
deriving Repr, DecidableEq, Inhabited

namespace Config

def override (config : Config) (o : Overrides) : Config :=
  let { engine, output, rules, .. } := config
  let untracked := rules.untracked
  { config with
    engine := { engine with jobs := o.jobs.getD engine.jobs }
    output := {
      format := o.format.getD output.format
      color := if o.noColor then .never else output.color
      verbose := o.verbose.getD output.verbose
      context := o.context.getD output.context }
    rules := { rules with
      untracked := { untracked with
        verb := o.verb.getD untracked.verb
        typePatterns := unlessDefault [] untracked.typePatterns o.patterns
        constructors := unlessDefault [] untracked.constructors o.constructors } } }

end Config

theorem unlessDefault_assoc {α : Type} [DecidableEq α] (d a b c : α) :
    unlessDefault d (unlessDefault d a b) c = unlessDefault d a (unlessDefault d b c) := by
  by_cases hb : b = d <;> by_cases hc : c = d <;> simp [unlessDefault, hb, hc]

end Subscriptions
