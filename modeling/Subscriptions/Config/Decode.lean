import Subscriptions.Config.Basic
import Subscriptions.Document

namespace Subscriptions

variable {δ : Type} [Document δ]

open Document

def EngineSettings.decode? (d : δ) : Option EngineSettings := do
  let fields ← fields? ["parallel", "jobs"] d
  return {
    parallel := ← fields.get "parallel" flag? true
    jobs := ← fields.get "jobs" count? 0 }

def OutputSettings.decode? (d : δ) : Option OutputSettings := do
  let fields ← fields? ["format", "color", "verbose", "context"] d
  return {
    format := ← fields.get "format" (choice OutputFormat.ofName?) .text
    color := ← fields.get "color" (choice ColorMode.ofName?) .auto
    verbose := ← fields.get "verbose" flag? false
    context := ← fields.get "context" count? 0 }

def FileSettings.decode? (d : δ) : Option FileSettings := do
  let fields ← fields? ["include", "exclude"] d
  let default : FileSettings := {}
  return {
    included := ← fields.get "include" (listOf text?) default.included
    excluded := ← fields.get "exclude" (listOf text?) default.excluded }

def UntrackedSettings.decode? (d : δ) : Option UntrackedSettings := do
  let fields ← fields?
    ["enabled", "severity", "verb", "tracked_verb", "type_patterns", "constructors"] d
  let default : UntrackedSettings := {}
  return {
    enabled := ← fields.get "enabled" flag? default.enabled
    severity := ← fields.get "severity" (optional (choice Severity.ofName?)) default.severity
    verb := ← fields.get "verb" text? default.verb
    trackedVerb := ← fields.get "tracked_verb" text? default.trackedVerb
    typePatterns := ← fields.get "type_patterns" (listOf text?) default.typePatterns
    constructors := ← fields.get "constructors" (listOf text?) default.constructors }

def RuleSettings.decode? (d : δ) : Option RuleSettings := do
  let fields ← fields? ["disabled", "enabled", "severity", "per_file", UntrackedRule.ruleId] d
  return {
    disabled := ← fields.get "disabled" (listOf text?) []
    enabled := ← fields.get "enabled" (listOf text?) []
    severity := ← fields.get "severity" (tableOf (choice Severity.ofName?)) []
    perFile := ← fields.get "per_file" (tableOf (listOf text?)) []
    untracked := ← fields.get UntrackedRule.ruleId UntrackedSettings.decode? {} }

/-- The marker of disable comments in a section of its own. -/
def decodeMarker? (d : δ) : Option String := do
  let fields ← fields? ["prefix"] d
  fields.get "prefix" text? Suppressions.defaultMarker

/-- The configuration that a document describes. What it leaves out has its default. -/
def Config.decode? (d : δ) : Option Config := do
  let fields ← fields? ["extends", "engine", "output", "files", "rules", "inline_disable"] d
  return {
    parents := ← fields.get "extends" (listOf text?) []
    engine := ← fields.get "engine" EngineSettings.decode? {}
    output := ← fields.get "output" OutputSettings.decode? {}
    files := ← fields.get "files" FileSettings.decode? {}
    rules := ← fields.get "rules" RuleSettings.decode? {}
    marker := ← fields.get "inline_disable" decodeMarker? Suppressions.defaultMarker }

def RuleInfo.decode? (d : δ) : Option RuleInfo := do
  let fields ← fields? ["id", "description", "severity", "category", "rationale", "example_bad",
    "example_good", "tags"] d
  return {
    id := ← fields.require "id" text?
    description := ← fields.get "description" (optional text?) none
    severity := ← fields.get "severity" (choice Severity.ofName?) .warning
    category := ← fields.get "category" (choice Category.ofName?) .style
    rationale := ← fields.get "rationale" (optional text?) none
    exampleBad := ← fields.get "example_bad" (optional text?) none
    exampleGood := ← fields.get "example_good" (optional text?) none
    tags := ← fields.get "tags" (listOf text?) [] }

end Subscriptions
