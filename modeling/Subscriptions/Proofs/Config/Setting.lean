import Mathlib.Data.List.Basic
import Subscriptions.Config.Decode

namespace Subscriptions

open Document

variable {δ : Type} {α β : Type}

namespace Document

/-- A value is read where something stands, and is the default where nothing stands. -/
def Reads (read : δ → Option α) (default : α) (place : Option δ) (a : α) : Prop :=
  match place with
  | some v => read v = some a
  | none => a = default

/-- A value inside a record is read inside what the record is read from. -/
theorem Reads.within (value : β → α) {decode : δ → Option β} {read : δ → Option α}
    {empty whole : β} {place : Option δ} {inner : δ → Option δ}
    (h : Reads decode empty place whole)
    (hinner : ∀ v, decode v = some whole → Reads read (value empty) (inner v) (value whole)) :
    Reads read (value empty) (place.bind inner) (value whole) := by
  cases place with
  | none => exact congrArg value h
  | some v => exact hinner v h

def field? [Document δ] (names : List String) (name : String) (d : δ) : Option δ :=
  (fields? names d).bind (·.given.lookup name)

theorem reads_of_get [Document δ] {names : List String} {name : String} {d : δ} {fields : Fields δ}
    {read : δ → Option α} {default a : α} (hfields : fields? names d = some fields)
    (h : fields.get name read default = some a) : Reads read default (field? names name d) a := by
  rw [field?, hfields, Option.bind_some]
  rw [Fields.get] at h
  cases hlookup : fields.given.lookup name with
  | none =>
    rw [hlookup] at h
    exact (Option.some.inj h).symm
  | some v =>
    rw [hlookup] at h
    exact h

end Document

def EngineSettings.fieldNames : List String := ["parallel", "jobs"]

def OutputSettings.fieldNames : List String := ["format", "color", "verbose", "context"]

def FileSettings.fieldNames : List String := ["include", "exclude"]

def UntrackedSettings.fieldNames : List String :=
  ["enabled", "severity", "verb", "tracked_verb", "type_patterns", "constructors"]

def RuleSettings.fieldNames : List String :=
  ["disabled", "enabled", "severity", "per_file", UntrackedRule.ruleId]

def markerNames : List String := ["prefix"]

def Config.fieldNames : List String :=
  ["extends", "engine", "output", "files", "rules", "inline_disable"]

/-- What can be set in a configuration, its parents aside. -/
inductive Setting
  | parallel
  | jobs
  | format
  | color
  | verbose
  | context
  | included
  | excluded
  | disabledRules
  | enabledRules
  | severities
  | perFile
  | enabled
  | severity
  | verb
  | trackedVerb
  | typePatterns
  | constructors
  | marker
deriving Repr, DecidableEq

namespace Setting

/-- Lists and tables of several rules or files, to which configurations add. -/
def isCollection : Setting → Bool
  | .included | .excluded | .disabledRules | .enabledRules | .severities | .perFile => true
  | _ => false

def Value : Setting → Type
  | .parallel | .verbose | .enabled => Bool
  | .jobs | .context => Nat
  | .format => OutputFormat
  | .color => ColorMode
  | .included | .excluded | .disabledRules | .enabledRules => List String
  | .typePatterns | .constructors => List String
  | .severities => List (String × Severity)
  | .perFile => List (String × List String)
  | .severity => Option Severity
  | .verb | .trackedVerb | .marker => String

def value : (s : Setting) → Config → s.Value
  | .parallel, c => c.engine.parallel
  | .jobs, c => c.engine.jobs
  | .format, c => c.output.format
  | .color, c => c.output.color
  | .verbose, c => c.output.verbose
  | .context, c => c.output.context
  | .included, c => c.files.included
  | .excluded, c => c.files.excluded
  | .disabledRules, c => c.rules.disabled
  | .enabledRules, c => c.rules.enabled
  | .severities, c => c.rules.severity
  | .perFile, c => c.rules.perFile
  | .enabled, c => c.rules.untracked.enabled
  | .severity, c => c.rules.untracked.severity
  | .verb, c => c.rules.untracked.verb
  | .trackedVerb, c => c.rules.untracked.trackedVerb
  | .typePatterns, c => c.rules.untracked.typePatterns
  | .constructors, c => c.rules.untracked.constructors
  | .marker, c => c.marker

/-- The value of a setting that nothing is said of. -/
def default (s : Setting) : s.Value := s.value {}

variable [Document δ]

def section? (name : String) (d : δ) : Option δ := field? Config.fieldNames name d

def engine? (name : String) (d : δ) : Option δ :=
  (section? "engine" d).bind (field? EngineSettings.fieldNames name)

def output? (name : String) (d : δ) : Option δ :=
  (section? "output" d).bind (field? OutputSettings.fieldNames name)

def files? (name : String) (d : δ) : Option δ :=
  (section? "files" d).bind (field? FileSettings.fieldNames name)

def rules? (name : String) (d : δ) : Option δ :=
  (section? "rules" d).bind (field? RuleSettings.fieldNames name)

def untracked? (name : String) (d : δ) : Option δ :=
  (rules? UntrackedRule.ruleId d).bind (field? UntrackedSettings.fieldNames name)

/-- What a document gives for a setting, if it mentions it. -/
def place? : Setting → δ → Option δ
  | .parallel => engine? "parallel"
  | .jobs => engine? "jobs"
  | .format => output? "format"
  | .color => output? "color"
  | .verbose => output? "verbose"
  | .context => output? "context"
  | .included => files? "include"
  | .excluded => files? "exclude"
  | .disabledRules => rules? "disabled"
  | .enabledRules => rules? "enabled"
  | .severities => rules? "severity"
  | .perFile => rules? "per_file"
  | .enabled => untracked? "enabled"
  | .severity => untracked? "severity"
  | .verb => untracked? "verb"
  | .trackedVerb => untracked? "tracked_verb"
  | .typePatterns => untracked? "type_patterns"
  | .constructors => untracked? "constructors"
  | .marker => fun d => (section? "inline_disable" d).bind (field? markerNames "prefix")

def read : (s : Setting) → δ → Option s.Value
  | .parallel | .verbose | .enabled => flag?
  | .jobs | .context => count?
  | .format => choice OutputFormat.ofName?
  | .color => choice ColorMode.ofName?
  | .included | .excluded | .disabledRules | .enabledRules => listOf text?
  | .typePatterns | .constructors => listOf text?
  | .severities => tableOf (choice Severity.ofName?)
  | .perFile => tableOf (listOf text?)
  | .severity => optional (choice Severity.ofName?)
  | .verb | .trackedVerb | .marker => text?

end Setting

section
variable [Document δ] {d : δ}

structure EngineSettings.ReadFrom (d : δ) (e : EngineSettings) : Prop where
  parallel : Reads flag? true (field? fieldNames "parallel" d) e.parallel
  jobs : Reads count? 0 (field? fieldNames "jobs" d) e.jobs

theorem EngineSettings.readFrom {e : EngineSettings} (h : decode? d = some e) : ReadFrom d e := by
  simp only [decode?, Option.bind_eq_bind, Option.bind_eq_some_iff, Option.pure_def,
    Option.some.injEq] at h
  obtain ⟨fields, hfields, p, hp, j, hj, rfl⟩ := h
  exact ⟨reads_of_get hfields hp, reads_of_get hfields hj⟩

structure OutputSettings.ReadFrom (d : δ) (o : OutputSettings) : Prop where
  format : Reads (choice OutputFormat.ofName?) .text (field? fieldNames "format" d) o.format
  color : Reads (choice ColorMode.ofName?) .auto (field? fieldNames "color" d) o.color
  verbose : Reads flag? false (field? fieldNames "verbose" d) o.verbose
  context : Reads count? 0 (field? fieldNames "context" d) o.context

theorem OutputSettings.readFrom {o : OutputSettings} (h : decode? d = some o) : ReadFrom d o := by
  simp only [decode?, Option.bind_eq_bind, Option.bind_eq_some_iff, Option.pure_def,
    Option.some.injEq] at h
  obtain ⟨fields, hfields, f, hf, c, hc, v, hv, n, hn, rfl⟩ := h
  exact ⟨reads_of_get hfields hf, reads_of_get hfields hc, reads_of_get hfields hv,
    reads_of_get hfields hn⟩

structure FileSettings.ReadFrom (d : δ) (f : FileSettings) : Prop where
  included : Reads (listOf text?) ({} : FileSettings).included
    (field? fieldNames "include" d) f.included
  excluded : Reads (listOf text?) ({} : FileSettings).excluded
    (field? fieldNames "exclude" d) f.excluded

theorem FileSettings.readFrom {f : FileSettings} (h : decode? d = some f) : ReadFrom d f := by
  simp only [decode?, Option.bind_eq_bind, Option.bind_eq_some_iff, Option.pure_def,
    Option.some.injEq] at h
  obtain ⟨fields, hfields, i, hi, e, he, rfl⟩ := h
  exact ⟨reads_of_get hfields hi, reads_of_get hfields he⟩

structure UntrackedSettings.ReadFrom (d : δ) (u : UntrackedSettings) : Prop where
  enabled : Reads flag? true (field? fieldNames "enabled" d) u.enabled
  severity : Reads (optional (choice Severity.ofName?)) none
    (field? fieldNames "severity" d) u.severity
  verb : Reads text? UntrackedRule.defaultVerb (field? fieldNames "verb" d) u.verb
  trackedVerb : Reads text? UntrackedRule.defaultTrackedVerb
    (field? fieldNames "tracked_verb" d) u.trackedVerb
  typePatterns : Reads (listOf text?) UntrackedRule.defaultPatternTexts
    (field? fieldNames "type_patterns" d) u.typePatterns
  constructors : Reads (listOf text?) UntrackedRule.defaultConstructors
    (field? fieldNames "constructors" d) u.constructors

theorem UntrackedSettings.readFrom {u : UntrackedSettings} (h : decode? d = some u) :
    ReadFrom d u := by
  simp only [decode?, Option.bind_eq_bind, Option.bind_eq_some_iff, Option.pure_def,
    Option.some.injEq] at h
  obtain ⟨fields, hfields, e, he, s, hs, v, hv, t, ht, p, hp, c, hc, rfl⟩ := h
  exact ⟨reads_of_get hfields he, reads_of_get hfields hs, reads_of_get hfields hv,
    reads_of_get hfields ht, reads_of_get hfields hp, reads_of_get hfields hc⟩

structure RuleSettings.ReadFrom (d : δ) (r : RuleSettings) : Prop where
  disabled : Reads (listOf text?) [] (field? fieldNames "disabled" d) r.disabled
  enabled : Reads (listOf text?) [] (field? fieldNames "enabled" d) r.enabled
  severity : Reads (tableOf (choice Severity.ofName?)) []
    (field? fieldNames "severity" d) r.severity
  perFile : Reads (tableOf (listOf text?)) [] (field? fieldNames "per_file" d) r.perFile
  untracked : Reads UntrackedSettings.decode? {}
    (field? fieldNames UntrackedRule.ruleId d) r.untracked

theorem RuleSettings.readFrom {r : RuleSettings} (h : decode? d = some r) : ReadFrom d r := by
  simp only [decode?, Option.bind_eq_bind, Option.bind_eq_some_iff, Option.pure_def,
    Option.some.injEq] at h
  obtain ⟨fields, hfields, o, ho, e, he, s, hs, p, hp, u, hu, rfl⟩ := h
  exact ⟨reads_of_get hfields ho, reads_of_get hfields he, reads_of_get hfields hs,
    reads_of_get hfields hp, reads_of_get hfields hu⟩

theorem marker_readFrom {marker : String} (h : decodeMarker? d = some marker) :
    Reads text? Suppressions.defaultMarker (field? markerNames "prefix" d) marker := by
  simp only [decodeMarker?, Option.bind_eq_bind, Option.bind_eq_some_iff] at h
  obtain ⟨fields, hfields, hm⟩ := h
  exact reads_of_get hfields hm

structure Config.ReadFrom (d : δ) (c : Config) : Prop where
  parents : Reads (listOf text?) [] (field? fieldNames "extends" d) c.parents
  engine : Reads EngineSettings.decode? {} (field? fieldNames "engine" d) c.engine
  output : Reads OutputSettings.decode? {} (field? fieldNames "output" d) c.output
  files : Reads FileSettings.decode? {} (field? fieldNames "files" d) c.files
  rules : Reads RuleSettings.decode? {} (field? fieldNames "rules" d) c.rules
  marker : Reads decodeMarker? Suppressions.defaultMarker
    (field? fieldNames "inline_disable" d) c.marker

theorem Config.readFrom {c : Config} (h : decode? d = some c) : ReadFrom d c := by
  simp only [decode?, Option.bind_eq_bind, Option.bind_eq_some_iff, Option.pure_def,
    Option.some.injEq] at h
  obtain ⟨fields, hfields, p, hp, e, he, o, ho, f, hf, r, hr, m, hm, rfl⟩ := h
  exact ⟨reads_of_get hfields hp, reads_of_get hfields he, reads_of_get hfields ho,
    reads_of_get hfields hf, reads_of_get hfields hr, reads_of_get hfields hm⟩

/-- A decoded configuration has the value that the document gives for a setting, and the default
if the document does not mention the setting. -/
theorem Setting.reads_of_decode? {c : Config} (h : Config.decode? d = some c) (s : Setting) :
    Reads s.read s.default (s.place? d) (s.value c) := by
  obtain ⟨-, hengine, houtput, hfiles, hrules, hmarker⟩ := Config.readFrom h
  have huntracked := hrules.within RuleSettings.untracked fun _ hv =>
    (RuleSettings.readFrom hv).untracked
  cases s with
  | parallel =>
    exact hengine.within EngineSettings.parallel fun _ hv => (EngineSettings.readFrom hv).parallel
  | jobs => exact hengine.within EngineSettings.jobs fun _ hv => (EngineSettings.readFrom hv).jobs
  | format =>
    exact houtput.within OutputSettings.format fun _ hv => (OutputSettings.readFrom hv).format
  | color =>
    exact houtput.within OutputSettings.color fun _ hv => (OutputSettings.readFrom hv).color
  | verbose =>
    exact houtput.within OutputSettings.verbose fun _ hv => (OutputSettings.readFrom hv).verbose
  | context =>
    exact houtput.within OutputSettings.context fun _ hv => (OutputSettings.readFrom hv).context
  | included =>
    exact hfiles.within FileSettings.included fun _ hv => (FileSettings.readFrom hv).included
  | excluded =>
    exact hfiles.within FileSettings.excluded fun _ hv => (FileSettings.readFrom hv).excluded
  | disabledRules =>
    exact hrules.within RuleSettings.disabled fun _ hv => (RuleSettings.readFrom hv).disabled
  | enabledRules =>
    exact hrules.within RuleSettings.enabled fun _ hv => (RuleSettings.readFrom hv).enabled
  | severities =>
    exact hrules.within RuleSettings.severity fun _ hv => (RuleSettings.readFrom hv).severity
  | perFile =>
    exact hrules.within RuleSettings.perFile fun _ hv => (RuleSettings.readFrom hv).perFile
  | enabled =>
    exact huntracked.within UntrackedSettings.enabled fun _ hv =>
      (UntrackedSettings.readFrom hv).enabled
  | severity =>
    exact huntracked.within UntrackedSettings.severity fun _ hv =>
      (UntrackedSettings.readFrom hv).severity
  | verb =>
    exact huntracked.within UntrackedSettings.verb fun _ hv =>
      (UntrackedSettings.readFrom hv).verb
  | trackedVerb =>
    exact huntracked.within UntrackedSettings.trackedVerb fun _ hv =>
      (UntrackedSettings.readFrom hv).trackedVerb
  | typePatterns =>
    exact huntracked.within UntrackedSettings.typePatterns fun _ hv =>
      (UntrackedSettings.readFrom hv).typePatterns
  | constructors =>
    exact huntracked.within UntrackedSettings.constructors fun _ hv =>
      (UntrackedSettings.readFrom hv).constructors
  | marker => exact hmarker.within id fun _ hv => marker_readFrom hv

end

end Subscriptions
