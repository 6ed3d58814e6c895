import Subscriptions.Proofs.Linter.Pointing
import Subscriptions.Proofs.Linter.Silencing

namespace Subscriptions.Linter

variable {linter : Linter} {config : Config} {path : String} {source : List Char} {f : Finding}
  {report : Report} {d : Diagnostic}

/-- Only rules that are active in the file find anything. -/
theorem isActive_of_mem_findings (h : f ∈ linter.findings path source) :
    linter.config.isActive f.ruleId path = true := by
  rcases List.mem_append.mp h with h | h
  · have hactive : linter.config.isActive parseErrorId path = true := by
      by_contra hinactive
      rw [faultFindings, if_neg hinactive] at h
      cases h
    obtain ⟨fault, -, rfl⟩ := mem_faultFindings h
    exact hactive
  · obtain ⟨m, hm, rfl⟩ := List.mem_map.mp h
    by_contra hinactive
    have hid : (linter.matchFinding m).ruleId = linter.rule.info.id := rfl
    rw [hid] at hinactive
    rw [ruleMatches, if_neg hinactive] at hm
    cases hm

/-- A fault is a warning, and a match of the rule has the severity that is configured for it. -/
theorem severity_of_mem_findings (h : f ∈ linter.findings path source) :
    f.ruleId = parseErrorId ∧ f.severity = .warning ∨
      f.ruleId = UntrackedRule.ruleId ∧ f.severity =
        (linter.config.severityOverride? UntrackedRule.ruleId).getD .warning := by
  rcases origin_of_mem_findings h with ⟨fault, -, rfl⟩ | ⟨c, -, v, -, rfl⟩
  · left
    exact ⟨rfl, rfl⟩
  · right
    exact ⟨rfl, rfl⟩

/-- What the configuration says of a problem in a file. -/
structure Settled (config : Config) (path : String) (d : Diagnostic) : Prop where
  enabled : config.isRuleEnabled d.ruleId = true
  heeded : config.ignores d.ruleId path = false
  severity : d.ruleId = parseErrorId ∧ d.severity = .warning ∨
    d.ruleId = UntrackedRule.ruleId ∧
      d.severity = (config.severityOverride? UntrackedRule.ruleId).getD .warning

theorem settled_of_mem (h : linter.lintSource path source = some report)
    (hd : d ∈ report.diagnostics) : Settled linter.config path d := by
  obtain ⟨f, hf, hshows⟩ := exists_shows h hd
  have hactive := isActive_of_mem_findings hf
  have hseverity := severity_of_mem_findings hf
  rw [← hshows.ruleId, Config.isActive, Bool.and_eq_true, Bool.not_eq_true'] at hactive
  rw [← hshows.ruleId, ← hshows.severity] at hseverity
  exact ⟨hactive.1, hactive.2, hseverity⟩

/-- The problem has the severity that is configured for its rule, if there is one. -/
def Heeds (config : Config) (d : Diagnostic) : Prop :=
  ∀ s, config.severityOverride? d.ruleId = some s → d.severity = s

theorem Settled.heeds_iff (h : Settled config path d) : Heeds config d ↔
    (d.ruleId = parseErrorId → ∀ s, config.severityOverride? parseErrorId = some s → s = .warning) := by
  rcases h.severity with ⟨hid, hseverity⟩ | ⟨hid, hseverity⟩
  · rw [Heeds, hid, hseverity]
    simp [eq_comm]
  · have hne : UntrackedRule.ruleId ≠ parseErrorId := by decide
    have hheeds : Heeds config d := by
      intro s hs
      rw [hid] at hs
      rw [hseverity, hs]
      rfl
    simp [hheeds, hid, hne]

/-- Whatever the configuration, the readers of its patterns and globs, the file and the source are,
all that is reported is of rules that are enabled and not ignored for the file, and matches of the
rule have the severity configured for it. So the configured severities reach all that is reported if
and only if no fault is reported for which another severity than that of a warning is configured. -/
theorem severities_reach_iff (compiler : PatternCompiler) (globs : GlobReader) (config : Config)
    (base : Linter) (hbase : ofConfig config compiler globs = .ok base)
    (resolver : List Char → Resolver) (contextLines : Nat) (path : String) (source : List Char)
    (report : Report)
    (h : { base with resolver, contextLines }.lintSource path source = some report) :
    (∀ d ∈ report.diagnostics, Settled config path d) ∧
    ((∀ d ∈ report.diagnostics, Heeds config d) ↔
      ((∃ d ∈ report.diagnostics, d.ruleId = parseErrorId) →
        ∀ s, config.severityOverride? parseErrorId = some s → s = .warning)) := by
  have hsettled : ∀ d ∈ report.diagnostics, Settled config path d := by
    intro d hd
    have hfound := settled_of_mem h hd
    rw [← (settled_of_ofConfig hbase).1]
    exact hfound
  refine ⟨hsettled, ?_⟩
  constructor
  · rintro hheeds ⟨d, hd, hid⟩
    exact (hsettled d hd).heeds_iff.mp (hheeds d hd) hid
  · intro hwarning d hd
    apply (hsettled d hd).heeds_iff.mpr
    intro hid
    exact hwarning ⟨d, hd, hid⟩

def severeConfig : Config :=
  { rules := { severity := [(parseErrorId, .error), (UntrackedRule.ruleId, .error)] } }

/-- A call that is flagged, in a source without faults. -/
def flaggedSource : List Char := "let a: Subject;\na.subscribe();".toList

/-- Without faults all configured severities reach what is reported. -/
theorem severities_reach_flagged : ∃ base report, ofConfig severeConfig = .ok base ∧
    base.lintSource "a.ts" flaggedSource = some report ∧
    report.diagnostics.map (fun d => (d.ruleId, d.severity)) = [(UntrackedRule.ruleId, .error)] ∧
    (∀ d ∈ report.diagnostics, Settled severeConfig "a.ts" d) ∧
    ∀ d ∈ report.diagnostics, Heeds severeConfig d := by
  have hfound : (ofConfig severeConfig).toOption.bind (fun base =>
      (base.lintSource "a.ts" flaggedSource).map fun report =>
        report.diagnostics.map fun d => (d.ruleId, d.severity)) =
      some [(UntrackedRule.ruleId, .error)] := by
    decide +kernel
  obtain ⟨base, hbase, hmap⟩ := exists_of_toOption_bind hfound
  obtain ⟨report, hreport, hlist⟩ := Option.map_eq_some_iff.mp hmap
  obtain ⟨hsettled, hreach⟩ := severities_reach_iff .standard
    FileFilter.ofTexts severeConfig base hbase base.resolver base.contextLines "a.ts" flaggedSource
    report hreport
  refine ⟨base, report, hbase, hreport, hlist, hsettled, hreach.mpr ?_⟩
  rintro ⟨d, hd, hid⟩
  have hmem := List.mem_map_of_mem (f := fun d : Diagnostic => (d.ruleId, d.severity)) hd
  rw [hlist, List.mem_singleton, hid] at hmem
  have hne : parseErrorId ≠ UntrackedRule.ruleId := by decide
  exact absurd (congrArg Prod.fst hmem) hne

def faultySource : List Char := "a.;".toList

/-- The fault is reported as a warning, although it is configured to be an error. -/
theorem fault_severity_missed : ∃ base report, ofConfig severeConfig = .ok base ∧
    base.lintSource "a.ts" faultySource = some report ∧ ∃ d ∈ report.diagnostics,
      d.ruleId = parseErrorId ∧ severeConfig.severityOverride? d.ruleId = some .error ∧
        d.severity = .warning ∧ ¬ Heeds severeConfig d := by
  have hfound : (ofConfig severeConfig).toOption.bind (fun base =>
      (base.lintSource "a.ts" faultySource).map fun report =>
        report.diagnostics.map fun d => (d.ruleId, d.severity)) =
      some [(parseErrorId, .warning)] := by
    decide +kernel
  obtain ⟨base, hbase, hmap⟩ := exists_of_toOption_bind hfound
  obtain ⟨report, hreport, hlist⟩ := Option.map_eq_some_iff.mp hmap
  have hmem : (parseErrorId, Severity.warning) ∈
      report.diagnostics.map fun d => (d.ruleId, d.severity) := by
    rw [hlist]
    exact List.mem_cons_self
  obtain ⟨d, hd, hvalues⟩ := List.mem_map.mp hmem
  obtain ⟨hid, hseverity⟩ := Prod.mk.inj hvalues
  have hoverride : severeConfig.severityOverride? d.ruleId = some .error := by
    rw [hid]
    decide
  refine ⟨base, report, hbase, hreport, d, hd, hid, hoverride, hseverity, ?_⟩
  intro hheeds
  have herror := hheeds .error hoverride
  rw [hseverity] at herror
  cases herror

end Subscriptions.Linter
