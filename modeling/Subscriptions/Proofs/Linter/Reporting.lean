import Mathlib.Data.List.Forall2
import Subscriptions.Proofs.Lockstep.Siting

namespace Subscriptions

theorem forall₂_of_mapM {α β : Type} {g : α → Option β} {as : List α} {bs : List β}
    (h : as.mapM g = some bs) : List.Forall₂ (fun a b => g a = some b) as bs := by
  induction as generalizing bs with
  | nil =>
    cases h
    exact .nil
  | cons a as ih =>
    rw [List.mapM_cons] at h
    obtain ⟨b, hb, h⟩ := Option.bind_eq_some_iff.mp h
    obtain ⟨bs, hbs, h⟩ := Option.bind_eq_some_iff.mp h
    cases h
    exact .cons hb (ih hbs)

theorem mapM_of_forall₂ {α β : Type} {g : α → Option β} {as : List α} {bs : List β}
    (h : List.Forall₂ (fun a b => g a = some b) as bs) : as.mapM g = some bs := by
  induction h with
  | nil => rfl
  | cons hb _ ih =>
    rw [List.mapM_cons, hb, ih]
    rfl

/-- What is on the right has a partner on the left. -/
theorem exists_left_of_forall₂ {α β : Type} {R : α → β → Prop} {as : List α} {bs : List β}
    (h : List.Forall₂ R as bs) {b : β} (hb : b ∈ bs) : ∃ a ∈ as, R a b := by
  induction h with
  | nil => cases hb
  | cons hab _ ih =>
    rcases List.mem_cons.mp hb with rfl | hb
    · exact ⟨_, List.mem_cons_self, hab⟩
    · obtain ⟨a, ha, hr⟩ := ih hb
      exact ⟨a, List.mem_cons_of_mem _ ha, hr⟩

/-- What comes of a result is that of what has been settled. -/
theorem exists_of_toOption_bind {ε α β : Type} {e : Except ε α} {g : α → Option β} {b : β}
    (h : e.toOption.bind g = some b) : ∃ a, e = .ok a ∧ g a = some b := by
  cases e with
  | error e => cases h
  | ok a => exact ⟨a, rfl, h⟩

namespace Linter

variable {linter : Linter} {path : String} {source : List Char} {lines : List String} {f : Finding}
  {d : Diagnostic} {ds : List Diagnostic}

/-- A linter keeps its configuration, and the rule has the verb of its settings. -/
theorem settled_of_ofConfig {config : Config} {compiler : PatternCompiler} {globs : GlobReader}
    (h : ofConfig config compiler globs = .ok linter) :
    linter.config = config ∧ linter.rule.verb = config.rules.untracked.verb := by
  rw [ofConfig, UntrackedSettings.rule] at h
  split at h
  · cases h
  · split at h
    · cases h
    · dsimp only [bind, Except.bind] at h
      split at h
      · split at h <;> cases h
        exact ⟨rfl, rfl⟩
      · cases h

def candidates? (linter : Linter) (path : String) (source : List Char) : Option (List Diagnostic) :=
  (linter.findings path source).mapM
    (linter.diagnostic? path source ((Text.lines source).map String.ofList))

def silences (linter : Linter) (source : List Char) (d : Diagnostic) : Bool :=
  (Suppressions.ofSource linter.config.marker source).disables d.ruleId d.location.line

def sourceTimings (linter : Linter) (path : String) (source : List Char) : List RuleTiming :=
  match linter.ruleMatches path (Parsed.ofSource source) with
  | some ms => [⟨linter.rule.info.id, .zero, 1, ms.length⟩]
  | none => []

theorem lintSource_eq (linter : Linter) (path : String) (source : List Char) :
    linter.lintSource path source = (linter.candidates? path source).map fun ds =>
      reportOf (ds.filter (!linter.silences source ·)) (ds.filter (linter.silences source)).length
        (linter.sourceTimings path source) := by
  rw [lintSource, candidates?, findings, Option.map_eq_bind]
  simp only [List.partition_eq_filter_filter]
  rfl

theorem perm_reportOf (shown : List Diagnostic) (suppressed : Nat) (timings : List RuleTiming) :
    (reportOf shown suppressed timings).diagnostics.Perm shown := List.mergeSort_perm _ _

/-- What a diagnostic says of its finding. -/
structure Shows (path : String) (source : List Char) (lines : List String) (f : Finding)
    (d : Diagnostic) : Prop where
  ruleId : d.ruleId = f.ruleId
  severity : d.severity = f.severity
  message : d.message = f.message
  file : d.location.file = path
  place : (d.location.line, d.location.column) = lineColumn source f.span.start
  length : spanLength? source f.span = some d.location.length
  sourceLine : d.sourceLine = if d.location.line = 0 then none else lines[d.location.line - 1]?

theorem shows_of_diagnostic? (h : linter.diagnostic? path source lines f = some d) :
    Shows path source lines f d := by
  simp only [diagnostic?] at h
  obtain ⟨length, hlength, h⟩ := Option.bind_eq_some_iff.mp h
  split at h
  · rename_i hknown
    obtain ⟨window, -, h⟩ := Option.bind_eq_some_iff.mp h
    cases h
    rw [Bool.and_eq_true, decide_eq_true_iff, decide_eq_true_iff] at hknown
    exact ⟨rfl, rfl, rfl, rfl, rfl, hlength, (if_neg (Nat.ne_of_gt hknown.1)).symm⟩
  · rename_i hknown
    cases h
    rw [Bool.and_eq_true, decide_eq_true_iff, decide_eq_true_iff] at hknown
    refine ⟨rfl, rfl, rfl, rfl, rfl, hlength, ?_⟩
    split
    · rfl
    · rename_i hline
      dsimp only at hline ⊢
      exact (List.getElem?_eq_none (by omega)).symm

theorem exists_shows_of_mem (hds : linter.candidates? path source = some ds) (hd : d ∈ ds) :
    ∃ f ∈ linter.findings path source,
      Shows path source ((Text.lines source).map String.ofList) f d := by
  obtain ⟨f, hf, hdiagnostic⟩ := exists_left_of_forall₂ (forall₂_of_mapM hds) hd
  exact ⟨f, hf, shows_of_diagnostic? hdiagnostic⟩

end Linter

end Subscriptions
