import Mathlib.Data.List.Nodup
import Subscriptions.Report.Basic

namespace Subscriptions

namespace RuleTiming

variable {t u v : RuleTiming}

/-- The entry without the time that it took. -/
def untimed (t : RuleTiming) : RuleTiming := { t with total := .zero }

@[simp] theorem ruleId_add : (t.add u).ruleId = t.ruleId := rfl

@[simp] theorem ruleId_untimed : t.untimed.ruleId = t.ruleId := rfl

theorem add_assoc : (t.add u).add v = t.add (u.add v) := by
  simp [add, Duration.add, Nat.add_assoc]

theorem add_right_comm : (t.add u).add v = (t.add v).add u := by
  simp [add, Duration.add, Nat.add_right_comm]

theorem untimed_add : (t.add u).untimed = t.untimed.add u.untimed := rfl

end RuleTiming

namespace Report

section
variable {ts us : List RuleTiming} {t u : RuleTiming}

/-- The rules that a table of timings has entries for. -/
def timedIds (ts : List RuleTiming) : List String := ts.map (·.ruleId)

@[simp] theorem timedIds_cons : timedIds (t :: ts) = t.ruleId :: timedIds ts := rfl

/-- A rule without an entry gets one at the end. -/
theorem timedIds_addTiming (ts : List RuleTiming) (t : RuleTiming) :
    timedIds (addTiming ts t) =
      if t.ruleId ∈ timedIds ts then timedIds ts else timedIds ts ++ [t.ruleId] := by
  induction ts with
  | nil => rfl
  | cons u us ih =>
    by_cases hid : u.ruleId = t.ruleId
    · simp [addTiming, hid]
    · have hmem : t.ruleId ∈ timedIds (u :: us) ↔ t.ruleId ∈ timedIds us := by
        simp [Ne.symm hid]
      have hcons : timedIds (addTiming (u :: us) t) = u.ruleId :: timedIds (addTiming us t) := by
        simp [addTiming, hid]
      rw [hcons, ih, apply_ite (List.cons u.ruleId), if_congr hmem rfl rfl]
      rfl

theorem nodup_addTiming (h : (timedIds ts).Nodup) : (timedIds (addTiming ts t)).Nodup := by
  rw [timedIds_addTiming]
  split
  · exact h
  · rename_i hnew
    exact h.append (List.nodup_singleton _) (by simpa using hnew)

theorem nodup_foldl_addTiming (h : (timedIds ts).Nodup) :
    (timedIds (us.foldl addTiming ts)).Nodup := by
  induction us generalizing ts with
  | nil => exact h
  | cons u us ih => exact ih (nodup_addTiming h)

theorem mem_timedIds_addTiming {id : String} (h : id ∈ timedIds ts) :
    id ∈ timedIds (addTiming ts t) := by
  rw [timedIds_addTiming]
  split
  · exact h
  · exact List.mem_append_left _ h

/-- Two entries that are added to one are added at once. -/
theorem addTiming_add (hid : u.ruleId = t.ruleId) :
    addTiming ts (u.add t) = addTiming (addTiming ts u) t := by
  induction ts with
  | nil => simp [addTiming, hid]
  | cons v vs ih =>
    by_cases hv : v.ruleId = u.ruleId
    · have hvt : v.ruleId = t.ruleId := hv.trans hid
      simp [addTiming, hvt, hid, RuleTiming.add_assoc]
    · have hvt : v.ruleId ≠ t.ruleId := fun h => hv (h.trans hid.symm)
      simp [addTiming, hv, hvt, ih]

/-- What is added to an entry that is there may be added later. -/
theorem addTiming_right_comm (h : t.ruleId ∈ timedIds ts) :
    addTiming (addTiming ts t) u = addTiming (addTiming ts u) t := by
  induction ts with
  | nil => cases h
  | cons v vs ih =>
    by_cases ht : v.ruleId = t.ruleId
    · by_cases hu : v.ruleId = u.ruleId
      · simp [addTiming, ht, ht.symm.trans hu, RuleTiming.add_right_comm]
      · have hne : t.ruleId ≠ u.ruleId := fun h => hu (ht.trans h)
        simp [addTiming, ht, hne]
    · have hmem : t.ruleId ∈ timedIds vs := (List.mem_cons.mp h).resolve_left (Ne.symm ht)
      by_cases hu : v.ruleId = u.ruleId
      · have hne : u.ruleId ≠ t.ruleId := fun h => ht (hu.trans h)
        simp [addTiming, hu, hne]
      · simp [addTiming, ht, hu, ih hmem]

theorem foldl_addTiming_right_comm (h : t.ruleId ∈ timedIds ts) :
    us.foldl addTiming (addTiming ts t) = addTiming (us.foldl addTiming ts) t := by
  induction us generalizing ts with
  | nil => rfl
  | cons u us ih =>
    rw [List.foldl_cons, addTiming_right_comm h, ih (mem_timedIds_addTiming h), List.foldl_cons]

/-- An entry may be added to the second table first. -/
theorem foldl_addTiming_addTiming :
    (addTiming us t).foldl addTiming ts = addTiming (us.foldl addTiming ts) t := by
  induction us generalizing ts with
  | nil => rfl
  | cons u us ih =>
    by_cases hid : u.ruleId = t.ruleId
    · -- The first table has an entry for `u` by now, so what `t` adds may wait for the rest.
      have hmem : t.ruleId ∈ timedIds (addTiming ts u) := by
        rw [timedIds_addTiming, ← hid]
        split
        · assumption
        · exact List.mem_append_right _ List.mem_cons_self
      rw [addTiming, if_pos (by simpa using hid), List.foldl_cons, addTiming_add hid,
        foldl_addTiming_right_comm hmem, List.foldl_cons]
    · rw [addTiming, if_neg (by simpa using hid), List.foldl_cons, ih, List.foldl_cons]

theorem foldl_foldl_addTiming {vs : List RuleTiming} :
    (vs.foldl addTiming us).foldl addTiming ts = vs.foldl addTiming (us.foldl addTiming ts) := by
  induction vs generalizing us with
  | nil => rfl
  | cons v vs ih => rw [List.foldl_cons, ih, foldl_addTiming_addTiming, List.foldl_cons]

theorem map_untimed_addTiming : (addTiming ts t).map RuleTiming.untimed =
    addTiming (ts.map RuleTiming.untimed) t.untimed := by
  induction ts with
  | nil => rfl
  | cons u us ih =>
    by_cases hid : u.ruleId = t.ruleId
    · simp [addTiming, hid, RuleTiming.untimed_add]
    · simp [addTiming, hid, ih]

theorem map_untimed_foldl : (us.foldl addTiming ts).map RuleTiming.untimed =
    (us.map RuleTiming.untimed).foldl addTiming (ts.map RuleTiming.untimed) := by
  induction us generalizing ts with
  | nil => rfl
  | cons u us ih => rw [List.foldl_cons, ih, map_untimed_addTiming, List.map_cons, List.foldl_cons]

def timedMatches (ts : List RuleTiming) (ruleId : String) : Nat :=
  ((ts.find? (·.ruleId == ruleId)).map (·.matchCount)).getD 0

theorem timedMatches_cons (t : RuleTiming) (ts : List RuleTiming) (id : String) :
    timedMatches (t :: ts) id = if t.ruleId = id then t.matchCount else timedMatches ts id := by
  by_cases hid : t.ruleId = id <;> simp [timedMatches, hid]

theorem timedMatches_addTiming (id : String) : timedMatches (addTiming ts t) id =
    timedMatches ts id + if t.ruleId = id then t.matchCount else 0 := by
  induction ts with
  | nil =>
    rw [addTiming, timedMatches_cons]
    exact (Nat.zero_add _).symm
  | cons u us ih =>
    by_cases hid : u.ruleId = t.ruleId
    · by_cases hfound : t.ruleId = id
      · simp [addTiming, hid, hfound, timedMatches_cons, RuleTiming.add]
      · simp [addTiming, hid, hfound, timedMatches_cons]
    · by_cases hfound : u.ruleId = id
      · have hother : t.ruleId ≠ id := fun h => hid (hfound.trans h.symm)
        simp [addTiming, hfound, hother.symm, timedMatches_cons, hother]
      · simp [addTiming, hid, hfound, timedMatches_cons, ih]

theorem timedMatches_of_not_mem {id : String} (h : id ∉ timedIds ts) : timedMatches ts id = 0 := by
  induction ts with
  | nil => rfl
  | cons t ts ih =>
    obtain ⟨hne, hrest⟩ := not_or.mp (mt List.mem_cons.mpr h)
    rw [timedMatches_cons, if_neg (Ne.symm hne), ih hrest]

/-- Where the second table has one entry for each rule, both are counted. -/
theorem timedMatches_foldl (h : (timedIds us).Nodup) (id : String) :
    timedMatches (us.foldl addTiming ts) id = timedMatches ts id + timedMatches us id := by
  induction us generalizing ts with
  | nil => rfl
  | cons u us ih =>
    obtain ⟨hnew, hrest⟩ := List.nodup_cons.mp h
    rw [List.foldl_cons, ih hrest, timedMatches_addTiming, timedMatches_cons, Nat.add_assoc]
    by_cases hid : u.ruleId = id
    · subst hid
      rw [if_pos rfl, if_pos rfl, timedMatches_of_not_mem hnew, Nat.add_zero]
    · rw [if_neg hid, if_neg hid, Nat.zero_add]

end

section
variable {a b c : Report}

def untimed (r : Report) : Report :=
  { r with duration := .zero, timings := r.timings.map RuleTiming.untimed }

theorem merge_empty (a : Report) : a.merge {} = a := by
  cases a
  simp [merge]

theorem merge_assoc : (a.merge b).merge c = a.merge (b.merge c) := by
  simp [merge, Nat.add_assoc, foldl_foldl_addTiming]

theorem untimed_merge : (a.merge b).untimed = a.untimed.merge b.untimed := by
  simp [merge, untimed, map_untimed_foldl]

/-- Reports that have been merged are merged one after another. -/
theorem merge_foldl (rs : List Report) : a.merge (rs.foldl merge b) = rs.foldl merge (a.merge b) := by
  induction rs generalizing b with
  | nil => rfl
  | cons r rs ih => rw [List.foldl_cons, ih, ← merge_assoc, List.foldl_cons]

theorem untimed_foldl (rs : List Report) :
    (rs.foldl merge a).untimed = (rs.map untimed).foldl merge a.untimed := by
  induction rs generalizing a with
  | nil => rfl
  | cons r rs ih => rw [List.foldl_cons, ih, untimed_merge, List.map_cons, List.foldl_cons]

/-- The counts of a report are those of its problems. -/
structure Counted (r : Report) : Prop where
  errors : r.errorCount = r.diagnostics.countP (·.severity == .error)
  warnings : r.warningCount = r.diagnostics.countP (·.severity == .warning)
  infos : r.infoCount = r.diagnostics.countP (·.severity == .info)

theorem counted_empty : Counted {} := ⟨rfl, rfl, rfl⟩

theorem Counted.addDiagnostic (h : a.Counted) (d : Diagnostic) : (a.addDiagnostic d).Counted := by
  obtain ⟨herrors, hwarnings, hinfos⟩ := h
  unfold Report.addDiagnostic
  split <;> constructor <;> simp [*]

theorem Counted.merge (h : a.Counted) (h' : b.Counted) : (a.merge b).Counted := by
  constructor <;> simp only [Report.merge, List.countP_append]
  · rw [h.errors, h'.errors]
  · rw [h.warnings, h'.warnings]
  · rw [h.infos, h'.infos]

/-- Problems are added at the end, and counted. -/
theorem foldl_addDiagnostic (ds : List Diagnostic) (h : a.Counted) :
    (ds.foldl addDiagnostic a).diagnostics = a.diagnostics ++ ds ∧
      (ds.foldl addDiagnostic a).Counted := by
  induction ds generalizing a with
  | nil => exact ⟨(List.append_nil _).symm, h⟩
  | cons d ds ih =>
    obtain ⟨hdiagnostics, hcounted⟩ := ih (h.addDiagnostic d)
    have hadded : (a.addDiagnostic d).diagnostics = a.diagnostics ++ [d] := by
      unfold addDiagnostic
      split <;> rfl
    rw [List.foldl_cons, hdiagnostics, hadded, List.append_assoc]
    exact ⟨rfl, hcounted⟩

def has (severity : Severity) (r : Report) : Bool := r.diagnostics.any (·.severity == severity)

theorem has_iff {severity : Severity} :
    a.has severity = true ↔ ∃ d ∈ a.diagnostics, d.severity = severity := by
  simp [has]

theorem Counted.hasErrors_eq (h : a.Counted) : a.hasErrors = a.has .error := by
  rw [Bool.eq_iff_iff, hasErrors, h.errors]
  simp [has, List.countP_pos_iff]

theorem Counted.hasWarnings_eq (h : a.Counted) : a.hasWarnings = a.has .warning := by
  rw [Bool.eq_iff_iff, hasWarnings, h.warnings]
  simp [has, List.countP_pos_iff]

/-- The exit code tells the highest severity of all problems. -/
theorem Counted.exitCode_iff (h : a.Counted) :
    (a.exitCode = 2 ↔ ∃ d ∈ a.diagnostics, d.severity = .error) ∧
    (a.exitCode = 1 ↔ (∃ d ∈ a.diagnostics, d.severity = .warning) ∧
      ∀ d ∈ a.diagnostics, d.severity ≠ .error) ∧
    (a.exitCode = 0 ↔ ∀ d ∈ a.diagnostics, d.severity = .info) := by
  have herrors : 0 < a.errorCount ↔ ∃ d ∈ a.diagnostics, d.severity = .error := by
    rw [← has_iff, ← h.hasErrors_eq, hasErrors, decide_eq_true_iff]
  have hwarnings : 0 < a.warningCount ↔ ∃ d ∈ a.diagnostics, d.severity = .warning := by
    rw [← has_iff, ← h.hasWarnings_eq, hasWarnings, decide_eq_true_iff]
  have hinfos : (∀ d ∈ a.diagnostics, d.severity = .info) ↔
      ¬ 0 < a.errorCount ∧ ¬ 0 < a.warningCount := by
    rw [herrors, hwarnings]
    constructor
    · intro hall
      constructor
      · rintro ⟨d, hd, hseverity⟩
        cases hseverity.symm.trans (hall d hd)
      · rintro ⟨d, hd, hseverity⟩
        cases hseverity.symm.trans (hall d hd)
    · rintro ⟨hnoError, hnoWarning⟩ d hd
      cases hseverity : d.severity with
      | error => exact absurd ⟨d, hd, hseverity⟩ hnoError
      | warning => exact absurd ⟨d, hd, hseverity⟩ hnoWarning
      | info => rfl
  have hnone : (∀ d ∈ a.diagnostics, d.severity ≠ .error) ↔ ¬ 0 < a.errorCount := by
    simp [herrors]
  rw [← herrors, ← hwarnings, hinfos, hnone, exitCode]
  by_cases herror : 0 < a.errorCount <;> by_cases hwarning : 0 < a.warningCount <;>
    simp [herror, hwarning]

end

end Report

end Subscriptions
