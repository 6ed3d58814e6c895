import Mathlib.Data.String.Basic
import Subscriptions.Proofs.Config.Tables
import Subscriptions.Suppression

namespace Subscriptions.Suppressions

section
variable {d e : Disable} {ds : List Disable} {s : Suppressions} {id other : String}
  {line number : Nat}

/-- The rule is marked on the line, or for the file if the line is zero. -/
def Marks (s : Suppressions) (id : String) (line : Nat) : Prop :=
  if line = fileLevel then id ∈ s.fileRules else line ∈ (s.ruleLines.lookup id).getD []

/-- Nothing is kept twice, no rule has an empty set of lines, and no line stands for the file. -/
structure Tidy (s : Suppressions) : Prop where
  fileRules : s.fileRules.Nodup
  rules : (names s.ruleLines).Nodup
  sets : ∀ id ls, s.ruleLines.lookup id = some ls → ls ≠ [] ∧ ls.Nodup ∧ fileLevel ∉ ls

theorem tidy_empty : Tidy {} where
  fileRules := .nil
  rules := .nil
  sets := fun _ _ h => nomatch h

theorem Tidy.getD (h : s.Tidy) (id : String) :
    ((s.ruleLines.lookup id).getD []).Nodup ∧ fileLevel ∉ (s.ruleLines.lookup id).getD [] := by
  cases hid : s.ruleLines.lookup id with
  | none => exact ⟨.nil, List.not_mem_nil⟩
  | some ls => exact (h.sets id ls hid).2

theorem Tidy.mark (h : s.Tidy) (id : String) (line : Nat) : (s.mark id line).Tidy := by
  unfold Suppressions.mark
  split
  · exact ⟨h.fileRules.insert, h.rules, h.sets⟩
  · rename_i hline
    refine ⟨h.fileRules, ?_, fun other ls hls => ?_⟩
    · rw [names_putEntry]
      exact nodup_addMissing h.rules
    · obtain ⟨hnodup, hfile⟩ := h.getD id
      by_cases hid : other = id
      · subst hid
        rw [lookup_putEntry_self, Option.some.injEq] at hls
        subst hls
        refine ⟨List.ne_nil_of_mem (List.mem_insert_self ..), hnodup.insert, ?_⟩
        rw [List.mem_insert_iff]
        rintro (hzero | hmem)
        · exact hline hzero.symm
        · exact hfile hmem
      · rw [lookup_putEntry_of_ne hid] at hls
        exact h.sets other ls hls

theorem marks_mark : (s.mark other number).Marks id line ↔
    other = id ∧ number = line ∨ s.Marks id line := by
  unfold Suppressions.mark
  by_cases hnumber : number = fileLevel
  · rw [if_pos hnumber]
    by_cases hline : line = fileLevel
    · simp [Marks, hline, hnumber, List.mem_insert_iff, eq_comm]
    · simp [Marks, hline, hnumber, Ne.symm hline]
  · rw [if_neg hnumber]
    by_cases hline : line = fileLevel
    · simp [Marks, hline, hnumber]
    · by_cases hid : id = other
      · subst hid
        simp [Marks, hline, lookup_putEntry_self, List.mem_insert_iff, eq_comm]
      · simp [Marks, hline, lookup_putEntry_of_ne hid, Ne.symm hid]

/-- Marking a place gives no reason. -/
theorem reasons_mark : (s.mark id line).reasons = s.reasons := by
  unfold Suppressions.mark
  split <;> rfl

theorem insert_eq (s : Suppressions) (d : Disable) : ∃ reasons,
    s.insert d = { s.mark d.ruleId d.line with reasons := reasons } := by
  unfold Suppressions.insert
  split
  · exact ⟨_, rfl⟩
  · exact ⟨_, rfl⟩

theorem Tidy.insert (h : s.Tidy) (d : Disable) : (s.insert d).Tidy := by
  obtain ⟨reasons, hinsert⟩ := insert_eq s d
  have hmark := h.mark d.ruleId d.line
  rw [hinsert]
  exact ⟨hmark.fileRules, hmark.rules, hmark.sets⟩

theorem marks_insert : (s.insert d).Marks id line ↔
    d.ruleId = id ∧ d.line = line ∨ s.Marks id line := by
  obtain ⟨reasons, hinsert⟩ := insert_eq s d
  rw [hinsert, ← marks_mark]
  rfl

/-- A reason replaces the one for its rule and line. A disable without one leaves them all. -/
theorem ownReason?_insert : (s.insert d).ownReason? id line =
    (if d.ruleId = id ∧ d.line = line then d.reason else none).or (s.ownReason? id line) := by
  unfold Suppressions.insert ownReason?
  split
  · rename_i hreason
    rw [reasons_mark, hreason, ite_self, Option.none_or]
  · rename_i reason hreason
    rw [hreason]
    by_cases hid : id = d.ruleId
    · subst hid
      rw [lookup_putEntry_self, Option.bind_some]
      by_cases hline : line = d.line
      · subst hline
        simp [lookup_putEntry_self]
      · rw [lookup_putEntry_of_ne hline, if_neg fun h => hline h.2.symm, Option.none_or]
        cases s.reasons.lookup d.ruleId <;> rfl
    · rw [lookup_putEntry_of_ne hid, if_neg fun h => hid h.1.symm, Option.none_or]

def Lists (ds : List Disable) (id : String) (line : Nat) : Prop :=
  ∃ d ∈ ds, d.ruleId = id ∧ d.line = line

def lastReason? (ds : List Disable) (ruleId : String) (line : Nat) : Option String :=
  (ds.filter fun d => d.ruleId == ruleId && d.line == line).reverse.findSome? (·.reason)

/-- The tables hold what the disables say that were taken on one after another. -/
structure Holds (s : Suppressions) (ds : List Disable) : Prop where
  tidy : s.Tidy
  places : ∀ id line, s.Marks id line ↔ Lists ds id line
  reasons : ∀ id line, s.ownReason? id line = lastReason? ds id line

theorem holds_empty : Holds {} [] where
  tidy := tidy_empty
  places := fun id line => by simp [Marks, Lists]
  reasons := fun _ _ => rfl

theorem Holds.insert (h : s.Holds ds) (d : Disable) : (s.insert d).Holds (ds ++ [d]) where
  tidy := h.tidy.insert d
  places := fun id line => by
    rw [marks_insert, h.places, or_comm]
    simp only [Lists, List.mem_append, or_and_right, exists_or, List.mem_singleton, exists_eq_left]
  reasons := fun id line => by
    rw [ownReason?_insert, h.reasons]
    by_cases hd : d.ruleId = id ∧ d.line = line
    · simp [lastReason?, hd, List.findSome?_cons]
      cases d.reason <;> rfl
    · rw [if_neg hd, Option.none_or]
      simp [lastReason?, hd]

theorem Holds.foldl (h : s.Holds ds) (later : List Disable) :
    (later.foldl Suppressions.insert s).Holds (ds ++ later) := by
  induction later generalizing s ds with
  | nil => rwa [List.append_nil]
  | cons d later ih =>
    have hlater := ih (h.insert d)
    rwa [List.append_assoc] at hlater

theorem holds_ofSource (marker : String) (source : List Char) :
    (ofSource marker source).Holds (written marker source) :=
  holds_empty.foldl (written marker source)

theorem mem_listed (h : s.Tidy) : e ∈ s.listed ↔
    s.Marks e.ruleId e.line ∧ e.reason = s.ownReason? e.ruleId e.line := by
  obtain ⟨line, id, reason⟩ := e
  simp only [listed, List.mem_append, List.mem_map, List.mem_flatMap, Disable.mk.injEq, Prod.exists,
    ← lookup_eq_some_iff h.rules]
  constructor
  · rintro (⟨other, hother, rfl, rfl, rfl⟩ | ⟨other, ls, hls, number, hnumber, rfl, rfl, rfl⟩)
    · exact ⟨by rwa [Marks, if_pos rfl], rfl⟩
    · obtain ⟨-, -, hfile⟩ := h.sets other ls hls
      have hline : number ≠ fileLevel := fun hzero => hfile (hzero ▸ hnumber)
      exact ⟨by rwa [Marks, if_neg hline, hls], rfl⟩
  · rintro ⟨hmarks, rfl⟩
    by_cases hline : line = fileLevel
    · subst hline
      rw [Marks, if_pos rfl] at hmarks
      exact .inl ⟨id, hmarks, rfl, rfl, rfl⟩
    · rw [Marks, if_neg hline] at hmarks
      cases hls : s.ruleLines.lookup id with
      | none => simp [hls] at hmarks
      | some ls => exact .inr ⟨id, ls, hls, line, by simpa [hls] using hmarks, rfl, rfl, rfl⟩

/-- Two disables are for different rules or on different lines. -/
def Apart (d e : Disable) : Prop := d.line ≠ e.line ∨ d.ruleId ≠ e.ruleId

theorem Apart.symm (h : Apart d e) : Apart e d := h.imp Ne.symm Ne.symm

theorem pairwise_listed (h : s.Tidy) : s.listed.Pairwise Apart := by
  refine List.pairwise_append.mpr ⟨?_, ?_, ?_⟩
  · exact List.pairwise_map.mpr (h.fileRules.imp fun hne => .inr hne)
  · refine List.pairwise_flatMap.mpr ⟨fun e he => ?_, ?_⟩
    · have hls := (lookup_eq_some_iff h.rules).mpr he
      exact List.pairwise_map.mpr ((h.sets e.1 e.2 hls).2.1.imp fun hne => .inl hne)
    · refine (List.pairwise_map.mp h.rules).imp fun hne d hd e he => ?_
      obtain ⟨_, -, rfl⟩ := List.mem_map.mp hd
      obtain ⟨_, -, rfl⟩ := List.mem_map.mp he
      exact .inr hne
  · intro d hd e he
    obtain ⟨id, -, rfl⟩ := List.mem_map.mp hd
    obtain ⟨⟨other, ls⟩, hentry, he⟩ := List.mem_flatMap.mp he
    obtain ⟨line, hline, rfl⟩ := List.mem_map.mp he
    have hls := (lookup_eq_some_iff h.rules).mpr hentry
    refine .inl fun hzero => (h.sets other ls hls).2.2 ?_
    rwa [show fileLevel = line from hzero]

theorem before_iff :
    before d e = true ↔ d.line < e.line ∨ d.line = e.line ∧ d.ruleId < e.ruleId := by
  simp [before]

theorem not_before_iff : (!before e d) = true ↔
    d.line < e.line ∨ d.line = e.line ∧ d.ruleId ≤ e.ruleId := by
  rw [Bool.not_eq_true', ← Bool.not_eq_true, before_iff, not_or, not_and, not_lt, not_lt]
  constructor
  · rintro ⟨hle, hid⟩
    exact hle.lt_or_eq.imp_right fun heq => ⟨heq, hid heq.symm⟩
  · rintro (hlt | ⟨heq, hid⟩)
    · exact ⟨hlt.le, fun h => absurd h (Nat.ne_of_gt hlt)⟩
    · exact ⟨heq.le, fun _ => hid⟩

theorem before_of_apart (h : Apart d e) (hde : (!before e d) = true) : before d e = true := by
  rw [not_before_iff] at hde
  rw [before_iff]
  refine hde.imp_right fun ⟨hline, hid⟩ => ⟨hline, lt_of_le_of_ne hid ?_⟩
  exact h.resolve_left (not_not.mpr hline)

theorem not_before_trans (a b c : Disable) (hab : (!before b a) = true)
    (hbc : (!before c b) = true) : (!before c a) = true := by
  rw [not_before_iff] at *
  rcases hab with hab | ⟨hab, hid⟩
  · left
    omega
  · rcases hbc with hbc | ⟨hbc, hid'⟩
    · left
      omega
    · exact .inr ⟨hab.trans hbc, hid.trans hid'⟩

theorem not_before_total (a b : Disable) : ((!before b a) || (!before a b)) = true := by
  rw [Bool.or_eq_true, not_before_iff, not_before_iff]
  rcases lt_trichotomy a.line b.line with hlt | heq | hgt
  · exact .inl (.inl hlt)
  · exact (le_total a.ruleId b.ruleId).imp (fun h => .inr ⟨heq, h⟩) fun h => .inr ⟨heq.symm, h⟩
  · exact .inr (.inl hgt)

theorem pairwise_mergeSort (h : ds.Pairwise Apart) :
    (ds.mergeSort fun a b => !before b a).Pairwise (before · ·) := by
  have hapart := ((List.mergeSort_perm ds fun a b => !before b a).pairwise_iff Apart.symm).mpr h
  have hsorted := List.pairwise_mergeSort not_before_trans not_before_total ds
  exact hapart.imp₂ (fun _ _ => before_of_apart) hsorted

/-- The disables are listed in order, each place once. -/
theorem pairwise_all (h : s.Tidy) : s.all.Pairwise (before · ·) :=
  pairwise_mergeSort (pairwise_listed h)

/-- The list does not depend on the order in which the tables are gone through. -/
theorem mergeSort_eq_all (h : s.Tidy) (hds : ds.Perm s.listed) :
    (ds.mergeSort fun a b => !before b a) = s.all := by
  have hperm : (ds.mergeSort fun a b => !before b a).Perm s.all :=
    (List.mergeSort_perm ds _).trans (hds.trans (List.mergeSort_perm s.listed _).symm)
  have hsorted := pairwise_mergeSort ((hds.pairwise_iff Apart.symm).mpr (pairwise_listed h))
  refine hperm.eq_of_pairwise (fun d e _ _ hde hed => ?_) hsorted (pairwise_all h)
  rw [before_iff] at hde hed
  rcases hde with hde | ⟨hline, hid⟩
  · omega
  · exact absurd (hed.resolve_left (by omega)).2 hid.asymm

theorem nodup_all (h : s.Tidy) : s.all.Nodup := by
  refine (pairwise_all h).imp fun {d e} hde heq => ?_
  rw [heq, before_iff] at hde
  rcases hde with hline | ⟨-, hid⟩
  · exact Nat.lt_irrefl _ hline
  · exact lt_irrefl _ hid

/-- The disables that are listed have the places that were written, each with its last reason. -/
theorem Holds.mem_all (h : s.Holds ds) :
    e ∈ s.all ↔ Lists ds e.ruleId e.line ∧ e.reason = lastReason? ds e.ruleId e.line := by
  rw [all, (List.mergeSort_perm _ _).mem_iff, mem_listed h.tidy, h.places, h.reasons]

theorem Holds.lists_all (h : s.Holds ds) : Lists s.all id line ↔ Lists ds id line := by
  constructor
  · rintro ⟨d, hd, rfl, rfl⟩
    exact (h.mem_all.mp hd).1
  · intro hlists
    exact ⟨⟨line, id, lastReason? ds id line⟩, h.mem_all.mpr ⟨hlists, rfl⟩, rfl, rfl⟩

theorem lastReason?_of_same {reason : Option String} (hlists : Lists ds id line)
    (hsame : ∀ d ∈ ds, d.reason = reason) : lastReason? ds id line = reason := by
  obtain ⟨d, hd, hid, hline⟩ := hlists
  have hmem : d ∈ (ds.filter fun d => d.ruleId == id && d.line == line).reverse := by
    simp [hd, hid, hline]
  have hall : ∀ e ∈ (ds.filter fun d => d.ruleId == id && d.line == line).reverse,
      e.reason = reason :=
    fun e he => hsame e (List.mem_filter.mp (List.mem_reverse.mp he)).1
  rw [lastReason?]
  generalize (ds.filter fun d => d.ruleId == id && d.line == line).reverse = later at hmem hall
  cases reason with
  | none => exact List.findSome?_eq_none_iff.mpr hall
  | some reason =>
    obtain ⟨f, later, rfl⟩ := List.exists_cons_of_ne_nil (List.ne_nil_of_mem hmem)
    rw [List.findSome?_cons, hall f List.mem_cons_self]

/-- Disables for one line that give the same reason are listed as they are written. -/
theorem Holds.mem_all_of_same {reason : Option String} (h : s.Holds ds)
    (hsame : ∀ d ∈ ds, d.line = line ∧ d.reason = reason) : e ∈ s.all ↔ e ∈ ds := by
  rw [h.mem_all]
  constructor
  · rintro ⟨hlists, hreason⟩
    rw [lastReason?_of_same hlists fun d hd => (hsame d hd).2] at hreason
    obtain ⟨d, hd, hid, hline⟩ := hlists
    have hgives : d.reason = e.reason := (hsame d hd).2.trans hreason.symm
    obtain ⟨n, id, r⟩ := e
    cases d
    cases hid
    cases hline
    cases hgives
    exact hd
  · intro he
    refine ⟨⟨e, he, rfl, rfl⟩, ?_⟩
    rw [lastReason?_of_same ⟨e, he, rfl, rfl⟩ fun d hd => (hsame d hd).2, (hsame e he).2]

end

end Subscriptions.Suppressions
