import Subscriptions.Proofs.Suppression.Listing

namespace Subscriptions.Suppressions

open Text

section
variable {s : Suppressions} {ds : List Disable} {id : String} {line : Nat}

/-- What is asked of the place of a disable may be asked of the list of all disables. -/
theorem Holds.exists_mem_all (h : s.Holds ds) (p : String → Nat → Prop) :
    (∃ d ∈ s.all, p d.ruleId d.line) ↔ ∃ d ∈ ds, p d.ruleId d.line := by
  constructor
  · rintro ⟨d, hd, hp⟩
    obtain ⟨e, he, hid, hline⟩ := (h.mem_all.mp hd).1
    exact ⟨e, he, by rwa [hid, hline]⟩
  · rintro ⟨d, hd, hp⟩
    obtain ⟨e, he, hid, hline⟩ := h.lists_all.mpr ⟨d, hd, rfl, rfl⟩
    exact ⟨e, he, by rwa [hid, hline]⟩

theorem all_eq_nil (h : s.Tidy) : s.all = [] ↔ s.isEmpty = true := by
  have hsets : (∀ e ∈ s.ruleLines,
      (e.2.map fun line => Disable.mk line e.1 (s.ownReason? e.1 line)) = []) ↔
        s.ruleLines = [] := by
    rw [List.eq_nil_iff_forall_not_mem]
    refine forall₂_congr fun e he => iff_of_false (fun hnil => ?_) not_false
    have hls := (lookup_eq_some_iff h.rules).mpr he
    exact (h.sets e.1 e.2 hls).1 (List.map_eq_nil_iff.mp hnil)
  rw [all, ← List.length_eq_zero_iff, List.length_mergeSort, List.length_eq_zero_iff, listed,
    List.append_eq_nil_iff, List.map_eq_nil_iff, List.flatMap_eq_nil_iff, hsets, isEmpty,
    Bool.and_eq_true, List.isEmpty_iff, List.isEmpty_iff, and_comm]

theorem disablesFile_iff_marks : s.disablesFile id = true ↔
    s.Marks id fileLevel ∨ s.Marks allRules fileLevel := by
  simp [disablesFile, Marks]

theorem any_contains_iff (h : s.Tidy) : (s.ruleLines.lookup id).any (·.contains line) = true ↔
    line ≠ fileLevel ∧ s.Marks id line := by
  cases hid : s.ruleLines.lookup id with
  | none => simp +contextual [Marks, hid]
  | some ls =>
    -- no line in the sets stands for the file
    have hfile := (h.sets id ls hid).2.2
    by_cases hline : line = fileLevel
    · simp [hline, hfile]
    · simp [Marks, hline, hid]

theorem disables_iff_marks (h : s.Tidy) : s.disables id line = true ↔
    ∃ i n, s.Marks i n ∧ (i = id ∨ i = allRules) ∧ (n = line ∨ n = fileLevel) := by
  simp only [disables, Bool.or_eq_true, disablesFile_iff_marks, List.any_cons, List.any_nil,
    Bool.false_eq_true, or_false, any_contains_iff h]
  constructor
  · rintro ((hid | hall) | (⟨-, hid⟩ | ⟨-, hall⟩))
    · exact ⟨id, fileLevel, hid, .inl rfl, .inr rfl⟩
    · exact ⟨allRules, fileLevel, hall, .inr rfl, .inr rfl⟩
    · exact ⟨id, line, hid, .inl rfl, .inl rfl⟩
    · exact ⟨allRules, line, hall, .inr rfl, .inl rfl⟩
  · rintro ⟨i, n, hmarks, hi, hn⟩
    by_cases hfile : n = fileLevel
    · subst hfile
      rcases hi with rfl | rfl
      · exact .inl (.inl hmarks)
      · exact .inl (.inr hmarks)
    · obtain rfl := hn.resolve_right hfile
      rcases hi with rfl | rfl
      · exact .inr (.inl ⟨hfile, hmarks⟩)
      · exact .inr (.inr ⟨hfile, hmarks⟩)

/-- A rule is disabled where a disable was written for it or for all rules. -/
theorem Holds.disables_iff (h : s.Holds ds) : s.disables id line = true ↔
    ∃ d ∈ ds, (d.ruleId = id ∨ d.ruleId = allRules) ∧ (d.line = line ∨ d.line = fileLevel) := by
  rw [disables_iff_marks h.tidy]
  simp only [h.places]
  constructor
  · rintro ⟨_, _, ⟨d, hd, rfl, rfl⟩, hplace⟩
    exact ⟨d, hd, hplace⟩
  · rintro ⟨d, hd, hplace⟩
    exact ⟨d.ruleId, d.line, ⟨d, hd, rfl, rfl⟩, hplace⟩

theorem Holds.disablesFile_iff (h : s.Holds ds) : s.disablesFile id = true ↔
    ∃ d ∈ ds, (d.ruleId = id ∨ d.ruleId = allRules) ∧ d.line = fileLevel := by
  rw [disablesFile_iff_marks, h.places, h.places]
  constructor
  · rintro (⟨d, hd, hid, hline⟩ | ⟨d, hd, hid, hline⟩)
    · exact ⟨d, hd, .inl hid, hline⟩
    · exact ⟨d, hd, .inr hid, hline⟩
  · rintro ⟨d, hd, hid, hline⟩
    exact hid.imp (fun hid => ⟨d, hd, hid, hline⟩) fun hid => ⟨d, hd, hid, hline⟩

end

/-- The directives of a source in the order in which they are written, with the numbers of their
lines. -/
def directives (marker : String) (source : List Char) : List (Nat × Directive) :=
  ((lines source).zipIdx 1).flatMap fun l =>
    (Directive.inLine marker.toList (l.1.length + 1) l.1).map (l.2, ·)

theorem written_eq (marker : String) (source : List Char) :
    written marker source =
      (directives marker source).flatMap fun x => ofDirective x.1 x.2 := by
  have hlines (ls : List (List Char)) (number : Nat) : ofLines marker.toList number ls =
      ((ls.zipIdx number).flatMap fun l => (Directive.inLine marker.toList (l.1.length + 1) l.1).map
        (l.2, ·)).flatMap fun x => ofDirective x.1 x.2 := by
    induction ls generalizing number with
    | nil => rfl
    | cons l ls ih =>
      rw [ofLines, ih, List.zipIdx_cons, List.flatMap_cons, List.flatMap_append, ofLine,
        List.flatMap_map]
  exact hlines (lines source) 1

section
variable {s : Suppressions} {ds : List Disable} {id : String} {line : Nat} {x y : Nat × Directive}
  {xs : List (Nat × Directive)} {reason : String}

/-- The reason that the directive of a line gives for just this rule id and just this line. -/
def reasonFor? (id : String) (line : Nat) (x : Nat × Directive) : Option String :=
  if id ∈ x.2.ruleIds ∧ x.2.scope.target x.1 = line then x.2.reason else none

theorem lastReason?_cons (d : Disable) (ds : List Disable) : lastReason? (d :: ds) id line =
    (lastReason? ds id line).or (if d.ruleId = id ∧ d.line = line then d.reason else none) := by
  by_cases h : d.ruleId = id ∧ d.line = line
  · simp [lastReason?, h]
  · rw [if_neg h, Option.or_none]
    simp [lastReason?, h]

/-- All the rule ids of a directive have its reason. -/
theorem lastReason?_ofDirective (x : Nat × Directive) :
    lastReason? (ofDirective x.1 x.2) id line = reasonFor? id line x := by
  obtain ⟨number, scope, ids, reason⟩ := x
  simp only [ofDirective, reasonFor?]
  induction ids with
  | nil => simp [lastReason?]
  | cons other ids ih =>
    rw [List.map_cons, lastReason?_cons, ih]
    by_cases hline : scope.target number = line
    · by_cases hid : other = id
      · by_cases hlater : id ∈ ids <;> simp [hline, hid, hlater]
      · simp [hline, hid, Ne.symm hid]
    · simp [hline]

theorem lastReason?_flatMap (xs : List (Nat × Directive)) :
    lastReason? (xs.flatMap fun x => ofDirective x.1 x.2) id line =
      xs.reverse.findSome? (reasonFor? id line) := by
  induction xs with
  | nil => rfl
  | cons x xs ih =>
    rw [List.reverse_cons, List.findSome?_append, ← ih, List.findSome?_singleton,
      ← lastReason?_ofDirective]
    simp [lastReason?, List.findSome?_append]

/-- The last element that has an image. -/
theorem exists_last {α β : Type} {f : α → Option β} {xs : List α} {b : β}
    (h : xs.reverse.findSome? f = some b) : ∃ (i : Nat) (x : α), xs[i]? = some x ∧ f x = some b ∧
      ∀ (j : Nat) (y : α), xs[j]? = some y → (f y).isSome = true → j ≤ i := by
  induction xs with
  | nil => simp at h
  | cons x xs ih =>
    rw [List.reverse_cons, List.findSome?_append, Option.or_eq_some_iff] at h
    rcases h with h | ⟨hnone, h⟩
    · obtain ⟨i, y, hy, hb, hlast⟩ := ih h
      refine ⟨i + 1, y, hy, hb, fun j z hz hsome => ?_⟩
      cases j with
      | zero => omega
      | succ j => exact Nat.succ_le_succ (hlast j z hz hsome)
    · refine ⟨0, x, rfl, by simpa using h, fun j z hz hsome => ?_⟩
      cases j with
      | zero => exact Nat.le_refl 0
      | succ j =>
        have hmem : z ∈ xs.reverse := List.mem_reverse.mpr (List.mem_of_getElem? hz)
        rw [List.findSome?_eq_none_iff.mp hnone z hmem] at hsome
        cases hsome

/-- The directive disables the rule on the line, by its own id or with all rules, there or for the
file. -/
def Applies (id : String) (line : Nat) (x : Nat × Directive) : Prop :=
  (id ∈ x.2.ruleIds ∨ allRules ∈ x.2.ruleIds) ∧
    (x.2.scope.target x.1 = line ∨ x.2.scope.target x.1 = fileLevel)

/-- How near a directive comes to a rule and a line: its own id counts for more than the line. -/
def rank (id : String) (line : Nat) (x : Nat × Directive) : Nat :=
  (if id ∈ x.2.ruleIds then 2 else 0) + if x.2.scope.target x.1 = line then 1 else 0

def named (id : String) (line : Nat) : Nat → String × Nat
  | 0 => (allRules, fileLevel)
  | 1 => (allRules, line)
  | 2 => (id, fileLevel)
  | _ => (id, line)

theorem rank_le (id : String) (line : Nat) (x : Nat × Directive) : rank id line x ≤ 3 := by
  unfold rank
  split <;> split <;> decide

theorem reasonFor?_rank (h : Applies id line x) :
    reasonFor? (named id line (rank id line x)).1 (named id line (rank id line x)).2 x =
      x.2.reason := by
  obtain ⟨hid, hline⟩ := h
  by_cases hown : id ∈ x.2.ruleIds <;> by_cases hhere : x.2.scope.target x.1 = line <;>
    simp_all [rank, named, reasonFor?]

theorem reasonFor?_eq_some : reasonFor? id line x = some reason ↔
    (id ∈ x.2.ruleIds ∧ x.2.scope.target x.1 = line) ∧ x.2.reason = some reason := by
  rw [reasonFor?, Option.ite_none_right_eq_some]

theorem applies_of_named {k : Nat} (hk : k ≤ 3) (hid : (named id line k).1 ∈ x.2.ruleIds)
    (hline : x.2.scope.target x.1 = (named id line k).2) :
    k ≤ rank id line x ∧ Applies id line x := by
  obtain rfl | rfl | rfl | rfl : k = 0 ∨ k = 1 ∨ k = 2 ∨ k = 3 := by omega
  all_goals simp_all [named, rank, Applies]

/-- The reason is asked for by rank, from the highest one down. -/
theorem Holds.reason?_eq (h : s.Holds ds) : s.reason? id line =
    [3, 2, 1, 0].findSome? fun k => lastReason? ds (named id line k).1 (named id line k).2 := by
  have hown (id : String) : ((s.reasons.lookup id).bind fun lines =>
      (lines.lookup line).or (lines.lookup fileLevel)) =
        (lastReason? ds id line).or (lastReason? ds id fileLevel) := by
    rw [← h.reasons, ← h.reasons, ownReason?, ownReason?]
    cases s.reasons.lookup id <;> rfl
  simp only [reason?, hown, List.findSome?_cons, List.findSome?_nil, named]
  grind

theorem Holds.exists_rank (hs : s.Holds ds) (h : s.reason? id line = some reason) : ∃ k ≤ 3,
    lastReason? ds (named id line k).1 (named id line k).2 = some reason ∧
    ∀ l ≤ 3, k < l → lastReason? ds (named id line l).1 (named id line l).2 = none := by
  rw [hs.reason?_eq, List.findSome?_eq_some_iff] at h
  obtain ⟨higher, k, lower, hsplit, hanswer, hnone⟩ := h
  have hsorted : (higher ++ k :: lower).Pairwise (· > ·) := by rw [← hsplit]; decide
  have hmem (l : Nat) : l ∈ higher ++ k :: lower ↔ l ≤ 3 := by
    rw [← hsplit]
    simp
    omega
  have hlower := (List.pairwise_cons.mp (List.pairwise_append.mp hsorted).2.1).1
  refine ⟨k, (hmem k).mp (by simp), hanswer, fun l hl hkl => hnone l ?_⟩
  rcases List.mem_append.mp ((hmem l).mpr hl) with hin | hin
  · exact hin
  · rcases List.mem_cons.mp hin with rfl | hin
    · exact absurd hkl (Nat.lt_irrefl _)
    · exact absurd (hlower l hin) (Nat.lt_asymm hkl)

/-- The directive gives a reason for the rule on the line, and of all such directives it ranks
highest; of those that rank as high it is the last one. -/
def Explains (xs : List (Nat × Directive)) (id : String) (line : Nat) (reason : String) : Prop :=
  ∃ (i : Nat) (x : Nat × Directive), xs[i]? = some x ∧ Applies id line x ∧
    x.2.reason = some reason ∧
    ∀ (j : Nat) (y : Nat × Directive), xs[j]? = some y → Applies id line y →
      y.2.reason.isSome = true →
      rank id line y < rank id line x ∨ rank id line y = rank id line x ∧ j ≤ i

theorem explains_of_reason? (hs : s.Holds (xs.flatMap fun x => ofDirective x.1 x.2))
    (h : s.reason? id line = some reason) : Explains xs id line reason := by
  obtain ⟨k, hk, hlast, hnone⟩ := hs.exists_rank h
  simp only [lastReason?_flatMap] at hlast hnone
  obtain ⟨i, x, hx, hreason, hlater⟩ := exists_last hlast
  obtain ⟨⟨hid, hline⟩, hgives⟩ := reasonFor?_eq_some.mp hreason
  obtain ⟨hrank, happlies⟩ := applies_of_named hk hid hline
  -- A directive of a higher rank would have been asked first.
  have hhighest (j : Nat) (y : Nat × Directive) (hy : xs[j]? = some y)
      (happlies : Applies id line y) (hsome : y.2.reason.isSome = true) : rank id line y ≤ k := by
    by_contra hlt
    have hno := hnone (rank id line y) (rank_le id line y) (by omega)
    have hmem : y ∈ xs.reverse := List.mem_reverse.mpr (List.mem_of_getElem? hy)
    rw [← reasonFor?_rank happlies, List.findSome?_eq_none_iff.mp hno y hmem] at hsome
    cases hsome
  have hxrank : rank id line x = k :=
    Nat.le_antisymm (hhighest i x hx happlies (by rw [hgives]; rfl)) hrank
  refine ⟨i, x, hx, happlies, hgives, fun j y hy hyapplies hsome => ?_⟩
  rw [hxrank]
  rcases (hhighest j y hy hyapplies hsome).lt_or_eq with hlt | heq
  · exact .inl hlt
  · refine .inr ⟨heq, hlater j y hy ?_⟩
    rwa [← heq, reasonFor?_rank hyapplies]

theorem Explains.unique {other : String} (h : Explains xs id line reason)
    (h' : Explains xs id line other) : reason = other := by
  obtain ⟨i, x, hx, happlies, hreason, hfirst⟩ := h
  obtain ⟨j, y, hy, happlies', hreason', hfirst'⟩ := h'
  have hle := hfirst j y hy happlies' (by rw [hreason']; rfl)
  have hge := hfirst' i x hx happlies (by rw [hreason]; rfl)
  obtain rfl : i = j := by omega
  rw [hx, Option.some.injEq] at hy
  subst hy
  exact Option.some.inj (hreason.symm.trans hreason')

theorem isSome_reason? (hs : s.Holds (xs.flatMap fun x => ofDirective x.1 x.2)) (hx : x ∈ xs)
    (happlies : Applies id line x) (hsome : x.2.reason.isSome = true) :
    (s.reason? id line).isSome = true := by
  rw [Option.isSome_iff_ne_none, hs.reason?_eq]
  intro hnone
  have hk : rank id line x ∈ [3, 2, 1, 0] := by
    have hle := rank_le id line x
    simp
    omega
  have hno := List.findSome?_eq_none_iff.mp hnone _ hk
  rw [lastReason?_flatMap] at hno
  have hthere := List.findSome?_eq_none_iff.mp hno x (List.mem_reverse.mpr hx)
  rw [reasonFor?_rank happlies] at hthere
  rw [hthere] at hsome
  cases hsome

theorem reason?_iff (hs : s.Holds (xs.flatMap fun x => ofDirective x.1 x.2)) :
    s.reason? id line = some reason ↔ Explains xs id line reason := by
  refine ⟨explains_of_reason? hs, fun h => ?_⟩
  have hchosen := h
  obtain ⟨i, x, hx, happlies, hreason, -⟩ := hchosen
  obtain ⟨other, hother⟩ := Option.isSome_iff_exists.mp
    (isSome_reason? hs (List.mem_of_getElem? hx) happlies (by rw [hreason]; rfl))
  rw [hother, h.unique (explains_of_reason? hs hother)]

/-- Only a rule that is disabled has a reason. -/
theorem disables_of_explains (hs : s.Holds (xs.flatMap fun x => ofDirective x.1 x.2))
    (h : Explains xs id line reason) : s.disables id line = true := by
  obtain ⟨i, x, hx, ⟨hid, hline⟩, -⟩ := h
  have hmem {named : String} (hnamed : named ∈ x.2.ruleIds) :
      ⟨x.2.scope.target x.1, named, x.2.reason⟩ ∈ xs.flatMap fun x => ofDirective x.1 x.2 :=
    List.mem_flatMap_of_mem (List.mem_of_getElem? hx) (List.mem_map_of_mem hnamed)
  rw [hs.disables_iff]
  rcases hid with hid | hid
  · exact ⟨_, hmem hid, .inl rfl, hline⟩
  · exact ⟨_, hmem hid, .inr rfl, hline⟩

end

/-- The queries about a source agree. The list of all disables is in order, by line and then by rule
id, and is empty just where there is none. A rule is disabled on a line, or in the file, just where
the list has an entry for the rule or for all rules that says so. A reason is given only where the
rule is disabled, and it is the one of the directive that comes nearest: one that names the rule
itself before one for all rules, then one for the line before one for the file, then the last one.
-/
theorem queries_agree (marker : String) (source : List Char) :
    (ofSource marker source).all.Pairwise
      (fun d e => d.line < e.line ∨ d.line = e.line ∧ d.ruleId < e.ruleId) ∧
    ((ofSource marker source).all = [] ↔ (ofSource marker source).isEmpty = true) ∧
    (∀ id line, (ofSource marker source).disables id line = true ↔
      ∃ d ∈ (ofSource marker source).all,
        (d.ruleId = id ∨ d.ruleId = allRules) ∧ (d.line = line ∨ d.line = fileLevel)) ∧
    (∀ id, (ofSource marker source).disablesFile id = true ↔
      ∃ d ∈ (ofSource marker source).all,
        (d.ruleId = id ∨ d.ruleId = allRules) ∧ d.line = fileLevel) ∧
    ∀ id line reason, (ofSource marker source).reason? id line = some reason ↔
      (ofSource marker source).disables id line = true ∧
        Explains (directives marker source) id line reason := by
  have hs := holds_ofSource marker source
  refine ⟨(pairwise_all hs.tidy).imp before_iff.mp, all_eq_nil hs.tidy, fun id line => ?_,
    fun id => ?_, fun id line reason => ?_⟩
  · rw [hs.disables_iff]
    exact (hs.exists_mem_all fun i n => (i = id ∨ i = allRules) ∧ (n = line ∨ n = fileLevel)).symm
  · rw [hs.disablesFile_iff]
    exact (hs.exists_mem_all fun i n => (i = id ∨ i = allRules) ∧ n = fileLevel).symm
  · rw [written_eq] at hs
    rw [reason?_iff hs]
    exact ⟨fun h => ⟨disables_of_explains hs h, h⟩, And.right⟩

/-- The rule's own id for the file comes before all rules for the line. -/
example : (ofSource defaultMarker
    "f(); // subtrack-disable-line all -- a\n// subtrack-disable-file x: b\n".toList).reason? "x" 1 =
    some "b" := by decide

end Subscriptions.Suppressions
