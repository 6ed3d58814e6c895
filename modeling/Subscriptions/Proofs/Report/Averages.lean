import Mathlib.Algebra.Ring.Nat
import Subscriptions.Proofs.Lockstep.Siting
import Subscriptions.Proofs.Report.Merging
import Subscriptions.Report.Timings

namespace Subscriptions

namespace RuleTiming

/-- All that the entries tell of the rule, added up. -/
structure Sums (es : List RuleTiming) (t : RuleTiming) : Prop where
  total : t.total.nanos = ((es.filter (·.ruleId == t.ruleId)).map (·.total.nanos)).sum
  evaluations : t.evaluations = ((es.filter (·.ruleId == t.ruleId)).map (·.evaluations)).sum
  matchCount : t.matchCount = ((es.filter (·.ruleId == t.ruleId)).map (·.matchCount)).sum

section
variable {es : List RuleTiming} {t u : RuleTiming}

/-- An entry for another rule changes nothing. -/
theorem Sums.skip (h : t.Sums es) (hne : u.ruleId ≠ t.ruleId) : t.Sums (es ++ [u]) := by
  have hfilter : (es ++ [u]).filter (·.ruleId == t.ruleId) = es.filter (·.ruleId == t.ruleId) := by
    simp [hne]
  constructor <;> rw [hfilter]
  · exact h.total
  · exact h.evaluations
  · exact h.matchCount

/-- An entry for the rule is added. -/
theorem Sums.add (h : t.Sums es) (hid : u.ruleId = t.ruleId) : (t.add u).Sums (es ++ [u]) := by
  have hfilter : (es ++ [u]).filter (·.ruleId == (t.add u).ruleId) =
      es.filter (·.ruleId == t.ruleId) ++ [u] := by
    simp [hid]
  constructor <;> rw [hfilter, List.map_append, List.sum_append]
  · rw [← h.total]
    simp [RuleTiming.add, Duration.add]
  · rw [← h.evaluations]
    simp [RuleTiming.add]
  · rw [← h.matchCount]
    simp [RuleTiming.add]

/-- The first entry for a rule. -/
theorem sums_first (h : ∀ e ∈ es, e.ruleId ≠ u.ruleId) : u.Sums (es ++ [u]) := by
  have hnone : es.filter (·.ruleId == u.ruleId) = [] := by
    simpa [List.filter_eq_nil_iff] using h
  constructor <;> simp [hnone]

end

section
variable {n m k : Nat} {t : RuleTiming}

/-- A quotient by what is left of a number is the right one only where nothing has been cut off, or
where both are zero. -/
theorem div_mod_eq_div_iff (hk : 0 < k) (hm : m % k ≠ 0) :
    n / (m % k) = n / m ↔ m < k ∨ n < m % k := by
  constructor
  · intro heq
    by_contra hboth
    obtain ⟨hm', hn⟩ := not_or.mp hboth
    generalize hq : n / (m % k) = q at heq
    have hrest : m % k + k ≤ m := by
      have hsub : m % k = (m - k) % k := Nat.mod_eq_sub_mod (by omega)
      have hle : (m - k) % k ≤ m - k := Nat.mod_le _ _
      omega
    -- So many whole numbers have room in `n`, but not even one more of what is left of them.
    have hlow : q * (m % k + k) ≤ n := by
      rw [heq]
      exact (Nat.mul_le_mul_left _ hrest).trans (Nat.div_mul_le_self n m)
    have hhigh : n < m % k * (q + 1) := hq ▸ Nat.lt_mul_div_succ n (Nat.pos_of_ne_zero hm)
    have hpos : 1 ≤ q := by
      rw [← hq]
      exact (Nat.one_le_div_iff (Nat.pos_of_ne_zero hm)).mpr (by omega)
    have hmul : k ≤ q * k := Nat.le_mul_of_pos_left k hpos
    have hlt : m % k < k := Nat.mod_lt _ hk
    rw [Nat.mul_add] at hlow
    rw [Nat.mul_add, Nat.mul_one, Nat.mul_comm] at hhigh
    omega
  · intro h
    rcases h with hm' | hn
    · rw [Nat.mod_eq_of_lt hm']
    · have hn' : n < m := Nat.lt_of_lt_of_le hn (Nat.mod_le _ _)
      rw [Nat.div_eq_of_lt hn, Nat.div_eq_of_lt hn']

theorem average?_eq_none_iff :
    t.average? = none ↔ t.evaluations ≠ 0 ∧ divisorLimit ∣ t.evaluations := by
  rw [average?, Nat.dvd_iff_mod_eq_zero]
  by_cases hzero : t.evaluations = 0
  · simp [hzero]
  · by_cases hrest : t.evaluations % divisorLimit = 0 <;> simp [hzero, hrest]

/-- The average is the total divided by the number of evaluations just if this fits 32 bits, or if
the total is less even than what is left of it. -/
theorem average?_eq_iff : t.average? = some ⟨t.total.nanos / t.evaluations⟩ ↔
    t.evaluations < divisorLimit ∨ t.total.nanos < t.evaluations % divisorLimit := by
  have hlimit : 0 < divisorLimit := by decide
  by_cases hrest : t.evaluations % divisorLimit = 0
  · by_cases hzero : t.evaluations = 0
    · simp [average?, hzero, hlimit, Duration.zero]
    · have hle : divisorLimit ≤ t.evaluations :=
        Nat.le_of_dvd (Nat.pos_of_ne_zero hzero) (Nat.dvd_of_mod_eq_zero hrest)
      simp [average?, hzero, hrest, Nat.not_lt.mpr hle]
  · have hzero : t.evaluations ≠ 0 := by
      intro hzero
      rw [hzero] at hrest
      exact hrest (Nat.zero_mod _)
    rw [← div_mod_eq_div_iff hlimit hrest]
    simp [average?, hzero, hrest]

end

end RuleTiming

namespace Report

section
variable {es ts : List RuleTiming} {t u : RuleTiming} {r : Report}

/-- An entry of a table to which one has been added: it is about another rule and was there, or it
has taken in the new one, or it is the new one. -/
theorem mem_addTiming (hdistinct : (timedIds ts).Nodup) (h : t ∈ addTiming ts u) :
    (t ∈ ts ∧ u.ruleId ≠ t.ruleId) ∨ (∃ v ∈ ts, u.ruleId = v.ruleId ∧ t = v.add u) ∨
      (u.ruleId ∉ timedIds ts ∧ t = u) := by
  induction ts with
  | nil => exact .inr (.inr ⟨List.not_mem_nil, List.mem_singleton.mp h⟩)
  | cons v vs ih =>
    obtain ⟨hnew, hrest⟩ := List.nodup_cons.mp hdistinct
    by_cases hid : v.ruleId = u.ruleId
    · rw [addTiming, if_pos (beq_iff_eq.mpr hid)] at h
      rcases List.mem_cons.mp h with rfl | hmem
      · exact .inr (.inl ⟨v, List.mem_cons_self, hid.symm, rfl⟩)
      · have hne : u.ruleId ≠ t.ruleId := by
          intro heq
          have hold : v.ruleId ∈ timedIds vs := by
            rw [hid, heq]
            exact List.mem_map_of_mem hmem
          exact hnew hold
        exact .inl ⟨List.mem_cons_of_mem _ hmem, hne⟩
    · rw [addTiming, if_neg (mt beq_iff_eq.mp hid)] at h
      rcases List.mem_cons.mp h with rfl | hmem
      · exact .inl ⟨List.mem_cons_self, Ne.symm hid⟩
      · rcases ih hrest hmem with ⟨hmem, hne⟩ | ⟨w, hw, hwid, rfl⟩ | ⟨hnone, rfl⟩
        · exact .inl ⟨List.mem_cons_of_mem _ hmem, hne⟩
        · exact .inr (.inl ⟨w, List.mem_cons_of_mem _ hw, hwid, rfl⟩)
        · exact .inr (.inr ⟨by simp [Ne.symm hid, hnone], rfl⟩)

/-- The table has one entry for each rule of which the given entries tell, and adds them up. -/
structure Tabulates (es ts : List RuleTiming) : Prop where
  distinct : (timedIds ts).Nodup
  listed : ∀ id, id ∈ timedIds ts ↔ ∃ e ∈ es, e.ruleId = id
  sums : ∀ t ∈ ts, t.Sums es

theorem tabulates_nil : Tabulates [] [] := ⟨List.nodup_nil, by simp [timedIds], nofun⟩

/-- One more entry. -/
theorem Tabulates.add (h : Tabulates es ts) (u : RuleTiming) :
    Tabulates (es ++ [u]) (addTiming ts u) where
  distinct := nodup_addTiming h.distinct
  listed id := by
    have hmore : (∃ e ∈ es ++ [u], e.ruleId = id) ↔ (∃ e ∈ es, e.ruleId = id) ∨ u.ruleId = id := by
      simp [or_and_right, exists_or]
    rw [hmore, ← h.listed, timedIds_addTiming]
    split
    · rename_i hmem
      refine ⟨Or.inl, ?_⟩
      rintro (hid | rfl)
      · exact hid
      · exact hmem
    · rw [List.mem_append, List.mem_singleton, eq_comm]
  sums t ht := by
    rcases mem_addTiming h.distinct ht with ⟨hmem, hne⟩ | ⟨v, hv, hid, rfl⟩ | ⟨hnew, rfl⟩
    · exact (h.sums t hmem).skip hne
    · exact (h.sums v hv).add hid
    · apply RuleTiming.sums_first
      intro e he hid
      exact hnew ((h.listed _).mpr ⟨e, he, hid⟩)

theorem Tabulates.foldl (h : Tabulates es ts) (us : List RuleTiming) :
    Tabulates (es ++ us) (us.foldl addTiming ts) := by
  induction us generalizing es ts with
  | nil => rwa [List.append_nil]
  | cons u us ih =>
    have hmore := ih (h.add u)
    rwa [List.append_assoc] at hmore

/-- Merging reports adds up what all of them tell of the rules. -/
theorem tabulates_merged (rs : List Report) (h : Tabulates es r.timings) :
    Tabulates (es ++ rs.flatMap (·.timings)) (rs.foldl merge r).timings := by
  induction rs generalizing es r with
  | nil => simpa using h
  | cons s rs ih =>
    have hmerged : Tabulates (es ++ s.timings) (r.merge s).timings := h.foldl s.timings
    have hall := ih hmerged
    rwa [List.append_assoc] at hall

/-- There is a table just if each rule in it has an average. -/
theorem isSome_timingsTable?_iff :
    r.timingsTable?.isSome = true ↔ ∀ t ∈ r.timings, t.average? ≠ none := by
  rw [timingsTable?]
  split
  · rename_i hempty
    simp [List.isEmpty_iff.mp hempty]
  · rw [Option.isSome_map, Linter.isSome_mapM_iff]
    simp [sortedTimings, RuleTiming.row?, Option.isSome_iff_ne_none]

end

open RuleTiming

/-- However many reports are merged, the table adds up what they tell of each rule. A rule that was
never evaluated takes no time on average. Another average is the total divided by the number of
evaluations if and only if the number fits 32 bits, or what is left of it in these is more than the
nanoseconds of the total. The table can be written just if no number but zero is cut to zero. -/
theorem averages_right_iff (rs : List Report) :
    Tabulates (rs.flatMap (·.timings)) (rs.foldl merge {}).timings ∧
    (∀ t ∈ (rs.foldl merge {}).timings,
      (t.evaluations = 0 → t.average? = some .zero) ∧
      (t.average? = some ⟨t.total.nanos / t.evaluations⟩ ↔
        t.evaluations < divisorLimit ∨ t.total.nanos < t.evaluations % divisorLimit)) ∧
    ((rs.foldl merge {}).timingsTable?.isSome = true ↔
      ∀ t ∈ (rs.foldl merge {}).timings, t.evaluations ≠ 0 → ¬ divisorLimit ∣ t.evaluations) := by
  have hstart : Tabulates [] ({} : Report).timings := tabulates_nil
  refine ⟨tabulates_merged rs hstart, ?_, ?_⟩
  · intro t _
    exact ⟨fun hzero => by simp [average?, hzero], average?_eq_iff⟩
  · rw [isSome_timingsTable?_iff]
    simp only [ne_eq, average?_eq_none_iff, not_and]

def timed (evaluations : Nat) : Report :=
  { timings := [⟨"no-subscribe", .ofMicros 10, evaluations, 0⟩] }

/-- With two evaluations more than fit 32 bits the average is the total of twenty microseconds,
although there is less than a nanosecond for each evaluation. With one more there is no table. -/
theorem averages_cut :
    ([timed (divisorLimit - 1), timed 2].foldl merge {}).timings.map
      (fun t => (t.evaluations, t.average?, t.total.nanos / t.evaluations)) =
        [(divisorLimit + 1, some (.ofMicros 20), 0)] ∧
    ([timed (divisorLimit - 1), timed 1].foldl merge {}).timingsTable? = none := by
  decide +kernel

end Report

end Subscriptions
