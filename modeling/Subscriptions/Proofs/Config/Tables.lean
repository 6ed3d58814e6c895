import Mathlib.Data.List.Basic
import Mathlib.Data.List.Nodup
import Subscriptions.Config.Merge

namespace Subscriptions

section
variable {xs ys zs : List String} {x : String}

theorem addMissing_cons : addMissing xs (x :: ys) =
    addMissing (if xs.contains x then xs else xs ++ [x]) ys :=
  rfl

theorem addMissing_append : addMissing xs (ys ++ zs) = addMissing (addMissing xs ys) zs :=
  List.foldl_append

theorem mem_addMissing : x ∈ addMissing xs ys ↔ x ∈ xs ∨ x ∈ ys := by
  induction ys generalizing xs with
  | nil => simp [addMissing]
  | cons y ys ih =>
    rw [addMissing_cons, ih, List.mem_cons]
    split
    · rename_i hy
      rw [List.contains_iff_mem] at hy
      constructor
      · exact Or.imp_right .inr
      · rintro (hx | rfl | hx)
        · exact .inl hx
        · exact .inl hy
        · exact .inr hx
    · rw [List.mem_append, List.mem_singleton, or_assoc]

theorem nodup_addMissing (h : xs.Nodup) : (addMissing xs ys).Nodup := by
  induction ys generalizing xs with
  | nil => exact h
  | cons y ys ih =>
    rw [addMissing_cons]
    split
    · exact ih h
    · rename_i hy
      rw [List.contains_iff_mem] at hy
      exact ih (List.nodup_append_comm.mp (List.nodup_cons.mpr ⟨hy, h⟩))

theorem prefix_addMissing : xs <+: addMissing xs ys := by
  induction ys generalizing xs with
  | nil => exact List.prefix_rfl
  | cons y ys ih =>
    rw [addMissing_cons]
    split
    · exact ih
    · exact (List.prefix_append xs [y]).trans ih

/-- Elements that are there already add nothing. -/
theorem addMissing_of_subset (h : ys ⊆ xs) : addMissing xs ys = xs := by
  induction ys with
  | nil => rfl
  | cons y ys ih =>
    obtain ⟨hy, hys⟩ := List.cons_subset.mp h
    rw [addMissing_cons, if_pos (List.contains_iff_mem.mpr hy), ih hys]

theorem addMissing_again : addMissing (addMissing xs ys) ys = addMissing xs ys := by
  apply addMissing_of_subset
  intro y hy
  exact mem_addMissing.mpr (.inr hy)

/-- Elements of which none is there yet, and none stands twice, are put behind. -/
theorem addMissing_of_nodup (h : (xs ++ ys).Nodup) : addMissing xs ys = xs ++ ys := by
  induction ys generalizing xs with
  | nil => exact (List.append_nil xs).symm
  | cons y ys ih =>
    have hy : y ∉ xs := fun hmem => List.disjoint_of_nodup_append h hmem List.mem_cons_self
    have happend : xs ++ y :: ys = xs ++ [y] ++ ys := by simp
    rw [happend] at h ⊢
    rw [addMissing_cons, if_neg (mt List.contains_iff_mem.mp hy), ih h]

theorem addMissing_eq_self_iff (h : xs.Nodup) : addMissing xs ys = ys ↔ xs <+: ys ∧ ys.Nodup := by
  constructor
  · intro hys
    rw [← hys]
    exact ⟨prefix_addMissing, nodup_addMissing h⟩
  · rintro ⟨⟨zs, rfl⟩, hnodup⟩
    rw [addMissing_append, addMissing_of_subset (List.Subset.refl xs), addMissing_of_nodup hnodup]

theorem addMissing_assoc (xs ys zs : List String) :
    addMissing (addMissing xs ys) zs = addMissing xs (addMissing ys zs) := by
  induction zs generalizing ys with
  | nil => rfl
  | cons z zs ih =>
    rw [addMissing_cons, addMissing_cons, ← ih]
    congr 1
    by_cases hz : z ∈ ys
    · have hmem : z ∈ addMissing xs ys := mem_addMissing.mpr (.inr hz)
      rw [if_pos (List.contains_iff_mem.mpr hz), if_pos (List.contains_iff_mem.mpr hmem)]
    · rw [if_neg (mt List.contains_iff_mem.mp hz), addMissing_append]
      rfl

end

section
variable {α : Type} {f : Option α → α → α} {ours theirs s t : List (String × α)} {name : String}
  {a b : α}

def names (table : List (String × α)) : List String := table.map Prod.fst

/-- Merges a table into another one by a rule for what becomes of two entries of one name. -/
def combine (f : Option α → α → α) (ours theirs : List (String × α)) : List (String × α) :=
  theirs.foldl (fun table e => putEntry e.1 (f (table.lookup e.1) e.2) table) ours

theorem combine_cons : combine f ours ((name, a) :: theirs) =
    combine f (putEntry name (f (ours.lookup name) a) ours) theirs :=
  rfl

theorem overlay_eq_combine (ours theirs : List (String × α)) :
    overlay ours theirs = combine (fun _ b => b) ours theirs :=
  rfl

theorem extend_eq_combine (ours theirs : List (String × List α)) :
    extend ours theirs = combine (fun a b => a.getD [] ++ b) ours theirs :=
  rfl

theorem names_putEntry : names (putEntry name a t) = addMissing (names t) [name] := by
  induction t with
  | nil => rfl
  | cons e t ih =>
    obtain ⟨n, b⟩ := e
    rw [putEntry]
    by_cases hn : n = name
    · subst hn
      simp [names, addMissing]
    · rw [if_neg (by simpa using hn)]
      simp only [names, List.map_cons] at ih ⊢
      rw [ih]
      by_cases hmem : name ∈ t.map Prod.fst
      · simp [addMissing, hmem]
      · simp [addMissing, hmem, Ne.symm hn]

theorem names_combine : names (combine f ours theirs) = addMissing (names ours) (names theirs) := by
  induction theirs generalizing ours with
  | nil => rfl
  | cons e theirs ih =>
    obtain ⟨n, b⟩ := e
    rw [combine_cons, ih, names_putEntry, ← addMissing_append]
    rfl

theorem lookup_eq_none_iff : t.lookup name = none ↔ name ∉ names t := by
  rw [List.lookup_eq_none_iff, names, List.mem_map]
  simp only [bne_iff_ne, ne_eq, not_exists, not_and]
  exact forall₂_congr fun e _ => not_congr eq_comm

theorem lookup_eq_some_iff (h : (names t).Nodup) : t.lookup name = some a ↔ (name, a) ∈ t := by
  rw [List.lookup_eq_some_iff]
  constructor
  · rintro ⟨before, after, rfl, -⟩
    simp
  · intro hmem
    obtain ⟨before, after, rfl⟩ := List.append_of_mem hmem
    refine ⟨before, after, rfl, ?_⟩
    rintro ⟨n, b⟩ hn
    rw [names, List.map_append, List.map_cons] at h
    have hne : n ≠ name := by
      rintro rfl
      exact List.disjoint_of_nodup_append h (List.mem_map_of_mem hn) List.mem_cons_self
    simpa using hne.symm

/-- What stands under a name in a merged table. -/
theorem lookup_combine (h : (names theirs).Nodup) : (combine f ours theirs).lookup name =
    match theirs.lookup name with
    | some b => some (f (ours.lookup name) b)
    | none => ours.lookup name := by
  induction theirs generalizing ours with
  | nil => rfl
  | cons e theirs ih =>
    obtain ⟨n, b⟩ := e
    obtain ⟨hn, htheirs⟩ := List.nodup_cons.mp h
    rw [combine_cons, ih htheirs]
    by_cases hname : name = n
    · subst hname
      have hnone : theirs.lookup name = none := lookup_eq_none_iff.mpr hn
      simp only [hnone, List.lookup_cons_self, lookup_putEntry_self]
    · have hne : (name == n) = false := beq_eq_false_iff_ne.mpr hname
      simp only [List.lookup_cons, hne, lookup_putEntry_of_ne hname]

/-- Tables of the same names in the same order, none twice, with the same under each name. -/
theorem eq_of_lookup (hnames : names s = names t) (hs : (names s).Nodup)
    (h : ∀ name, s.lookup name = t.lookup name) : s = t := by
  induction s generalizing t with
  | nil => exact (List.map_eq_nil_iff.mp hnames.symm).symm
  | cons e s ih =>
    obtain ⟨n, b⟩ := e
    obtain _ | ⟨⟨m, c⟩, t⟩ := t
    · cases hnames
    · obtain ⟨rfl, hrest⟩ := List.cons.inj hnames
      obtain ⟨hn, hs⟩ := List.nodup_cons.mp hs
      have hhead := h n
      rw [List.lookup_cons_self, List.lookup_cons_self, Option.some.injEq] at hhead
      have htail : ∀ name, s.lookup name = t.lookup name := by
        intro name
        by_cases hname : name = n
        · subst hname
          have ht : name ∉ names t := by
            rw [← show names s = names t from hrest]
            exact hn
          rw [lookup_eq_none_iff.mpr hn, lookup_eq_none_iff.mpr ht]
        · have hne : (name == n) = false := beq_eq_false_iff_ne.mpr hname
          have hlookup := h name
          simpa only [List.lookup_cons, hne] using hlookup
      rw [hhead, ih hrest hs htail]

theorem combine_assoc {r : List (String × α)}
    (hf : ∀ o a b, f (some (f o a)) b = f o (f (some a) b)) (hf' : ∀ o b, f o (f none b) = f o b)
    (hr : (names r).Nodup) (hs : (names s).Nodup) (ht : (names t).Nodup) :
    combine f (combine f r s) t = combine f r (combine f s t) := by
  have hst : (names (combine f s t)).Nodup := by
    rw [names_combine]
    exact nodup_addMissing hs
  apply eq_of_lookup
  · rw [names_combine, names_combine, names_combine, names_combine, addMissing_assoc]
  · rw [names_combine, names_combine]
    exact nodup_addMissing (nodup_addMissing hr)
  · intro name
    rw [lookup_combine ht, lookup_combine hs, lookup_combine hst, lookup_combine ht]
    cases s.lookup name with
    | none => cases t.lookup name with
      | none => rfl
      | some b => simp only [hf']
    | some a => cases t.lookup name with
      | none => rfl
      | some b => simp only [hf]

theorem combine_again (hf : ∀ o b, f (some (f o b)) b = f o b) (hs : (names s).Nodup)
    (ht : (names t).Nodup) : combine f (combine f s t) t = combine f s t := by
  apply eq_of_lookup
  · rw [names_combine, names_combine, addMissing_again]
  · rw [names_combine, names_combine]
    exact nodup_addMissing (nodup_addMissing hs)
  · intro name
    rw [lookup_combine ht, lookup_combine ht]
    cases t.lookup name with
    | none => rfl
    | some b => simp only [hf]

theorem combine_nil (hf : ∀ b, f none b = b) (ht : (names t).Nodup) : combine f [] t = t := by
  have hnames : names (combine f [] t) = names t := by
    rw [names_combine]
    exact addMissing_of_nodup ht
  apply eq_of_lookup hnames
  · rw [hnames]
    exact ht
  · intro name
    rw [lookup_combine ht]
    cases t.lookup name with
    | none => rfl
    | some b => simp only [List.lookup_nil, hf]

theorem overlay_nil (ht : (names t).Nodup) : overlay [] t = t := by
  rw [overlay_eq_combine]
  exact combine_nil (fun _ => rfl) ht

theorem extend_nil {t : List (String × List α)} (ht : (names t).Nodup) : extend [] t = t := by
  rw [extend_eq_combine]
  exact combine_nil (fun _ => List.nil_append _) ht

theorem overlay_assoc {r : List (String × α)} (hr : (names r).Nodup) (hs : (names s).Nodup)
    (ht : (names t).Nodup) : overlay (overlay r s) t = overlay r (overlay s t) := by
  simp only [overlay_eq_combine]
  exact combine_assoc (fun _ _ _ => rfl) (fun _ _ => rfl) hr hs ht

theorem overlay_again (hs : (names s).Nodup) (ht : (names t).Nodup) :
    overlay (overlay s t) t = overlay s t := by
  simp only [overlay_eq_combine]
  exact combine_again (fun _ _ => rfl) hs ht

theorem extend_assoc {r s t : List (String × List α)} (hr : (names r).Nodup) (hs : (names s).Nodup)
    (ht : (names t).Nodup) : extend (extend r s) t = extend r (extend s t) := by
  simp only [extend_eq_combine]
  exact combine_assoc (fun _ _ _ => List.append_assoc _ _ _) (fun _ _ => rfl) hr hs ht

/-- A table that is read names nothing twice. -/
theorem nodup_names_of_tableOf {δ : Type} [Document δ] {read : δ → Option α} {d : δ}
    (h : Document.tableOf read d = some t) : (names t).Nodup := by
  simp only [Document.tableOf, Option.bind_eq_bind, Option.bind_eq_some_iff, Option.pure_def,
    Option.some.injEq] at h
  obtain ⟨given, hgiven, entries, hentries, rfl⟩ := h
  change (names (overlay [] entries)).Nodup
  rw [overlay_eq_combine, names_combine]
  exact nodup_addMissing List.nodup_nil

end

end Subscriptions
