import Mathlib.Data.List.Sort
import Mathlib.Data.Prod.Lex
import Mathlib.Data.String.Basic
import Mathlib.Order.Lex
import Subscriptions.Files.Collect
import Subscriptions.Path.Basic

namespace Subscriptions.Path

namespace Component

def key (c : Component) : Nat ×ₗ String :=
  toLex (c.rank, match c with | .name s => s | _ => "")

theorem key_injective : Function.Injective key := by
  intro a b h
  cases a <;> cases b <;> simp_all [key, rank]

theorem before_iff (a b : Component) : a.before b = true ↔ a.key < b.key := by
  cases a <;> cases b <;> simp [before, rank, key, Prod.Lex.toLex_lt_toLex]

end Component

def keys (path : String) : List (Nat ×ₗ String) := (components path).map Component.key

theorem upTo_iff (as bs : List Component) :
    upTo as bs = true ↔ as.map Component.key ≤ bs.map Component.key := by
  induction as generalizing bs with
  | nil => cases bs <;> simp [upTo, le_iff_lt_or_eq]
  | cons a as ih =>
    cases bs with
    | nil => simp [upTo, le_iff_lt_or_eq]
    | cons b bs =>
      rw [upTo, Bool.or_eq_true, Bool.and_eq_true, ih, Component.before_iff, beq_iff_eq,
        le_iff_lt_or_eq, le_iff_lt_or_eq, List.map_cons, List.map_cons, List.cons_lt_cons_iff,
        List.cons.injEq, Component.key_injective.eq_iff, or_assoc, ← and_or_left]

section
variable {p q r : String} {ps : List String}

theorem inOrder_iff : inOrder p q = true ↔ keys p ≤ keys q := upTo_iff _ _

theorem same_iff : same p q = true ↔ keys p = keys q := by
  rw [same, beq_iff_eq, keys, keys, (List.map_injective_iff.mpr Component.key_injective).eq_iff]

/-- One path comes before another that spells other components. -/
def Precedes (p q : String) : Prop := inOrder p q = true ∧ same p q = false

theorem precedes_iff : Precedes p q ↔ keys p < keys q := by
  rw [Precedes, inOrder_iff, ← Bool.not_eq_true, same_iff, lt_iff_le_and_ne]

theorem mem_of_mem_withoutRepeats (h : p ∈ withoutRepeats ps) : p ∈ ps := by
  induction ps with
  | nil => exact h
  | cons q ps ih =>
    rw [withoutRepeats] at h
    split at h <;> grind

theorem exists_mem_withoutRepeats (h : p ∈ ps) : ∃ q ∈ withoutRepeats ps, same p q = true := by
  have hself (p : String) : same p p = true := same_iff.mpr rfl
  induction ps with
  | nil => cases h
  | cons r ps ih =>
    rw [withoutRepeats]
    rcases List.mem_cons.mp h with rfl | h
    · split
      · exact ⟨p, by simp, hself p⟩
      · split <;> exact ⟨p, by simp, hself p⟩
    · obtain ⟨q, hq, hsame⟩ := ih h
      split
      · rename_i hnil
        rw [hnil] at hq
        cases hq
      · rename_i first others hcons
        rw [hcons] at hq
        split
        · rename_i hrepeat
          rcases List.mem_cons.mp hq with rfl | hq
          · refine ⟨r, by simp, same_iff.mpr ?_⟩
            rw [same_iff.mp hsame, same_iff.mp hrepeat]
          · exact ⟨q, by simp [hq], hsame⟩
        · exact ⟨q, List.mem_cons_of_mem r hq, hsame⟩

/-- Of paths in order those that stay come one before another. -/
theorem pairwise_withoutRepeats (h : ps.Pairwise fun p q => inOrder p q = true) :
    (withoutRepeats ps).Pairwise Precedes := by
  induction ps with
  | nil => exact .nil
  | cons p ps ih =>
    obtain ⟨hp, hps⟩ := List.pairwise_cons.mp h
    specialize ih hps
    rw [withoutRepeats]
    split
    · exact List.pairwise_singleton _ _
    · rename_i q qs hcons
      rw [hcons] at ih
      obtain ⟨hq, hqs⟩ := List.pairwise_cons.mp ih
      have hle : keys p ≤ keys q :=
        inOrder_iff.mp (hp q (mem_of_mem_withoutRepeats (by rw [hcons]; simp)))
      have hbehind : ∀ r ∈ qs, Precedes p r := fun r hr =>
        precedes_iff.mpr (hle.trans_lt (precedes_iff.mp (hq r hr)))
      split
      · exact List.pairwise_cons.mpr ⟨hbehind, hqs⟩
      · rename_i hother
        have hbefore : Precedes p q := ⟨inOrder_iff.mpr hle, Bool.not_eq_true _ ▸ hother⟩
        exact List.pairwise_cons.mpr ⟨List.forall_mem_cons.mpr ⟨hbefore, hbehind⟩, ih⟩

/-- Sorted paths come one before another. -/
theorem pairwise_sorted (ps : List String) : (sorted ps).Pairwise Precedes := by
  refine pairwise_withoutRepeats (List.pairwise_mergeSort ?_ ?_ ps)
  · intro p q r hpq hqr
    exact inOrder_iff.mpr ((inOrder_iff.mp hpq).trans (inOrder_iff.mp hqr))
  · intro p q
    rw [Bool.or_eq_true, inOrder_iff, inOrder_iff]
    exact le_total _ _

theorem mem_of_mem_sorted (h : p ∈ sorted ps) : p ∈ ps :=
  List.mem_mergeSort.mp (mem_of_mem_withoutRepeats h)

theorem exists_mem_sorted (h : p ∈ ps) : ∃ q ∈ sorted ps, same p q = true :=
  exists_mem_withoutRepeats (List.mem_mergeSort.mpr h)

/-- Sorted paths spell the same components if the same paths are there. -/
theorem components_sorted_congr {ps qs : List String} (h : ∀ p, p ∈ ps ↔ p ∈ qs) :
    (sorted ps).map components = (sorted qs).map components := by
  have hstrict (ps : List String) : ((sorted ps).map keys).Pairwise (· < ·) :=
    List.pairwise_map.mpr ((pairwise_sorted ps).imp precedes_iff.mp)
  have hmem (ps : List String) (k : List (Nat ×ₗ String)) :
      k ∈ (sorted ps).map keys ↔ k ∈ ps.map keys := by
    simp only [List.mem_map]
    constructor
    · rintro ⟨p, hp, rfl⟩
      exact ⟨p, mem_of_mem_sorted hp, rfl⟩
    · rintro ⟨p, hp, rfl⟩
      obtain ⟨q, hq, hsame⟩ := exists_mem_sorted hp
      exact ⟨q, hq, (same_iff.mp hsame).symm⟩
  have hkeys : (sorted ps).map keys = (sorted qs).map keys := by
    refine (hstrict ps).eq_of_mem_iff (hstrict qs) fun k => ?_
    simp only [hmem, List.mem_map, h]
  have hinjective := List.map_injective_iff.mpr (List.map_injective_iff.mpr Component.key_injective)
  apply hinjective
  rw [List.map_map, List.map_map]
  exact hkeys

end

end Subscriptions.Path

namespace Subscriptions

/-- The names lead from the entries of a directory down to a regular file. -/
inductive Leads : List (String × Listing) → List String → Prop
  | file {entries : List (String × Listing)} {name : String} (h : (name, .file) ∈ entries) :
    Leads entries [name]
  | directory {entries inner : List (String × Listing)} {name : String} {names : List String}
    (h : (name, .directory inner) ∈ entries) (hnames : Leads inner names) :
    Leads entries (name :: names)

theorem Leads.ne_nil {entries : List (String × Listing)} {names : List String}
    (h : Leads entries names) : names ≠ [] := by
  cases h <;> exact List.cons_ne_nil _ _

def Path.along (path : String) (names : List String) : String := names.foldl Path.join path

namespace FileFilter

/-- The path is that of a regular file below a directory, the filter accepts it, and none of the
directories in between is excluded. -/
def Finds (filter : FileFilter) (path : String) (entries : List (String × Listing)) (p : String) :
    Prop :=
  ∃ names, Leads entries names ∧ p = Path.along path names ∧ filter.accepts p = true ∧
    ∀ above below, above ≠ [] → below ≠ [] → names = above ++ below →
      filter.isExcluded (Path.along path above) = false

section
variable {filter : FileFilter} {path p name : String} {entries inner : List (String × Listing)}

theorem finds_file (h : (name, .file) ∈ entries)
    (haccepts : filter.accepts (Path.join path name) = true) :
    filter.Finds path entries (Path.join path name) := by
  refine ⟨[name], .file h, rfl, haccepts, fun above below habove hbelow hsplit => ?_⟩
  rcases List.append_eq_singleton_iff.mp hsplit.symm with ⟨rfl, -⟩ | ⟨-, rfl⟩
  · exact absurd rfl habove
  · exact absurd rfl hbelow

theorem finds_directory (h : (name, .directory inner) ∈ entries)
    (hkept : filter.isExcluded (Path.join path name) = false)
    (hfinds : filter.Finds (Path.join path name) inner p) : filter.Finds path entries p := by
  obtain ⟨names, hnames, hp, haccepts, hbetween⟩ := hfinds
  refine ⟨name :: names, .directory h hnames, hp, haccepts, fun above below habove hbelow hsplit => ?_⟩
  cases above with
  | nil => exact absurd rfl habove
  | cons first above =>
    obtain ⟨rfl, hrest⟩ := List.cons.inj hsplit
    cases above with
    | nil => exact hkept
    | cons next above => exact hbetween (next :: above) below (List.cons_ne_nil _ _) hbelow hrest

mutual

theorem finds_of_mem_pick : ∀ (l : Listing) {entries : List (String × Listing)} {path name : String},
    (name, l) ∈ entries → p ∈ filter.pick (Path.join path name) l → filter.Finds path entries p
  | .file, entries, path, name, h, hp => by
    rw [pick] at hp
    split at hp
    · rename_i haccepts
      obtain rfl := List.mem_singleton.mp hp
      exact finds_file h haccepts
    · cases hp
  | .directory inner, entries, path, name, h, hp => by
    rw [pick] at hp
    split at hp
    · cases hp
    · rename_i hkept
      exact finds_directory h (Bool.not_eq_true _ ▸ hkept)
        (finds_of_mem_pickBelow inner (List.Subset.refl inner) hp)
  | .other, entries, path, name, h, hp => by cases hp

theorem finds_of_mem_pickBelow : ∀ (ls : List (String × Listing))
    {entries : List (String × Listing)} {path : String}, ls ⊆ entries →
    p ∈ filter.pickBelow path ls → filter.Finds path entries p
  | [], entries, path, hin, hp => by cases hp
  | (name, l) :: ls, entries, path, hin, hp => by
    rw [pickBelow, List.mem_append] at hp
    obtain ⟨hl, hls⟩ := List.cons_subset.mp hin
    rcases hp with hp | hp
    · exact finds_of_mem_pick l hl hp
    · exact finds_of_mem_pickBelow ls hls hp

end

theorem mem_pickBelow_of_mem {l : Listing} (h : (name, l) ∈ entries)
    (hp : p ∈ filter.pick (Path.join path name) l) : p ∈ filter.pickBelow path entries := by
  induction entries with
  | nil => cases h
  | cons e entries ih =>
    rw [pickBelow, List.mem_append]
    rcases List.mem_cons.mp h with rfl | h
    · exact .inl hp
    · exact .inr (ih h)

theorem mem_pickBelow_of_leads {names : List String} (h : Leads entries names)
    (haccepts : filter.accepts (Path.along path names) = true)
    (hbetween : ∀ above below, above ≠ [] → below ≠ [] → names = above ++ below →
      filter.isExcluded (Path.along path above) = false) :
    Path.along path names ∈ filter.pickBelow path entries := by
  induction h generalizing path with
  | file h =>
    refine mem_pickBelow_of_mem h ?_
    rw [pick]
    exact (if_pos haccepts).symm ▸ List.mem_singleton_self _
  | @directory entries inner name names h hnames ih =>
    refine mem_pickBelow_of_mem h ?_
    have hkept : filter.isExcluded (Path.join path name) = false :=
      hbetween [name] names (List.cons_ne_nil _ _) hnames.ne_nil rfl
    rw [pick, hkept, if_neg Bool.false_ne_true]
    refine ih haccepts fun above below _ hbelow hsplit => ?_
    exact hbetween (name :: above) below (List.cons_ne_nil _ _) hbelow (by rw [hsplit]; rfl)

/-- Walking through a directory comes to just the files that are to be found below it. -/
theorem mem_pickBelow : p ∈ filter.pickBelow path entries ↔ filter.Finds path entries p := by
  constructor
  · exact finds_of_mem_pickBelow entries (List.Subset.refl entries)
  · rintro ⟨names, hleads, rfl, haccepts, hbetween⟩
    exact mem_pickBelow_of_leads hleads haccepts hbetween

end

end FileFilter

section
variable {files : FileSystem Id} {filter : FileFilter} {paths : List String} {p : String}

/-- The path is given and is not that of a directory, and it is not excluded; or it is found below
a directory that is given. -/
inductive Selected (files : FileSystem Id) (filter : FileFilter) (paths : List String) (p : String) :
    Prop
  | given (hp : p ∈ paths) (hfile : files.below? p = none) (hkept : filter.isExcluded p = false)
  | found {d : String} {entries : List (String × Listing)} (hd : d ∈ paths)
    (hdirectory : files.below? d = some entries) (hfinds : filter.Finds d entries p)

/-- The files that the paths stand for, in the order of the paths and of the directories. -/
def unsorted (files : FileSystem Id) (filter : FileFilter) (paths : List String) : List String :=
  paths.flatMap fun path => filter.filesOf (path, files.below? path)

theorem collectFiles_eq (files : FileSystem Id) (filter : FileFilter) (paths : List String) :
    (collectFiles files filter paths).run = Path.sorted (unsorted files filter paths) := by
  simp only [collectFiles, bind_pure_comp, FileFilter.collect, Id.run_map, List.idRun_mapM,
    List.flatMap_map, unsorted]
  rfl

theorem mem_unsorted : p ∈ unsorted files filter paths ↔ Selected files filter paths p := by
  rw [unsorted, List.mem_flatMap]
  constructor
  · rintro ⟨path, hpath, hp⟩
    rw [FileFilter.filesOf] at hp
    split at hp
    · rename_i entries hdirectory
      exact .found hpath hdirectory (FileFilter.mem_pickBelow.mp hp)
    · rename_i hfile
      split at hp
      · cases hp
      · rename_i hkept
        obtain rfl := List.mem_singleton.mp hp
        exact .given hpath hfile (Bool.not_eq_true _ ▸ hkept)
  · rintro (⟨hp, hfile, hkept⟩ | ⟨hd, hdirectory, hfinds⟩)
    · exact ⟨p, hp, by simp [FileFilter.filesOf, hfile, hkept]⟩
    · refine ⟨_, hd, ?_⟩
      rw [FileFilter.filesOf, hdirectory]
      exact FileFilter.mem_pickBelow.mpr hfinds

/-- Collecting files is exact, and the order of the paths does not matter. The files come one before
another in the order of paths; each of them is a given file that is not excluded or a file that is
found below a given directory; of each such file a path with the same components is there; and
paths that are permuted or repeated stand for files with the same components. -/
theorem collectFiles_exact (files : FileSystem Id) (filter : FileFilter) (paths : List String) :
    (collectFiles files filter paths).run.Pairwise Path.Precedes ∧
    (∀ p ∈ (collectFiles files filter paths).run, Selected files filter paths p) ∧
    (∀ p, Selected files filter paths p →
      ∃ q ∈ (collectFiles files filter paths).run, Path.same p q = true) ∧
    ∀ others : List String, (∀ p, p ∈ others ↔ p ∈ paths) →
      (collectFiles files filter others).run.map Path.components =
        (collectFiles files filter paths).run.map Path.components := by
  simp only [collectFiles_eq]
  refine ⟨Path.pairwise_sorted _, fun p hp => mem_unsorted.mp (Path.mem_of_mem_sorted hp),
    fun p hp => Path.exists_mem_sorted (mem_unsorted.mpr hp), fun others hothers => ?_⟩
  refine Path.components_sorted_congr fun p => ?_
  simp only [unsorted, List.mem_flatMap, hothers]

end

end Subscriptions
