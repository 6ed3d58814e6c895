import Subscriptions.Proofs.Files.Finding

namespace Subscriptions

namespace FileFilter

/-- The file that names lead to from a path is accepted, and none of the directories in between is
excluded. -/
def Keeps (filter : FileFilter) (path : String) (names : List String) : Prop :=
  filter.accepts (Path.along path names) = true ∧
    ∀ above below, above ≠ [] → below ≠ [] → names = above ++ below →
      filter.isExcluded (Path.along path above) = false

theorem finds_iff {filter : FileFilter} {path p : String} {entries : List (String × Listing)} :
    filter.Finds path entries p ↔
      ∃ names, Leads entries names ∧ p = Path.along path names ∧ filter.Keeps path names := by
  constructor
  · rintro ⟨names, hleads, rfl, hkeeps⟩
    exact ⟨names, hleads, rfl, hkeeps⟩
  · rintro ⟨names, hleads, rfl, hkeeps⟩
    exact ⟨names, hleads, rfl, hkeeps⟩

end FileFilter

namespace Path

def IsPlain (path : String) : Prop := ∃ names : List String, components path = names.map .name

end Path

namespace Disk

/-- From an input a file is taken: the one that stands there, if there are no names, or the one that
names lead to below a directory. -/
def Takes (disk : Disk) (filter : FileFilter) (input : String) (names : List String) : Prop :=
  match disk.files.below? input with
  | some entries => Leads entries names ∧ filter.Keeps input names
  | none => names = [] ∧ filter.isExcluded input = false

section
variable {disk : Disk} {filter : FileFilter} {paths names others : List String}
  {p q input other : String}

theorem selected_iff : Selected disk.files filter paths p ↔
    ∃ input ∈ paths, ∃ names, disk.Takes filter input names ∧ p = Path.along input names := by
  constructor
  · rintro (⟨hp, hfile, hkept⟩ | ⟨hd, hdirectory, hfinds⟩)
    · refine ⟨p, hp, [], ?_, rfl⟩
      rw [Takes, hfile]
      exact ⟨rfl, hkept⟩
    · obtain ⟨names, hleads, rfl, hkeeps⟩ := FileFilter.finds_iff.mp hfinds
      refine ⟨_, hd, names, ?_, rfl⟩
      rw [Takes, hdirectory]
      exact ⟨hleads, hkeeps⟩
  · rintro ⟨input, hinput, names, htakes, rfl⟩
    rw [Takes] at htakes
    split at htakes
    · rename_i entries hdirectory
      exact .found hinput hdirectory ⟨names, htakes.1, rfl, htakes.2⟩
    · rename_i hfile
      obtain ⟨rfl, hkept⟩ := htakes
      exact .given hinput hfile hkept

theorem Takes.isName (htidy : disk.IsTidy) (h : disk.Takes filter input names) :
    ∀ n ∈ names, Path.IsName n := by
  rw [Takes] at h
  split at h
  · rename_i entries hdirectory
    exact ((leads_iff_of_below? htidy hdirectory).mp h.1).2.1
  · rw [h.1]
    nofun

/-- What is taken from an input that is there is a file. -/
theorem Takes.isFile (htidy : disk.IsTidy) (hthere : ∃ e, disk.find input = .ok e)
    (h : disk.Takes filter input names) : ∃ text above,
      disk.find (Path.along input names) = .ok (.file text) ∧
        disk.wayTo (Path.along input names) = .ok (.file text :: above) := by
  have hnames := h.isName htidy
  rw [Takes] at h
  split at h
  · rename_i entries hdirectory
    obtain ⟨hne, -, text, above, hway⟩ := (leads_iff_of_below? htidy hdirectory).mp h.1
    exact ⟨text, above,
      (find_eq_ok_iff htidy).mpr ⟨Path.along_ne_empty hnames hne, above, hway⟩, hway⟩
  · rename_i hfile
    obtain ⟨rfl, -⟩ := h
    obtain ⟨e, hfind⟩ := hthere
    obtain ⟨text, above, hway⟩ := exists_file_of_below? htidy hfind hfile
    have hinput := ((find_eq_ok_iff htidy).mp hfind).1
    exact ⟨text, above, (find_eq_ok_iff htidy).mpr ⟨hinput, above, hway⟩, hway⟩

/-- Files that are found in their order are not sorted anew. -/
theorem collectFiles_of_pairwise {files : FileSystem Id}
    (h : (unsorted files filter paths).Pairwise fun p q => Path.inOrder p q = true) :
    (collectFiles files filter paths).run = Path.withoutRepeats (unsorted files filter paths) := by
  rw [collectFiles_eq, Path.sorted, List.mergeSort_of_pairwise h]

theorem mem_collectFiles (h : p ∈ (collectFiles disk.files filter paths).run) :
    ∃ input ∈ paths, ∃ names, disk.Takes filter input names ∧ p = Path.along input names := by
  rw [collectFiles_eq] at h
  exact selected_iff.mp (mem_unsorted.mp (Path.mem_of_mem_sorted h))

theorem exists_mem_collectFiles (hinput : input ∈ paths) (h : disk.Takes filter input names) :
    ∃ p ∈ (collectFiles disk.files filter paths).run,
      Path.components p = Path.components (Path.along input names) := by
  rw [collectFiles_eq]
  have hselected : Path.along input names ∈ unsorted disk.files filter paths :=
    mem_unsorted.mpr (selected_iff.mpr ⟨input, hinput, names, h, rfl⟩)
  obtain ⟨p, hp, hsame⟩ := Path.exists_mem_sorted hselected
  exact ⟨p, hp, (eq_of_beq hsame).symm⟩

/-- Collected paths have different components. -/
theorem nodup_components (files : FileSystem Id) (filter : FileFilter) (paths : List String) :
    ((collectFiles files filter paths).run.map Path.components).Nodup := by
  rw [collectFiles_eq]
  exact List.pairwise_map.mpr ((Path.pairwise_sorted _).imp fun h => beq_eq_false_iff_ne.mp h.2)

theorem eq_of_components (hp : p ∈ (collectFiles disk.files filter paths).run)
    (hq : q ∈ (collectFiles disk.files filter paths).run)
    (h : Path.components p = Path.components q) : p = q :=
  List.inj_on_of_nodup_map (nodup_components disk.files filter paths) hp hq h

/-- The places of inputs say how they are spelled, if they are spelled by names alone. -/
theorem components_of_place (hinput : Path.IsPlain input) (hother : Path.IsPlain other)
    (h : disk.place other = disk.place input ++ names) :
    Path.components other = Path.components input ++ names.map .name := by
  obtain ⟨spelled, hspelled⟩ := hinput
  obtain ⟨spelledOther, hspelledOther⟩ := hother
  rw [place, place, hspelled, hspelledOther, Path.foldl_move_names, Path.foldl_move_names,
    List.append_assoc, List.append_cancel_left_eq] at h
  rw [hspelled, hspelledOther, h, List.map_append]

/-- Two inputs stand one at or below the other but are spelled otherwise, and one file is taken from
both of them. -/
def Overlap (disk : Disk) (filter : FileFilter) (paths : List String) : Prop :=
  ∃ input ∈ paths, ∃ other ∈ paths, ∃ between names,
    disk.place other = disk.place input ++ between ∧
    Path.components other ≠ Path.components input ++ between.map .name ∧
    disk.Takes filter input (between ++ names) ∧ disk.Takes filter other names

/-- Collected paths with one place are the same if there is no overlap. -/
theorem eq_of_place (htidy : disk.IsTidy) (hoverlap : ¬ disk.Overlap filter paths)
    (hp : p ∈ (collectFiles disk.files filter paths).run)
    (hq : q ∈ (collectFiles disk.files filter paths).run) (h : disk.place p = disk.place q) :
    p = q := by
  refine eq_of_components hp hq ?_
  obtain ⟨input, hinput, names, htakes, rfl⟩ := mem_collectFiles hp
  obtain ⟨other, hother, others, htakesOther, rfl⟩ := mem_collectFiles hq
  rw [place_along disk input (htakes.isName htidy),
    place_along disk other (htakesOther.isName htidy)] at h
  rw [Path.components_along (htakes.isName htidy), Path.components_along (htakesOther.isName htidy)]
  have hspelled {input other : String} {between names : List String} (hinput : input ∈ paths)
      (hother : other ∈ paths) (hplace : disk.place other = disk.place input ++ between)
      (htakes : disk.Takes filter input (between ++ names))
      (htakesOther : disk.Takes filter other names) :
      Path.components other = Path.components input ++ between.map .name := by
    by_contra hne
    exact hoverlap ⟨input, hinput, other, hother, between, names, hplace, hne, htakes, htakesOther⟩
  rcases List.append_eq_append_iff.mp h with ⟨between, hplace, rfl⟩ | ⟨between, hplace, rfl⟩
  · rw [hspelled hinput hother hplace htakes htakesOther, List.map_append, List.append_assoc]
  · rw [hspelled hother hinput hplace htakesOther htakes, List.map_append, List.append_assoc]

end

/-- Every collected path leads to a file, which stands at the place of the path. No two of them have
the same place just if there is no overlap of inputs; there is none if all inputs are spelled by
names alone. -/
theorem collectFiles_places (disk : Disk) (htidy : disk.IsTidy) (filter : FileFilter)
    (paths : List String) (hthere : ∀ input ∈ paths, ∃ e, disk.find input = .ok e) :
    (∀ p ∈ (collectFiles disk.files filter paths).run, ∃ text above,
      disk.find p = .ok (.file text) ∧ disk.wayAlong (disk.place p) = .ok (.file text :: above)) ∧
    ((∀ p ∈ (collectFiles disk.files filter paths).run,
      ∀ q ∈ (collectFiles disk.files filter paths).run, p ≠ q → disk.place p ≠ disk.place q) ↔
        ¬ disk.Overlap filter paths) ∧
    ((∀ input ∈ paths, Path.IsPlain input) → ¬ disk.Overlap filter paths) := by
  refine ⟨fun p hp => ?_, ⟨fun honce => ?_, fun hoverlap p hp q hq hne hplace => ?_⟩, fun hplain => ?_⟩
  · obtain ⟨input, hinput, names, htakes, rfl⟩ := mem_collectFiles hp
    obtain ⟨text, above, hfind, hway⟩ := htakes.isFile htidy (hthere input hinput)
    exact ⟨text, above, hfind, wayAlong_place htidy hway⟩
  · rintro ⟨input, hinput, other, hother, between, names, hplace, hne, htakes, htakesOther⟩
    have hnames := htakes.isName htidy
    have hnamesOther := htakesOther.isName htidy
    obtain ⟨p, hp, hcomponents⟩ := exists_mem_collectFiles hinput htakes
    obtain ⟨q, hq, hcomponentsOther⟩ := exists_mem_collectFiles hother htakesOther
    refine honce p hp q hq (fun heq => hne ?_) ?_
    · rw [heq, hcomponentsOther, Path.components_along hnames, Path.components_along hnamesOther,
        List.map_append, ← List.append_assoc, List.append_cancel_right_eq] at hcomponents
      exact hcomponents
    · have hplaces : disk.place (Path.along input (between ++ names)) =
          disk.place (Path.along other names) := by
        rw [place_along disk input hnames, place_along disk other hnamesOther, hplace,
          List.append_assoc]
      rwa [place, place, hcomponents, hcomponentsOther]
  · exact hne (eq_of_place htidy hoverlap hp hq hplace)
  · rintro ⟨input, hinput, other, hother, between, names, hplace, hne, -, -⟩
    exact hne (components_of_place (hplain input hinput) (hplain other hother) hplace)

def nested : Disk where
  root := .directory [("src", .directory [("a.ts", .file (some "")),
    ("lib", .directory [("b.ts", .file (some ""))])])]
  current := []
  home := none

theorem isTidy_nested : nested.IsTidy := ⟨by decide, nofun⟩

/-- All files whose name ends as that of a script does. -/
def scripts : FileFilter where
  included := [⟨"**/*.ts", [.leading, .anything, .literal '.', .literal 't', .literal 's']⟩]
  excluded := []

/-- A directory, a directory below it and a file below it are given, and no file is collected twice. -/
theorem collectFiles_places_nested :
    ((collectFiles nested.files scripts ["src/lib", "src", "src/a.ts"]).run.map nested.place).Nodup := by
  have hthere : ∀ input ∈ ["src/lib", "src", "src/a.ts"], ∃ e, nested.find input = .ok e := by
    simp only [List.forall_mem_cons]
    exact ⟨⟨_, rfl⟩, ⟨_, rfl⟩, ⟨_, rfl⟩, nofun⟩
  have hplain : ∀ input ∈ ["src/lib", "src", "src/a.ts"], Path.IsPlain input := by
    simp only [List.forall_mem_cons]
    exact ⟨⟨["src", "lib"], by decide⟩, ⟨["src"], by decide⟩,
      ⟨["src", "a.ts"], by decide⟩, nofun⟩
  obtain ⟨-, honce, hnone⟩ :=
    collectFiles_places nested isTidy_nested scripts ["src/lib", "src", "src/a.ts"] hthere
  refine List.Nodup.map_on (fun p hp q hq h => ?_) (nodup_components _ _ _).of_map
  by_contra hne
  exact honce.mpr (hnone hplain) p hp q hq hne h

/-- The directory that paths start from and a directory in it are given. Each file of the latter is
collected twice, with and without a full stop in front. -/
theorem collectFiles_twice :
    FileFilter.ofTexts ["**/*.ts"] [] = .ok scripts ∧
    (collectFiles nested.files scripts [".", "src/lib"]).run =
      ["./src/a.ts", "./src/lib/b.ts", "src/lib/b.ts"] ∧
    nested.find "./src/lib/b.ts" = .ok (.file (some "")) ∧
    nested.place "./src/lib/b.ts" = nested.place "src/lib/b.ts" := by
  refine ⟨rfl, ?_, rfl, by decide⟩
  rw [collectFiles_of_pairwise (by decide +kernel)]
  decide +kernel

end Disk

end Subscriptions
