import Subscriptions.Proofs.Files.Identity
import Subscriptions.Proofs.Glob.Floating

namespace Subscriptions

namespace Path

/-- The path leads on from another one by names, one at least. -/
def IsBelow (p d : String) : Prop :=
  ∃ names, names ≠ [] ∧ (∀ n ∈ names, IsName n) ∧ p = along d names

section
variable {name p : String} {names : List String}

theorem join_dot (h : IsName name) : join "." name = "./" ++ name := by
  have hdot : ".".isEmpty = false := by decide
  have hslash : (".".toList.getLast? == some '/') = false := by decide
  rw [join, h.not_isAbsolute, hdot, hslash]
  rfl

theorem join_dotSlash (h : IsName name) (hp : p ≠ "") :
    join ("./" ++ p) name = "./" ++ join p name := by
  have hempty : p.isEmpty = false := by simpa using hp
  have hempty' : ("./" ++ p).isEmpty = false := by simp
  have hlast : ("./" ++ p).toList.getLast? = p.toList.getLast? := by
    rw [String.toList_append, List.getLast?_append_of_ne_nil _ (mt String.toList_eq_nil_iff.mp hp)]
  rw [join, join, h.not_isAbsolute, hempty, hempty', hlast]
  split
  · rename_i hfalse
    cases hfalse
  · split <;> simp only [String.append_assoc]

/-- Behind a full stop, names make the path that they make alone, with `./` in front. -/
theorem along_dot (hnames : ∀ n ∈ names, IsName n) (hne : names ≠ []) :
    along "." names = "./" ++ along "" names := by
  induction names using List.reverseRecOn with
  | nil => exact absurd rfl hne
  | append_singleton names n ih =>
    have hn : IsName n := hnames n (by simp)
    have hfront : ∀ n ∈ names, IsName n := fun n hn => hnames n (List.mem_append_left _ hn)
    have hlast (base : String) : along base (names ++ [n]) = join (along base names) n := by
      rw [along_append]
      rfl
    rw [hlast, hlast]
    by_cases hnil : names = []
    · subst hnil
      exact (join_dot hn).trans (congrArg ("./" ++ ·) hn.join_empty.symm)
    · rw [ih hfront hnil, join_dotSlash hn (along_ne_empty hfront hnil)]

end

end Path

namespace Glob

/-- The glob matches a path of two names or more with `./` in front just if it matches the path. -/
def IgnoresDot (g : Glob) : Prop :=
  ∀ names, 2 ≤ names.length → (∀ n ∈ names, Path.IsName n) →
    g.picks ("./" ++ Path.along "" names) = g.picks (Path.along "" names)

end Glob

section
variable {filter : FileFilter} {globs : List Glob} {names way : List String} {p q d : String}

theorem Glob.any_picks_congr (h : ∀ g ∈ globs, g.picks p = g.picks q) :
    globs.any (·.picks p) = globs.any (·.picks q) := by
  induction globs with
  | nil => rfl
  | cons g globs ih =>
    obtain ⟨hg, hglobs⟩ := List.forall_mem_cons.mp h
    rw [List.any_cons, List.any_cons, hg, ih hglobs]

namespace FileFilter

/-- None of the directories on the way along names is excluded, as they are spelled on the way from
the directory that paths start from. -/
def Opens (filter : FileFilter) (names : List String) : Prop :=
  ∀ above, above ≠ [] → above <+: names → filter.isExcluded ("./" ++ Path.along "" above) = false

theorem isExcluded_dot (hexcluded : ∀ g ∈ filter.excluded, g.IgnoresDot)
    (hlength : 2 ≤ names.length) (hnames : ∀ n ∈ names, Path.IsName n) :
    filter.isExcluded ("./" ++ Path.along "" names) = filter.isExcluded (Path.along "" names) :=
  Glob.any_picks_congr fun g hg => hexcluded g hg names hlength hnames

theorem accepts_dot (hincluded : ∀ g ∈ filter.included, g.IgnoresDot)
    (hexcluded : ∀ g ∈ filter.excluded, g.IgnoresDot)
    (hlength : 2 ≤ names.length) (hnames : ∀ n ∈ names, Path.IsName n) :
    filter.accepts ("./" ++ Path.along "" names) = filter.accepts (Path.along "" names) := by
  rw [accepts, accepts, isExcluded_dot hexcluded hlength hnames,
    Glob.any_picks_congr fun g hg => hincluded g hg names hlength hnames]

/-- What is kept below a directory is kept on the way through the directory, if nothing is excluded on
the way to it. -/
theorem keeps_dot_iff (hincluded : ∀ g ∈ filter.included, g.IgnoresDot)
    (hexcluded : ∀ g ∈ filter.excluded, g.IgnoresDot) (hway : way ≠ [])
    (hopens : filter.Opens way) (hne : names ≠ [])
    (hnames : ∀ n ∈ way ++ names, Path.IsName n) :
    filter.Keeps "." (way ++ names) ↔ filter.Keeps (Path.along "" way) names := by
  have hlong {more : List String} (hmore : more ≠ []) : 2 ≤ (way ++ more).length := by
    have := List.length_pos_iff.mpr hway
    have := List.length_pos_iff.mpr hmore
    rw [List.length_append]
    omega
  have hdot {above : List String} (habove : above ≠ []) (hstart : above <+: way ++ names) :
      Path.along "." above = "./" ++ Path.along "" above :=
    Path.along_dot (fun n hn => hnames n (hstart.subset hn)) habove
  have haccepts : filter.accepts (Path.along "." (way ++ names)) =
      filter.accepts (Path.along (Path.along "" way) names) := by
    rw [hdot (List.append_ne_nil_of_left_ne_nil hway _) List.prefix_rfl, ← Path.along_append,
      accepts_dot hincluded hexcluded (hlong hne) hnames]
  have hexcludes {above : List String} (habove : above ≠ []) (hstart : above <+: names) :
      filter.isExcluded (Path.along "." (way ++ above)) =
        filter.isExcluded (Path.along (Path.along "" way) above) := by
    have hstart : way ++ above <+: way ++ names := (List.prefix_append_right_inj way).mpr hstart
    rw [hdot (List.append_ne_nil_of_left_ne_nil hway _) hstart, ← Path.along_append,
      isExcluded_dot hexcluded (hlong habove) fun n hn => hnames n (hstart.subset hn)]
  rw [Keeps, Keeps, haccepts]
  refine and_congr_right fun _ => ⟨fun h above below habove hbelow hsplit => ?_,
    fun h above below habove hbelow hsplit => ?_⟩
  · rw [← hexcludes habove ⟨below, hsplit.symm⟩]
    exact h (way ++ above) below (List.append_ne_nil_of_left_ne_nil hway _) hbelow
      (by rw [hsplit, List.append_assoc])
  · -- A directory on the way is one up to `way`, or it is below that one.
    rcases List.append_eq_append_iff.mp hsplit with ⟨between, rfl, hnames'⟩ | ⟨between, hway', -⟩
    · by_cases hbetween : between = []
      · rw [hbetween, List.append_nil]
        rw [hdot hway (List.prefix_append _ _)]
        exact hopens way hway List.prefix_rfl
      · rw [hexcludes hbetween ⟨below, hnames'.symm⟩]
        exact h between below hbetween hbelow hnames'
    · have hstart : above <+: way := ⟨between, hway'.symm⟩
      rw [hdot habove (hstart.trans (List.prefix_append _ _))]
      exact hopens above habove hstart

end FileFilter

namespace Disk

variable {disk : Disk} {ls : List (String × Listing)}

/-- Below a directory the same files are collected from the directory and from the one that paths
start from, but for the `./` in front. -/
def Respells (disk : Disk) (filter : FileFilter) (d : String) : Prop :=
  ∀ p, p ∈ (collectFiles disk.files filter [d]).run ↔
    "./" ++ p ∈ (collectFiles disk.files filter ["."]).run ∧ Path.IsBelow p d

/-- The files that are collected from one directory. -/
theorem mem_collectFiles_iff (htidy : disk.IsTidy) (hd : disk.files.below? d = some ls) :
    p ∈ (collectFiles disk.files filter [d]).run ↔
      ∃ names, Leads ls names ∧ filter.Keeps d names ∧ p = Path.along d names := by
  have htakes (names : List String) :
      disk.Takes filter d names ↔ Leads ls names ∧ filter.Keeps d names := by rw [Takes, hd]
  have hmem {q : String} (hq : q ∈ (collectFiles disk.files filter [d]).run) :
      ∃ names, disk.Takes filter d names ∧ q = Path.along d names := by
    obtain ⟨input, hinput, names, hnames, rfl⟩ := mem_collectFiles hq
    obtain rfl := List.mem_singleton.mp hinput
    exact ⟨names, hnames, rfl⟩
  constructor
  · intro hp
    obtain ⟨names, hnames, rfl⟩ := hmem hp
    exact ⟨names, ((htakes names).mp hnames).1, ((htakes names).mp hnames).2, rfl⟩
  · rintro ⟨names, hleads, hkeeps, rfl⟩
    have hnames := (htakes names).mpr ⟨hleads, hkeeps⟩
    -- What is collected has the same components, and it is the same path along names.
    obtain ⟨q, hq, hcomponents⟩ := exists_mem_collectFiles (List.mem_singleton_self d) hnames
    obtain ⟨others, hothers, rfl⟩ := hmem hq
    rwa [Path.along_injective (hothers.isName htidy) (hnames.isName htidy) hcomponents] at hq

theorem mem_collectFiles_along (htidy : disk.IsTidy) (hd : disk.files.below? d = some ls)
    (hleads : Leads ls names) :
    Path.along d names ∈ (collectFiles disk.files filter [d]).run ↔ filter.Keeps d names := by
  have hnames {names : List String} (hleads : Leads ls names) : ∀ n ∈ names, Path.IsName n :=
    ((leads_iff_of_below? htidy hd).mp hleads).2.1
  rw [mem_collectFiles_iff htidy hd]
  constructor
  · rintro ⟨others, hothers, hkeeps, halong⟩
    rwa [Path.along_injective (hnames hleads) (hnames hothers) (congrArg Path.components halong)]
  · intro hkeeps
    exact ⟨names, hleads, hkeeps, rfl⟩

/-- The directory that paths start from is there if a directory below it is. -/
theorem exists_below?_dot (htidy : disk.IsTidy) (hway : way ≠ [])
    (hnames : ∀ n ∈ way, Path.IsName n) (hd : disk.files.below? (Path.along "" way) = some ls) :
    ∃ top, disk.files.below? "." = some top := by
  obtain ⟨-, es, above, hwayTo, -⟩ := (below?_eq_some_iff htidy).mp hd
  rw [← wayTo_along_dot hnames hway, wayTo_along hnames (by decide)] at hwayTo
  obtain ⟨start, hstart, hfollow⟩ := bind_eq_ok_iff.mp hwayTo
  obtain ⟨n, way, rfl⟩ := List.exists_cons_of_ne_nil hway
  obtain ⟨next, hfirst, -⟩ := bind_eq_ok_iff.mp hfollow
  obtain ⟨top, above, rfl⟩ := exists_directory_of_follow hfirst
  exact ⟨_, (below?_eq_some_iff htidy).mpr ⟨by decide, top, above, hstart, rfl⟩⟩

/-- Names lead down from a directory just if they do behind the names of the directory. -/
theorem leads_dot_iff (htidy : disk.IsTidy) {top : List (String × Listing)}
    (htop : disk.files.below? "." = some top) (hway : way ≠ [])
    (hd : disk.files.below? (Path.along "" way) = some ls) (hne : names ≠ [])
    (hnames : ∀ n ∈ way ++ names, Path.IsName n) : Leads top (way ++ names) ↔ Leads ls names := by
  have hlong : way ++ names ≠ [] := List.append_ne_nil_of_left_ne_nil hway _
  have hbelow : ∀ n ∈ names, Path.IsName n := fun n hn => hnames n (List.mem_append_right _ hn)
  rw [leads_iff_of_below? htidy htop, leads_iff_of_below? htidy hd, wayTo_along_dot hnames hlong,
    ← Path.along_append]
  exact and_congr (iff_of_true hlong hne) (and_congr (iff_of_true hnames hbelow) Iff.rfl)

/-- Below a directory that is not closed off, the same is collected if all globs ignore the `./`. -/
theorem respells (htidy : disk.IsTidy) (hincluded : ∀ g ∈ filter.included, g.IgnoresDot)
    (hexcluded : ∀ g ∈ filter.excluded, g.IgnoresDot) (hway : way ≠ [])
    (hnames : ∀ n ∈ way, Path.IsName n) (hd : disk.files.below? (Path.along "" way) = some ls)
    (hopens : filter.Opens way) : disk.Respells filter (Path.along "" way) := by
  obtain ⟨top, htop⟩ := exists_below?_dot htidy hway hnames hd
  have hall {names : List String} (hbelow : ∀ n ∈ names, Path.IsName n) :
      ∀ n ∈ way ++ names, Path.IsName n := fun n hn =>
    (List.mem_append.mp hn).elim (hnames n) (hbelow n)
  have hdot {names : List String} (hbelow : ∀ n ∈ names, Path.IsName n) :
      "./" ++ Path.along (Path.along "" way) names = Path.along "." (way ++ names) := by
    rw [← Path.along_append,
      Path.along_dot (hall hbelow) (List.append_ne_nil_of_left_ne_nil hway _)]
  intro p
  rw [mem_collectFiles_iff htidy hd, mem_collectFiles_iff htidy htop]
  constructor
  · rintro ⟨names, hleads, hkeeps, rfl⟩
    have hbelow := ((leads_iff_of_below? htidy hd).mp hleads).2.1
    exact ⟨⟨way ++ names, (leads_dot_iff htidy htop hway hd hleads.ne_nil (hall hbelow)).mpr hleads,
      (FileFilter.keeps_dot_iff hincluded hexcluded hway hopens hleads.ne_nil (hall hbelow)).mpr hkeeps,
      hdot hbelow⟩, names, hleads.ne_nil, hbelow, rfl⟩
  · rintro ⟨⟨others, hleads, hkeeps, halong⟩, names, hne, hbelow, rfl⟩
    have hothers := ((leads_iff_of_below? htidy htop).mp hleads).2.1
    rw [hdot hbelow] at halong
    obtain rfl := Path.along_injective (hall hbelow) hothers (congrArg Path.components halong)
    exact ⟨names, (leads_dot_iff htidy htop hway hd hne (hall hbelow)).mp hleads,
      (FileFilter.keeps_dot_iff hincluded hexcluded hway hopens hne (hall hbelow)).mp hkeeps, rfl⟩

end Disk

end

def Entry.chain : List String → Entry
  | [] => .file (some "")
  | n :: names => .directory [(n, chain names)]

def Disk.chain (names : List String) : Disk := ⟨Entry.chain names, [], none⟩

section
variable {n m : String} {names : List String} {g : Glob}

theorem Entry.isTidy_chain (hnames : ∀ n ∈ names, Path.IsName n) :
    (Entry.chain names).isTidy = true := by
  induction names with
  | nil => rfl
  | cons n names ih =>
    obtain ⟨hn, hnames⟩ := List.forall_mem_cons.mp hnames
    simp [chain, isTidy, areTidy, hn, ih hnames]

theorem leads_chain (n : String) (names : List String) :
    Leads (Entry.listings [(n, Entry.chain names)]) (n :: names) := by
  induction names generalizing n with
  | nil => exact .file (List.mem_singleton_self _)
  | cons m names ih => exact .directory (List.mem_singleton_self _) (ih m)

namespace Disk

theorem isTidy_chain (hnames : ∀ n ∈ names, Path.IsName n) : (chain names).IsTidy :=
  ⟨Entry.isTidy_chain hnames, nofun⟩

theorem below?_dot_chain (n : String) (names : List String) :
    (chain (n :: names)).files.below? "." = some (Entry.listings [(n, Entry.chain names)]) := rfl

theorem below?_chain (hnames : ∀ x ∈ n :: m :: names, Path.IsName x) :
    (chain (n :: m :: names)).files.below? n = some (Entry.listings [(m, Entry.chain names)]) := by
  have hn : Path.IsName n := hnames n List.mem_cons_self
  have htidy := isTidy_chain hnames
  refine (below?_eq_some_iff htidy).mpr ⟨hn.ne_empty, _, [(chain (n :: m :: names)).root], ?_, rfl⟩
  rw [wayTo_name hn]
  exact (follow_of_mem htidy.root [] (List.mem_singleton_self _)).2.2

/-- If the file is collected from its outermost directory just if it is collected from the one that
paths start from, then the glob that is asked for it ignores the `./`. -/
theorem picks_of_respells (hnames : ∀ x ∈ n :: m :: names, Path.IsName x)
    (h : (chain (n :: m :: names)).Respells ⟨[g], []⟩ n) :
    g.picks ("./" ++ Path.along "" (n :: m :: names)) = g.picks (Path.along "" (n :: m :: names)) := by
  have hn : Path.IsName n := hnames n List.mem_cons_self
  have htidy := isTidy_chain hnames
  have hkeeps (d : String) (names : List String) :
      FileFilter.Keeps ⟨[g], []⟩ d names ↔ g.picks (Path.along d names) = true := by
    simp [FileFilter.Keeps, FileFilter.accepts, FileFilter.isExcluded]
  have hbelow : Path.along "" (n :: m :: names) = Path.along n (m :: names) :=
    congrArg (Path.along · (m :: names)) hn.join_empty
  have hdot : Path.along "." (n :: m :: names) = "./" ++ Path.along n (m :: names) :=
    (Path.along_dot hnames (List.cons_ne_nil _ _)).trans (congrArg ("./" ++ ·) hbelow)
  have hmem := h (Path.along n (m :: names))
  rw [mem_collectFiles_along htidy (below?_chain hnames) (leads_chain m names), ← hdot,
    mem_collectFiles_along htidy (below?_dot_chain n (m :: names)) (leads_chain n (m :: names)),
    hkeeps, hkeeps, hdot] at hmem
  rw [hbelow, Bool.eq_iff_iff, hmem, and_iff_left]
  exact ⟨m :: names, List.cons_ne_nil _ _, (List.forall_mem_cons.mp hnames).2, rfl⟩

end Disk

end

/-- A directory that is not closed off has the same files collected as they are collected below it
from the directory that paths start from, for all trees and all filters of given globs, just if all
these globs ignore the `./` in front. Globs that may begin in any directory do, and all those of the
default settings. -/
theorem Disk.respells_iff (globs : List Glob) :
    ((∀ (disk : Disk) (filter : FileFilter) (way : List String) (ls : List (String × Listing)),
      disk.IsTidy → filter.included ⊆ globs → filter.excluded ⊆ globs → way ≠ [] →
      (∀ n ∈ way, Path.IsName n) → disk.files.below? (Path.along "" way) = some ls →
      filter.Opens way → disk.Respells filter (Path.along "" way)) ↔
        ∀ g ∈ globs, g.IgnoresDot) ∧
    (∀ g : Glob, g.floats = true → g.IgnoresDot) ∧
    ∃ filter, FileFilter.ofTexts ({} : FileSettings).included ({} : FileSettings).excluded =
      .ok filter ∧ ∀ g ∈ filter.included ++ filter.excluded, g.IgnoresDot := by
  have hfloats (g : Glob) (hg : g.floats = true) : g.IgnoresDot :=
    fun _ _ _ => Glob.picks_dotSlash hg _
  obtain ⟨filter, hfilter, hdefault⟩ := Glob.floats_of_default
  refine ⟨⟨fun h g hg names hlength hnames => ?_, fun h disk filter way ls htidy hincluded hexcluded
    hway hnames hbelow hopens => ?_⟩, hfloats, filter, hfilter, fun g hg => hfloats g (hdefault g hg)⟩
  · obtain ⟨n, m, names, rfl⟩ : ∃ n m rest, names = n :: m :: rest := by
      match names, hlength with
      | n :: m :: rest, _ => exact ⟨n, m, rest, rfl⟩
    have hn : Path.IsName n := hnames n List.mem_cons_self
    have hspelled : Path.along "" [n] = n := hn.join_empty
    have hbelow :=
      (congrArg (chain (n :: m :: names)).files.below? hspelled).trans (below?_chain hnames)
    have hrespells := h _ ⟨[g], []⟩ [n] _ (isTidy_chain hnames)
      (List.cons_subset.mpr ⟨hg, List.nil_subset _⟩) (List.nil_subset _) (List.cons_ne_nil _ _)
      (List.forall_mem_singleton.mpr hn) hbelow fun _ _ _ => rfl
    rw [hspelled] at hrespells
    exact picks_of_respells hnames hrespells
  · exact respells htidy (fun g hg => h g (hincluded hg)) (fun g hg => h g (hexcluded hg)) hway hnames
      hbelow hopens

namespace Disk

/-- All files below a directory that is spelled in front. -/
def belowSource : FileFilter where
  included := [⟨"src/**", [.literal 's', .literal 'r', .literal 'c', .under]⟩]
  excluded := []

/-- All scripts, but none below a directory of that name. -/
def outsideSource : FileFilter where
  included := scripts.included
  excluded := [⟨"**/src", [.leading, .literal 's', .literal 'r', .literal 'c']⟩]

/-- A glob that says where the path starts matches nothing on the way from the directory that paths
start from. A directory that is not excluded is not reached from there if one above it is. -/
theorem collectFiles_below_dot :
    FileFilter.ofTexts ["src/**"] [] = .ok belowSource ∧
    belowSource.isExcluded "src" = false ∧
    (collectFiles nested.files belowSource ["src"]).run = ["src/a.ts", "src/lib/b.ts"] ∧
    (collectFiles nested.files belowSource ["."]).run = [] ∧
    FileFilter.ofTexts ["**/*.ts"] ["**/src"] = .ok outsideSource ∧
    outsideSource.isExcluded "src/lib" = false ∧
    (collectFiles nested.files outsideSource ["src/lib"]).run = ["src/lib/b.ts"] ∧
    (collectFiles nested.files outsideSource ["."]).run = [] := by
  refine ⟨rfl, by decide, ?_, ?_, rfl, by decide +kernel, ?_, ?_⟩ <;>
    rw [collectFiles_of_pairwise (by decide +kernel)] <;> decide +kernel

end Disk

end Subscriptions
