import Mathlib.Data.List.Nodup
import Mathlib.Tactic
import Subscriptions.Proofs.Config.Loading
import Subscriptions.Proofs.Config.Merging
import Subscriptions.Proofs.Config.Setting

namespace Subscriptions

namespace Setting

variable {s : Setting} {ours theirs : Config}

/-- Merging heeds that a default in the other configuration says nothing. -/
def isGuarded : Setting → Bool
  | .parallel | .included | .excluded => false
  | _ => true

theorem isGuarded_of_ne (hs : s.isCollection = false) (hparallel : s ≠ .parallel) :
    s.isGuarded = true := by
  cases s <;> simp_all [isGuarded, isCollection]

/-- A single setting that differs from the default takes the place of ours. -/
theorem value_merge_of_ne (hs : s.isCollection = false) (h : s.value theirs ≠ s.default) :
    s.value (ours.merge theirs) = s.value theirs := by
  cases s with
  | parallel => rfl
  | verbose =>
    have htrue : theirs.output.verbose = true := (Bool.not_eq_false _).mp h
    change (ours.output.verbose || theirs.output.verbose) = theirs.output.verbose
    rw [htrue, Bool.or_true]
  | enabled =>
    have hfalse : theirs.rules.untracked.enabled = false := (Bool.not_eq_true _).mp h
    change (ours.rules.untracked.enabled && theirs.rules.untracked.enabled) =
      theirs.rules.untracked.enabled
    rw [hfalse, Bool.and_false]
  | severity =>
    obtain ⟨severity, hsome⟩ : ∃ severity, theirs.rules.untracked.severity = some severity :=
      Option.ne_none_iff_exists'.mp h
    change theirs.rules.untracked.severity.or ours.rules.untracked.severity =
      theirs.rules.untracked.severity
    rw [hsome, Option.some_or]
  | included | excluded | disabledRules | enabledRules | severities | perFile => cases hs
  | _ => exact if_neg h

theorem value_merge_of_eq (hs : s.isGuarded = true) (h : s.value theirs = s.default) :
    s.value (ours.merge theirs) = s.value ours := by
  cases s with
  | parallel | included | excluded => cases hs
  | verbose => exact (congrArg (ours.output.verbose || ·) h).trans (Bool.or_false _)
  | enabled => exact (congrArg (ours.rules.untracked.enabled && ·) h).trans (Bool.and_true _)
  | severity => exact congrArg (Option.or · ours.rules.untracked.severity) h
  | disabledRules => exact (congrArg (ours.rules.disabled ++ ·) h).trans (List.append_nil _)
  | severities => exact congrArg (overlay ours.rules.severity) h
  | perFile => exact congrArg (extend ours.rules.perFile) h
  | _ => exact if_pos h

/-- A configuration that is merged into the defaults keeps its guarded settings. -/
theorem value_default_merge (hs : s.isGuarded = true) (h : theirs.rules.Distinct) :
    s.value (({} : Config).merge theirs) = s.value theirs := by
  by_cases hdefault : s.value theirs = s.default
  · exact (value_merge_of_eq hs hdefault).trans hdefault.symm
  cases hcollection : s.isCollection with
  | false => exact value_merge_of_ne hcollection hdefault
  | true => cases s with
    | disabledRules => exact List.nil_append _
    | enabledRules => exact if_neg hdefault
    | severities => exact overlay_nil h.severity
    | perFile => exact extend_nil h.perFile
    | included | excluded => cases hs
    | _ => cases hcollection

/-- What a configuration must have in a setting for those that are merged over it to keep it where
they do not mention it. -/
def Kept : Setting → Config → Prop
  | .parallel, c => c.engine.parallel = true
  | .included, c => ({} : FileSettings).included <+: c.files.included ∧ c.files.included.Nodup
  | .excluded, c => ({} : FileSettings).excluded <+: c.files.excluded ∧ c.files.excluded.Nodup
  | _, _ => True

/-- Globs stay as they are between the defaults if and only if they start with them and name
nothing twice. -/
theorem addMissing_twice_eq_iff {base globs : List String} (h : base.Nodup) :
    addMissing (addMissing base globs) base = globs ↔ base <+: globs ∧ globs.Nodup := by
  rw [addMissing_of_subset prefix_addMissing.subset, addMissing_eq_self_iff h]

/-- A setting that is left out is kept through a merge with the defaults in front and its own
default behind. -/
theorem value_merge_eq_iff_kept {below own : Config} (h : below.rules.Distinct)
    (hown : s.value own = s.default) :
    s.value ((({} : Config).merge below).merge own) = s.value below ↔ s.Kept below := by
  cases s with
  | parallel =>
    change own.engine.parallel = below.engine.parallel ↔ below.engine.parallel = true
    rw [show own.engine.parallel = true from hown, eq_comm]
  | included =>
    change addMissing (addMissing ({} : FileSettings).included below.files.included)
      own.files.included = below.files.included ↔ _
    rw [show own.files.included = ({} : FileSettings).included from hown]
    exact addMissing_twice_eq_iff (by decide)
  | excluded =>
    change addMissing (addMissing ({} : FileSettings).excluded below.files.excluded)
      own.files.excluded = below.files.excluded ↔ _
    rw [show own.files.excluded = ({} : FileSettings).excluded from hown]
    exact addMissing_twice_eq_iff (by decide)
  | _ =>
    refine iff_of_true ?_ trivial
    exact (value_merge_of_eq rfl hown).trans (value_default_merge rfl h)

end Setting

namespace Config

variable {formats : Formats} {files : FileSystem Id} {path base : String}
  {config own below : Config} {δ : Type} [Document δ] {d : δ}

theorem distinct_of_decode? (h : decode? d = some own) : own.rules.Distinct := by
  have hread := Setting.reads_of_decode? h
  have hnodup {α : Type} {read : δ → Option α} {place : Option δ} {t : List (String × α)}
      (ht : Document.Reads (Document.tableOf read) [] place t) : (names t).Nodup := by
    cases place with
    | none =>
      rw [show t = [] from ht]
      exact List.nodup_nil
    | some v => exact nodup_names_of_tableOf ht
  exact ⟨hnodup (hread .severities), hnodup (hread .perFile)⟩

theorem distinct_default : ({} : Config).rules.Distinct := ⟨List.nodup_nil, List.nodup_nil⟩

theorem distinct_foldl_merge {bases : List Config} (h : config.rules.Distinct) :
    (bases.foldl merge config).rules.Distinct := by
  induction bases generalizing config with
  | nil => exact h
  | cons base bases ih => exact ih h.merge

/-- Whatever is loaded names nothing twice in its tables. -/
theorem distinct_of_run_loadWithin {levels : Nat}
    (h : (loadWithin formats files levels path).run = .ok config) : config.rules.Distinct := by
  cases levels with
  | zero => exact absurd h run_loadWithin_zero_ne_ok
  | succ levels =>
    obtain ⟨own, bases, ⟨text, -, δ, inst, d, -, hdecode⟩, -, rfl⟩ :=
      run_loadWithin_succ_eq_ok_iff.mp h
    rw [withParents]
    split
    · exact distinct_of_decode? hdecode
    · exact (distinct_foldl_merge distinct_default).merge

/-- A file writes a document with one parent, which is no preset and stands for the other file. -/
structure Extends (formats : Formats) (files : FileSystem Id) (path base : String) (d : δ) :
    Prop where
  written : ∃ text, files.read path = .ok text ∧ Written formats path text δ d
  parent : ∃ v name, Setting.section? "extends" d = some v ∧
    Document.listOf Document.text? v = some [name] ∧ preset? name = none ∧
    base = Path.join (Path.directory path) name

/-- A file with one other file as its parent is that file merged into the defaults, and itself over
it. -/
theorem Extends.exists_merge (h : Extends formats files path base d)
    (hload : (load files path formats).run = .ok config) :
    ∃ own below, decode? d = some own ∧ (load files base formats).run = .ok below ∧
      config = (({} : Config).merge below).merge own := by
  obtain ⟨⟨text, hread, hwritten⟩, v, name, hplace, hnames, hnone, rfl⟩ := h
  obtain ⟨own, bases, hopens, hbases, rfl⟩ := run_loadWithin_succ_eq_ok_iff.mp hload
  have hdecode : decode? d = some own := by
    rw [← run_readFile_eq_ok_iff, run_readFile, hread] at hopens
    exact hwritten.ofFile_eq_ok_iff.mp hopens
  have hparents : own.parents = [name] := by
    have hparents := (readFrom hdecode).parents
    rw [← Setting.section?, hplace] at hparents
    exact Option.some.inj (hparents.symm.trans hnames)
  rw [hparents] at hbases
  obtain _ | ⟨hstands, _ | _⟩ := hbases
  rename_i below
  have hbelow := hstands.resolve_left (by simp [hnone])
  refine ⟨own, below, hdecode, run_loadWithin_mono (Nat.le_succ 9) hbelow.2, ?_⟩
  simp [withParents, hparents]

/-- Whatever reads the documents, a single setting that a file mentions has the value that is
written for it where that is not the default, and linting in parallel has it always. Where the
default is written, the setting has the value of the one file that is the parent, as if it were not
mentioned. -/
theorem stated_settings_win (h : Extends formats files path base d)
    (hload : (load files path formats).run = .ok config) :
    ∃ below, (load files base formats).run = .ok below ∧
      ∀ s : Setting, s.isCollection = false → ∀ v, s.place? d = some v → ∃ x, s.read v = some x ∧
        (s = .parallel ∨ x ≠ s.default → s.value config = x) ∧
        (s ≠ .parallel → x = s.default → s.value config = s.value below) := by
  obtain ⟨own, below, hdecode, hbelow, rfl⟩ := h.exists_merge hload
  refine ⟨below, hbelow, ?_⟩
  intro s hs v hplace
  have hread := Setting.reads_of_decode? hdecode s
  rw [hplace] at hread
  refine ⟨s.value own, hread, ?_, ?_⟩
  · rintro (rfl | hne)
    · rfl
    · exact Setting.value_merge_of_ne hs hne
  · intro hparallel hdefault
    have hguarded := Setting.isGuarded_of_ne hs hparallel
    rw [Setting.value_merge_of_eq hguarded hdefault,
      Setting.value_default_merge hguarded (distinct_of_run_loadWithin hbelow)]

def contraryText : String := "\x7b\"extends\":[\"base.json\"]," ++
  "\"engine\":\x7b\"jobs\":0\x7d,\"output\":\x7b\"context\":3\x7d\x7d"

/-- A file that states the default number of jobs, and context lines, over another one. -/
def contrary : Disk where
  root := .directory [
    ("base.json", .file (some
      "\x7b\"engine\":\x7b\"jobs\":4\x7d,\"output\":\x7b\"context\":1\x7d\x7d")),
    ("child.json", .file (some contraryText))]
  current := []
  home := none

def contraryDocument : Json := .object [
  ("extends", .array [.string "base.json"]),
  ("engine", .object [("jobs", .number "0")]),
  ("output", .object [("context", .number "3")])]

theorem extends_contrary :
    Extends .standard contrary.files "child.json" "base.json" contraryDocument where
  written := by
    have hread : Id.run (contrary.files.read "child.json") = .ok contraryText := by decide
    have hjson : Json.ofText? contraryText = some contraryDocument := by
      unfold contraryDocument
      cbv
    exact ⟨contraryText, hread, .json (by decide) hjson⟩
  parent := ⟨_, "base.json", rfl, rfl, by decide, by decide⟩

theorem load_contrary : (load contrary.files "child.json").run =
    .ok { engine := { jobs := 4 }, output := { context := 3 } } := by
  have hload : Id.run (load contrary.files "child.json").run =
      .ok { engine := { jobs := 4 }, output := { context := 3 } } := by
    decide +kernel
  exact hload

/-- The context lines are those of the file, and the jobs those of its parent. -/
theorem stated_settings_win_contrary :
    Extends .standard contrary.files "child.json" "base.json" contraryDocument ∧
    ∃ config below, (load contrary.files "child.json").run = .ok config ∧
      (load contrary.files "base.json").run = .ok below ∧
      config.output.context = 3 ∧ config.engine.jobs = below.engine.jobs := by
  obtain ⟨below, hbelow, hwin⟩ := stated_settings_win extends_contrary load_contrary
  refine ⟨extends_contrary, _, below, load_contrary, hbelow, ?_, ?_⟩
  · have hthree : Json.count? (.number "3") = some 3 := by decide
    obtain ⟨x, hx, hcontext, -⟩ := hwin .context rfl (.number "3") rfl
    obtain rfl : (3 : Nat) = x := Option.some.inj (hthree.symm.trans hx)
    have hne : (3 : Nat) ≠ 0 := by decide
    exact hcontext (.inr hne)
  · have hzero : Json.count? (.number "0") = some 0 := by decide
    obtain ⟨x, hx, -, hjobs⟩ := hwin .jobs rfl (.number "0") rfl
    obtain rfl : (0 : Nat) = x := Option.some.inj (hzero.symm.trans hx)
    exact hjobs nofun rfl

/-- The file does not win with the number of jobs that it states. -/
theorem stated_default_overruled :
    Extends .standard contrary.files "child.json" "base.json" contraryDocument ∧
    ∃ config, (load contrary.files "child.json").run = .ok config ∧
      ¬ ∀ s : Setting, s.isCollection = false → ∀ v x, s.place? contraryDocument = some v →
        s.read v = some x → s.value config = x := by
  refine ⟨extends_contrary, _, load_contrary, ?_⟩
  intro hwins
  have hzero : Json.count? (.number "0") = some 0 := by decide
  have hjobs : (4 : Nat) = 0 := hwins .jobs rfl (.number "0") (0 : Nat) rfl hzero
  cases hjobs

/-- Whatever reads the documents, a setting that a file does not mention has the value of the one
file that is the parent, if and only if that keeps it. In a table that the file does mention, so
have the names that are not in it. -/
theorem unstated_settings_inherit_iff (h : Extends formats files path base d)
    (hload : (load files path formats).run = .ok config) : ∃ own below, decode? d = some own ∧
      (load files base formats).run = .ok below ∧
      (∀ s : Setting, s.place? d = none → (s.value config = s.value below ↔ s.Kept below)) ∧
      (∀ ruleId, own.rules.severity.lookup ruleId = none →
        config.rules.severity.lookup ruleId = below.rules.severity.lookup ruleId) ∧
      (∀ glob, own.rules.perFile.lookup glob = none →
        config.rules.perFile.lookup glob = below.rules.perFile.lookup glob) := by
  obtain ⟨own, below, hdecode, hbelow, rfl⟩ := h.exists_merge hload
  have hdistinct := distinct_of_run_loadWithin hbelow
  have hown := distinct_of_decode? hdecode
  refine ⟨own, below, hdecode, hbelow, ?_, ?_, ?_⟩
  · intro s hplace
    have hread := Setting.reads_of_decode? hdecode s
    rw [hplace] at hread
    exact Setting.value_merge_eq_iff_kept hdistinct hread
  · intro ruleId hnone
    change (overlay (overlay [] below.rules.severity) own.rules.severity).lookup ruleId = _
    rw [overlay_nil hdistinct.severity, overlay_eq_combine, lookup_combine hown.severity, hnone]
  · intro glob hnone
    change (extend (extend [] below.rules.perFile) own.rules.perFile).lookup glob = _
    rw [extend_nil hdistinct.perFile, extend_eq_combine, lookup_combine hown.perFile, hnone]

/-- A file that says nothing, over one that turns linting in parallel off and has another verb. -/
def silent : Disk where
  root := .directory [
    ("base.json", .file (some ("\x7b\"engine\":\x7b\"parallel\":false\x7d," ++
      "\"rules\":\x7b\"no-subscribe\":\x7b\"verb\":\"listen\"\x7d\x7d\x7d"))),
    ("child.json", .file (some "\x7b\"extends\":[\"base.json\"]\x7d"))]
  current := []
  home := none

def silentDocument : Json := .object [("extends", .array [.string "base.json"])]

theorem extends_silent : Extends .standard silent.files "child.json" "base.json" silentDocument where
  written := by
    have hread : Id.run (silent.files.read "child.json") =
        .ok "\x7b\"extends\":[\"base.json\"]\x7d" := by
      decide
    have hjson : Json.ofText? "\x7b\"extends\":[\"base.json\"]\x7d" = some silentDocument := by
      unfold silentDocument
      cbv
    exact ⟨_, hread, .json (by decide) hjson⟩
  parent := ⟨_, "base.json", rfl, rfl, by decide, by decide⟩

theorem load_silent : (load silent.files "child.json").run =
    .ok { rules := { untracked := { verb := "listen" } } } := by
  have hload : Id.run (load silent.files "child.json").run =
      .ok { rules := { untracked := { verb := "listen" } } } := by
    decide +kernel
  exact hload

theorem load_silent_base : (load silent.files "base.json").run =
    .ok { engine := { parallel := false }, rules := { untracked := { verb := "listen" } } } := by
  have hload : Id.run (load silent.files "base.json").run =
      .ok { engine := { parallel := false }, rules := { untracked := { verb := "listen" } } } := by
    decide +kernel
  exact hload

/-- The verb is that of the parent. -/
theorem unstated_settings_inherit_silent :
    Extends .standard silent.files "child.json" "base.json" silentDocument ∧
    ∃ config below, (load silent.files "child.json").run = .ok config ∧
      (load silent.files "base.json").run = .ok below ∧
      config.rules.untracked.verb = below.rules.untracked.verb ∧
      config.rules.untracked.verb = "listen" := by
  obtain ⟨own, below, -, hbelow, hinherit, -⟩ :=
    unstated_settings_inherit_iff extends_silent load_silent
  exact ⟨extends_silent, _, below, load_silent, hbelow, (hinherit .verb rfl).mpr trivial, rfl⟩

/-- Whether files are linted in parallel is not inherited. -/
theorem parallel_not_inherited :
    Extends .standard silent.files "child.json" "base.json" silentDocument ∧
    ∃ config below, (load silent.files "child.json").run = .ok config ∧
      (load silent.files "base.json").run = .ok below ∧
      ¬ ∀ s : Setting, s.place? silentDocument = none → s.value config = s.value below := by
  refine ⟨extends_silent, _, _, load_silent, load_silent_base, ?_⟩
  intro hinherits
  have hparallel : true = false := hinherits .parallel rfl
  cases hparallel

end Config

end Subscriptions
