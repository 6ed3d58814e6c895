import Mathlib.Data.List.Chain
import Mathlib.Data.List.Forall2
import Mathlib.Logic.Relation
import Subscriptions.Config.Load
import Subscriptions.Files.Disk

namespace Subscriptions

/-- Each element has a partner if and only if there is a list of partners. -/
theorem exists_forall₂_iff {α β : Type} {R : α → β → Prop} {as : List α} :
    (∃ bs, List.Forall₂ R as bs) ↔ ∀ a ∈ as, ∃ b, R a b := by
  induction as with
  | nil => simp
  | cons a as ih =>
    rw [List.forall_mem_cons, ← ih]
    constructor
    · rintro ⟨_, _ | ⟨hb, hbs⟩⟩
      exact ⟨⟨_, hb⟩, _, hbs⟩
    · rintro ⟨⟨b, hb⟩, bs, hbs⟩
      exact ⟨b :: bs, .cons hb hbs⟩

namespace Config

variable {formats : Formats} {files : FileSystem Id} {path text : String} {config own : Config}
  {levels : Nat}

/-- The text of a file writes a document, in the language that the extension of the file names. -/
inductive Written (formats : Formats) (path text : String) : (δ : Type) → [Document δ] → δ → Prop
  | json {d : formats.json.Value} (hext : Path.extension path = "json")
      (hd : formats.json.read? text = some d) : Written formats path text formats.json.Value d
  | yaml {d : formats.yaml.Value}
      (hext : Path.extension path = "yaml" ∨ Path.extension path = "yml")
      (hd : formats.yaml.read? text = some d) : Written formats path text formats.yaml.Value d

def Opens (formats : Formats) (files : FileSystem Id) (path : String) (config : Config) : Prop :=
  ∃ text, files.read path = .ok text ∧
    ∃ (δ : Type) (_ : Document δ) (d : δ), Written formats path text δ d ∧ decode? d = some config

theorem ofFile_json (hext : Path.extension path = "json") :
    ofFile formats path text = ofJson text formats := by
  unfold ofFile
  split <;> simp_all

theorem ofFile_yaml (hext : Path.extension path = "yaml" ∨ Path.extension path = "yml") :
    ofFile formats path text = ofYaml text formats := by
  unfold ofFile
  split <;> simp_all

theorem ofJson_eq_ok_iff : ofJson text formats = .ok config ↔
    ∃ d, formats.json.read? text = some d ∧ decode? d = some config := by
  rw [ofJson, ← Option.bind_eq_some_iff]
  cases (formats.json.read? text).bind decode? <;> simp

theorem ofYaml_eq_ok_iff : ofYaml text formats = .ok config ↔
    ∃ d, formats.yaml.read? text = some d ∧ decode? d = some config := by
  rw [ofYaml, ← Option.bind_eq_some_iff]
  cases (formats.yaml.read? text).bind decode? <;> simp

theorem Written.ofFile_eq_ok_iff {δ : Type} {inst : Document δ} {d : δ}
    (h : Written formats path text δ d) :
    ofFile formats path text = .ok config ↔ decode? d = some config := by
  cases h with
  | json hext hd =>
    rw [ofFile_json hext, ofJson_eq_ok_iff, hd]
    simp
  | yaml hext hd =>
    rw [ofFile_yaml hext, ofYaml_eq_ok_iff, hd]
    simp

theorem exists_written_of_ofFile (h : ofFile formats path text = .ok config) :
    ∃ (δ : Type) (_ : Document δ) (d : δ),
      Written formats path text δ d ∧ decode? d = some config := by
  unfold ofFile at h
  split at h
  · rename_i hext
    obtain ⟨d, hd, hdecode⟩ := ofYaml_eq_ok_iff.mp h
    exact ⟨_, inferInstance, d, .yaml (.inl hext) hd, hdecode⟩
  · rename_i hext
    obtain ⟨d, hd, hdecode⟩ := ofYaml_eq_ok_iff.mp h
    exact ⟨_, inferInstance, d, .yaml (.inr hext) hd, hdecode⟩
  · rename_i hext
    obtain ⟨d, hd, hdecode⟩ := ofJson_eq_ok_iff.mp h
    exact ⟨_, inferInstance, d, .json hext hd, hdecode⟩
  · cases h

theorem run_readFile : (readFile formats files path).run = (match files.read path with
    | .ok text => ofFile formats path text
    | .error e => .error (.unreadable e)) := by
  rw [readFile]
  change (ExceptT.run (match files.read path with
    | .ok text => readFile.liftExcept (ofFile formats path text)
    | .error e => throw (.unreadable e)) : Id _) = _
  cases files.read path with
  | ok text => exact ExceptT.run_mk (pure (ofFile formats path text))
  | error e => rfl

theorem run_readFile_eq_ok_iff :
    (readFile formats files path).run = .ok config ↔ Opens formats files path config := by
  rw [run_readFile, Opens]
  cases files.read path with
  | error e => simp
  | ok text =>
    constructor
    · intro h
      exact ⟨text, rfl, exists_written_of_ofFile h⟩
    · rintro ⟨_, ⟨rfl⟩, δ, inst, d, hwritten, hdecode⟩
      exact hwritten.ofFile_eq_ok_iff.mpr hdecode

theorem Opens.unique (h : Opens formats files path config) (h' : Opens formats files path own) :
    config = own := by
  rw [← run_readFile_eq_ok_iff] at h h'
  exact Except.ok.inj (h.symm.trans h')

theorem run_bind_eq_ok_iff {ε α β : Type} {x : ExceptT ε Id α} {f : α → ExceptT ε Id β} {b : β} :
    (x >>= f).run = .ok b ↔ ∃ a, x.run = .ok a ∧ (f a).run = .ok b := by
  rw [ExceptT.run_bind]
  change (match x.run with
    | .ok a => (f a).run
    | .error e => .error e : Except ε β) = .ok b ↔ _
  cases x.run with
  | ok a =>
    constructor
    · intro h
      exact ⟨a, rfl, h⟩
    · rintro ⟨_, ⟨rfl⟩, h⟩
      exact h
  | error e =>
    constructor
    · intro h
      cases h
    · rintro ⟨_, ⟨⟩, -⟩

theorem run_pure_eq_ok_iff {ε α : Type} {a b : α} :
    (pure a : ExceptT ε Id α).run = .ok b ↔ b = a := by
  change (Except.ok a : Except ε α) = .ok b ↔ _
  rw [Except.ok.injEq, eq_comm]

/-- The configuration that a parent of a file stands for: a preset, or one loaded from a file. -/
def Stands (formats : Formats) (files : FileSystem Id) (levels : Nat) (path name : String)
    (base : Config) : Prop :=
  preset? name = some base ∨ preset? name = none ∧
    (loadWithin formats files levels (Path.join (Path.directory path) name)).run = .ok base

def takeOn (formats : Formats) (files : FileSystem Id) (levels : Nat) (path : String)
    (ours : Config) (name : String) : ExceptT ConfigError Id Config := do
  match preset? name with
  | some preset => return ours.merge preset
  | none =>
    return ours.merge (← loadWithin formats files levels (Path.join (Path.directory path) name))

theorem loadWithin_succ : loadWithin formats files (levels + 1) path = (do
    let own ← readFile formats files path
    if own.parents.isEmpty then return own
    else return (← own.parents.foldlM (takeOn formats files levels path) {}).merge own) :=
  rfl

theorem run_takeOn_eq_ok_iff {ours : Config} {name : String} :
    (takeOn formats files levels path ours name).run = .ok config ↔
      ∃ base, Stands formats files levels path name base ∧ config = ours.merge base := by
  rw [takeOn]
  cases hpreset : preset? name with
  | some preset =>
    rw [run_pure_eq_ok_iff]
    simp [Stands, hpreset]
  | none =>
    rw [run_bind_eq_ok_iff]
    simp only [run_pure_eq_ok_iff, Stands, hpreset, reduceCtorEq, true_and, false_or]

theorem run_foldlM_takeOn_eq_ok_iff {ours : Config} {names : List String} :
    (names.foldlM (takeOn formats files levels path) ours).run = .ok config ↔
      ∃ bases, List.Forall₂ (Stands formats files levels path) names bases ∧
        config = bases.foldl merge ours := by
  induction names generalizing ours with
  | nil =>
    rw [List.foldlM_nil, run_pure_eq_ok_iff]
    simp
  | cons name names ih =>
    rw [List.foldlM_cons, run_bind_eq_ok_iff]
    simp only [run_takeOn_eq_ok_iff, ih, List.forall₂_cons_left_iff]
    constructor
    · rintro ⟨_, ⟨base, hbase, rfl⟩, bases, hbases, rfl⟩
      exact ⟨base :: bases, ⟨base, bases, hbase, hbases, rfl⟩, rfl⟩
    · rintro ⟨_, ⟨base, bases, hbase, hbases, rfl⟩, rfl⟩
      exact ⟨_, ⟨base, hbase, rfl⟩, bases, hbases, rfl⟩

def withParents (own : Config) (bases : List Config) : Config :=
  if own.parents.isEmpty then own else (bases.foldl merge {}).merge own

/-- Loading a file opens it and takes on what its parents stand for, one level further down. -/
theorem run_loadWithin_succ_eq_ok_iff :
    (loadWithin formats files (levels + 1) path).run = .ok config ↔
    ∃ own bases, Opens formats files path own ∧
      List.Forall₂ (Stands formats files levels path) own.parents bases ∧
      config = own.withParents bases := by
  rw [loadWithin_succ, run_bind_eq_ok_iff]
  apply exists_congr
  intro own
  rw [run_readFile_eq_ok_iff]
  simp only [withParents]
  split
  · rename_i hempty
    rw [List.isEmpty_iff] at hempty
    rw [run_pure_eq_ok_iff]
    simp [hempty]
  · rw [run_bind_eq_ok_iff]
    simp only [run_foldlM_takeOn_eq_ok_iff, run_pure_eq_ok_iff]
    constructor
    · rintro ⟨hopens, _, ⟨bases, hbases, rfl⟩, rfl⟩
      exact ⟨bases, hopens, hbases, rfl⟩
    · rintro ⟨bases, hopens, hbases, rfl⟩
      exact ⟨hopens, _, ⟨bases, hbases, rfl⟩, rfl⟩

theorem run_loadWithin_zero_ne_ok : (loadWithin formats files 0 path).run ≠ .ok config := by
  rw [loadWithin]
  intro h
  cases h

/-- A file that is loaded is loaded alike where more levels are allowed. -/
theorem run_loadWithin_mono {more : Nat} (hmore : levels ≤ more)
    (h : (loadWithin formats files levels path).run = .ok config) :
    (loadWithin formats files more path).run = .ok config := by
  induction levels generalizing path config more with
  | zero => exact absurd h run_loadWithin_zero_ne_ok
  | succ levels ih =>
    obtain _ | more := more
    · cases hmore
    rw [run_loadWithin_succ_eq_ok_iff] at h ⊢
    obtain ⟨own, bases, hopens, hbases, rfl⟩ := h
    refine ⟨own, bases, hopens, hbases.imp ?_, rfl⟩
    rintro name base (hpreset | ⟨hnone, hload⟩)
    · exact .inl hpreset
    · exact .inr ⟨hnone, ih (Nat.le_of_succ_le_succ hmore) hload⟩

/-- A file opens and has a parent that is no preset and stands for the other file. -/
def Refers (formats : Formats) (files : FileSystem Id) (path other : String) : Prop :=
  ∃ own, Opens formats files path own ∧ ∃ name ∈ own.parents, preset? name = none ∧
    other = Path.join (Path.directory path) name

/-- Each walk from a file along parents that are no presets takes fewer than so many steps, and each
file on it opens. -/
def Shallow (formats : Formats) (files : FileSystem Id) (levels : Nat) (path : String) : Prop :=
  ∀ walk, List.IsChain (Refers formats files) (path :: walk) →
    walk.length < levels ∧ ∀ file ∈ path :: walk, ∃ own, Opens formats files file own

/-- One step of a walk is one level of loading. -/
theorem shallow_succ_iff : Shallow formats files (levels + 1) path ↔
    (∃ own, Opens formats files path own) ∧
      ∀ other, Refers formats files path other → Shallow formats files levels other := by
  constructor
  · intro h
    refine ⟨(h [] (List.isChain_singleton path)).2 path List.mem_cons_self, ?_⟩
    intro other hrefers walk hwalk
    obtain ⟨hlength, hfiles⟩ := h (other :: walk) (List.isChain_cons_cons.mpr ⟨hrefers, hwalk⟩)
    exact ⟨Nat.lt_of_succ_lt_succ hlength, (List.forall_mem_cons.mp hfiles).2⟩
  · rintro ⟨hopens, hall⟩ walk hwalk
    cases walk with
    | nil => exact ⟨Nat.succ_pos levels, List.forall_mem_singleton.mpr hopens⟩
    | cons other walk =>
      obtain ⟨hrefers, hrest⟩ := List.isChain_cons_cons.mp hwalk
      obtain ⟨hlength, hfiles⟩ := hall other hrefers walk hrest
      exact ⟨Nat.succ_lt_succ hlength, List.forall_mem_cons.mpr ⟨hopens, hfiles⟩⟩

theorem exists_run_loadWithin_succ_iff :
    (∃ config, (loadWithin formats files (levels + 1) path).run = .ok config) ↔
      (∃ own, Opens formats files path own) ∧ ∀ other, Refers formats files path other →
        ∃ base, (loadWithin formats files levels other).run = .ok base := by
  simp only [run_loadWithin_succ_eq_ok_iff]
  constructor
  · rintro ⟨_, own, bases, hopens, hbases, rfl⟩
    refine ⟨⟨own, hopens⟩, ?_⟩
    rintro _ ⟨own', hopens', name, hname, hnone, rfl⟩
    obtain rfl := hopens.unique hopens'
    obtain ⟨base, hstands⟩ := exists_forall₂_iff.mp ⟨bases, hbases⟩ name hname
    have hload := hstands.resolve_left (by simp [hnone])
    exact ⟨base, hload.2⟩
  · rintro ⟨⟨own, hopens⟩, hall⟩
    have hstands : ∀ name ∈ own.parents, ∃ base, Stands formats files levels path name base := by
      intro name hname
      cases hpreset : preset? name with
      | some preset => exact ⟨preset, .inl hpreset⟩
      | none =>
        obtain ⟨base, hbase⟩ := hall _ ⟨own, hopens, name, hname, hpreset, rfl⟩
        exact ⟨base, .inr ⟨hpreset, hbase⟩⟩
    obtain ⟨bases, hbases⟩ := exists_forall₂_iff.mpr hstands
    exact ⟨_, own, bases, hopens, hbases, rfl⟩

theorem exists_run_loadWithin_eq_ok_iff :
    (∃ config, (loadWithin formats files levels path).run = .ok config) ↔
      Shallow formats files levels path := by
  induction levels generalizing path with
  | zero =>
    constructor
    · rintro ⟨config, h⟩
      exact absurd h run_loadWithin_zero_ne_ok
    · intro h
      exact absurd (h [] (List.isChain_singleton path)).1 (Nat.not_lt_zero _)
  | succ levels ih =>
    rw [exists_run_loadWithin_succ_iff, shallow_succ_iff]
    simp only [ih]

def LeadsToCycle (formats : Formats) (files : FileSystem Id) (path : String) : Prop :=
  ∃ file, Relation.ReflTransGen (Refers formats files) path file ∧
    Relation.TransGen (Refers formats files) file file

theorem LeadsToCycle.step (h : LeadsToCycle formats files path) :
    ∃ other, Refers formats files path other ∧ LeadsToCycle formats files other := by
  obtain ⟨file, hpath, hcycle⟩ := h
  rcases Relation.ReflTransGen.cases_head hpath with rfl | ⟨other, hrefers, hother⟩
  · obtain ⟨other, hrefers, hback⟩ := Relation.TransGen.head'_iff.mp hcycle
    exact ⟨other, hrefers, path, hback, hcycle⟩
  · exact ⟨other, hrefers, file, hother, hcycle⟩

/-- Walks towards a cycle are as long as one likes. -/
theorem LeadsToCycle.exists_walk (h : LeadsToCycle formats files path) (n : Nat) :
    ∃ walk, List.IsChain (Refers formats files) (path :: walk) ∧ walk.length = n := by
  induction n generalizing path with
  | zero => exact ⟨[], List.isChain_singleton path, rfl⟩
  | succ n ih =>
    obtain ⟨other, hrefers, hother⟩ := h.step
    obtain ⟨walk, hwalk, rfl⟩ := ih hother
    exact ⟨other :: walk, List.isChain_cons_cons.mpr ⟨hrefers, hwalk⟩, rfl⟩

/-- Whatever reads the documents, loading a file succeeds if and only if each walk from it along
parents that are no presets takes nine steps at most, and each file on it can be read, has the
extension of a language and writes a configuration in it. Otherwise it is an error, as it is
wherever a walk leads into a cycle. -/
theorem load_succeeds_iff (formats : Formats) (files : FileSystem Id) (path : String) :
    ((∃ config, (load files path formats).run = .ok config) ↔ Shallow formats files 10 path) ∧
    ((∃ e, (load files path formats).run = .error e) ↔ ¬ Shallow formats files 10 path) ∧
    (LeadsToCycle formats files path → ∃ e, (load files path formats).run = .error e) := by
  have hok : (∃ config, (load files path formats).run = .ok config) ↔
      Shallow formats files 10 path :=
    exists_run_loadWithin_eq_ok_iff
  have herror : (∃ e, (load files path formats).run = .error e) ↔
      ¬ ∃ config, (load files path formats).run = .ok config := by
    generalize (load files path formats).run = result
    change Except ConfigError Config at result
    cases result <;> simp
  refine ⟨hok, herror.trans (not_congr hok), ?_⟩
  intro hcycle
  rw [herror, hok]
  intro hshallow
  obtain ⟨walk, hwalk, hlength⟩ := hcycle.exists_walk 10
  have hlt := (hshallow walk hwalk).1
  omega

def circular : Disk where
  root := .directory [("loop.json", .file (some "\x7b\"extends\":[\"loop.json\"]\x7d"))]
  current := []
  home := none

theorem leadsToCycle_circular : LeadsToCycle .standard circular.files "loop.json" := by
  have hopens : Id.run (readFile .standard circular.files "loop.json").run =
      .ok { parents := ["loop.json"] } := by
    decide +kernel
  have hrefers : Refers .standard circular.files "loop.json" "loop.json" := by
    refine ⟨_, run_readFile_eq_ok_iff.mp hopens, "loop.json", List.mem_singleton_self _, ?_, ?_⟩
    · decide
    · decide
  exact ⟨"loop.json", .refl, .single hrefers⟩

/-- Neither is the file loaded nor does loading it go on for ever. -/
theorem load_succeeds_iff_circular : LeadsToCycle .standard circular.files "loop.json" ∧
    (∃ e, (load circular.files "loop.json").run = .error e) ∧
    ¬ Shallow .standard circular.files 10 "loop.json" := by
  obtain ⟨-, herror, hcycle⟩ := load_succeeds_iff .standard circular.files "loop.json"
  have hfails := hcycle leadsToCycle_circular
  exact ⟨leadsToCycle_circular, hfails, herror.mp hfails⟩

end Config

end Subscriptions
