import Subscriptions.Files.Disk
import Subscriptions.Proofs.Path.Naming

namespace Subscriptions

namespace Path

def Component.move (names : List String) : Component → List String
  | .root => []
  | .current => names
  | .parent => names.dropLast
  | .name s => names ++ [s]

def moveBy (names : List String) (part : List Char) : List String :=
  ((componentOf? part).map (Component.move names)).getD names

theorem foldl_moveBy (names : List String) (ps : List (List Char)) :
    ps.foldl moveBy names = (ps.filterMap componentOf?).foldl Component.move names := by
  induction ps generalizing names with
  | nil => rfl
  | cons part ps ih =>
    rw [List.foldl_cons, ih, List.filterMap_cons, moveBy]
    cases componentOf? part <;> rfl

theorem foldl_move_names (front names : List String) :
    (names.map Component.name).foldl Component.move front = front ++ names := by
  induction names generalizing front with
  | nil => exact (List.append_nil _).symm
  | cons n names ih =>
    rw [List.map_cons, List.foldl_cons, Component.move, ih, List.append_assoc, List.singleton_append]

end Path

namespace Entry

mutual

/-- Directories have names only, and each of them once. -/
def isTidy : Entry → Bool
  | .file _ => true
  | .directory entries => decide (entries.map Prod.fst).Nodup && areTidy entries

def areTidy : List (String × Entry) → Bool
  | [] => true
  | (name, e) :: es => decide (Path.IsName name) && e.isTidy && areTidy es

end

variable {name : String} {e : Entry} {es : List (String × Entry)} {l : Listing}

theorem isName_of_mem (h : areTidy es = true) (hmem : (name, e) ∈ es) :
    Path.IsName name ∧ e.isTidy = true := by
  induction es with
  | nil => cases hmem
  | cons first es ih =>
    rw [areTidy, Bool.and_eq_true, Bool.and_eq_true, decide_eq_true_iff] at h
    rcases List.mem_cons.mp hmem with rfl | hmem
    · exact h.1
    · exact ih h.2 hmem

theorem mem_listings : (name, l) ∈ listings es ↔ ∃ e, (name, e) ∈ es ∧ e.listing = l := by
  induction es with
  | nil => simp [listings]
  | cons first es ih =>
    obtain ⟨n, e⟩ := first
    rw [listings, List.mem_cons, ih]
    constructor
    · rintro (h | ⟨e, he, rfl⟩)
      · obtain ⟨rfl, rfl⟩ := Prod.mk.inj h
        exact ⟨e, List.mem_cons_self, rfl⟩
      · exact ⟨e, List.mem_cons_of_mem _ he, rfl⟩
    · rintro ⟨e', he, rfl⟩
      rcases List.mem_cons.mp he with h | h
      · obtain ⟨rfl, rfl⟩ := Prod.mk.inj h
        exact .inl rfl
      · exact .inr ⟨e', h, rfl⟩

/-- In a directory that has each name once, the entry of a name is the one that is looked up. -/
theorem mem_iff_lookup (h : (es.map Prod.fst).Nodup) :
    (name, e) ∈ es ↔ es.lookup name = some e := by
  induction es with
  | nil => simp
  | cons first es ih =>
    obtain ⟨n, e'⟩ := first
    rw [List.map_cons, List.nodup_cons] at h
    by_cases hname : name = n
    · subst hname
      have hnone : (name, e) ∉ es := fun hmem => h.1 (List.mem_map.mpr ⟨_, hmem, rfl⟩)
      simp [hnone, eq_comm]
    · simp [List.lookup_cons, beq_false_of_ne hname, hname, ih h.2]

end Entry

namespace Disk

/-- The tree is tidy, and the directory that paths start from is told by names. -/
structure IsTidy (disk : Disk) : Prop where
  root : disk.root.isTidy = true
  current : ∀ n ∈ disk.current, Path.IsName n

/-- The names that lead from the root to where a path leads. -/
def place (disk : Disk) (path : String) : List String :=
  (Path.components path).foldl Path.Component.move disk.current

def wayAlong (disk : Disk) (names : List String) : Except ReadError (List Entry) :=
  followAll [disk.root] (names.map String.toList)

def wayTo (disk : Disk) (path : String) : Except ReadError (List Entry) :=
  (if Path.isAbsolute path then .ok [disk.root] else disk.wayAlong disk.current).bind fun start =>
    followAll start (Path.parts path.toList)

section
variable {disk : Disk} {way next : List Entry} {e : Entry} {es : List (String × Entry)}
  {name base path : String} {names : List String} {part : List Char} {ps qs : List (List Char)}

theorem bind_eq_ok_iff {α β : Type} {x : Except ReadError α} {f : α → Except ReadError β} {b : β} :
    x.bind f = .ok b ↔ ∃ a, x = .ok a ∧ f a = .ok b := by
  cases x <;> simp [Except.bind]

theorem bind_assoc {α β γ : Type} (x : Except ReadError α) (f : α → Except ReadError β)
    (g : β → Except ReadError γ) : (x.bind f).bind g = x.bind fun a => (f a).bind g := by
  cases x <;> rfl

theorem followAll_cons : followAll way (part :: ps) =
    (follow way part).bind fun next => followAll next ps := List.foldlM_cons

theorem followAll_append : followAll way (ps ++ qs) =
    (followAll way ps).bind fun next => followAll next qs := List.foldlM_append

theorem followAll_singleton : followAll way [part] = follow way part := by
  rw [followAll_cons]
  cases follow way part <;> rfl

/-- Only from directories a path goes on. -/
theorem exists_directory_of_follow (h : follow way part = .ok next) :
    ∃ es above, way = .directory es :: above := by
  match way, h with
  | .directory es :: above, _ => exact ⟨es, above, rfl⟩

/-- By a name a path goes on to the entry that has the name in the directory. -/
theorem follow_name_iff (hname : Path.IsName name) : follow way name.toList = .ok next ↔
    ∃ es above e, way = .directory es :: above ∧ es.lookup name = some e ∧ next = e :: way := by
  obtain ⟨hnil, hdot, hdots⟩ := hname.not_special
  constructor
  · intro h
    obtain ⟨es, above, rfl⟩ := exists_directory_of_follow h
    simp only [follow, hnil, hdot, hdots, Bool.or_self, Bool.false_eq_true, if_false,
      String.ofList_toList] at h
    cases hlookup : es.lookup name with
    | none =>
      rw [hlookup] at h
      cases h
    | some e =>
      rw [hlookup] at h
      cases h
      exact ⟨es, above, e, rfl, hlookup, rfl⟩
  · rintro ⟨es, above, e, rfl, hlookup, rfl⟩
    simp only [follow, hnil, hdot, hdots, Bool.or_self, Bool.false_eq_true, if_false,
      String.ofList_toList, hlookup]

/-- A part stays where the path is, goes back on its way, or goes on to an entry. -/
theorem follow_cases (h : follow way part = .ok next) :
    next = way ∨ (next ≠ [] ∧ ∃ e, way = e :: next) ∨
      ∃ es above name e, way = .directory es :: above ∧ es.lookup name = some e ∧ next = e :: way := by
  obtain ⟨es, above, rfl⟩ := exists_directory_of_follow h
  rw [follow] at h
  split at h
  · cases h
    exact .inl rfl
  · split at h
    · cases habove : above.isEmpty <;> rw [habove] at h <;> cases h
      · exact .inr (.inl ⟨List.isEmpty_eq_false_iff.mp habove, _, rfl⟩)
      · exact .inl rfl
    · split at h
      · rename_i e hlookup
        cases h
        exact .inr (.inr ⟨es, above, _, e, rfl, hlookup, rfl⟩)
      · cases h

def Sound (way : List Entry) : Prop := way ≠ [] ∧ ∀ e ∈ way, e.isTidy = true

theorem Sound.follow (hway : Sound way) (h : Disk.follow way part = .ok next) : Sound next := by
  obtain ⟨hne, htidy⟩ := hway
  rcases follow_cases h with rfl | ⟨hnext, e, rfl⟩ | ⟨es, above, name, e, rfl, hlookup, rfl⟩
  · exact ⟨hne, htidy⟩
  · exact ⟨hnext, fun e he => htidy e (List.mem_cons_of_mem _ he)⟩
  · refine ⟨List.cons_ne_nil _ _, List.forall_mem_cons.mpr ⟨?_, htidy⟩⟩
    have hes := htidy _ List.mem_cons_self
    rw [Entry.isTidy, Bool.and_eq_true, decide_eq_true_iff] at hes
    exact (Entry.isName_of_mem hes.2 ((Entry.mem_iff_lookup hes.1).mpr hlookup)).2

theorem Sound.followAll (hway : Sound way) (h : Disk.followAll way ps = .ok next) : Sound next := by
  induction ps generalizing way with
  | nil =>
    cases h
    exact hway
  | cons part ps ih =>
    obtain ⟨further, hfollow, hrest⟩ := bind_eq_ok_iff.mp h
    exact ih (hway.follow hfollow) hrest

theorem IsTidy.sound_wayTo (htidy : disk.IsTidy) (h : disk.wayTo path = .ok way) : Sound way := by
  obtain ⟨start, hstart, hway⟩ := bind_eq_ok_iff.mp h
  have hroot : Sound [disk.root] :=
    ⟨List.cons_ne_nil _ _, List.forall_mem_singleton.mpr htidy.root⟩
  refine Sound.followAll ?_ hway
  split at hstart
  · cases hstart
    exact hroot
  · exact hroot.followAll hstart

/-- An empty part leads nowhere else, and no path goes on behind it but where it went on before. -/
theorem follow_empty_bind (way : List Entry) (part : List Char) :
    ((follow way []).bind fun next => follow next part) = follow way part := by
  match way with
  | .directory es :: above => rfl
  | .file text :: above => rfl
  | [] => rfl

theorem follow_dot_bind (way : List Entry) (part : List Char) :
    ((follow way ['.']).bind fun next => follow next part) = follow way part := by
  match way with
  | .directory es :: above => rfl
  | .file text :: above => rfl
  | [] => rfl

/-- Entries on the way along names: the names before the last one lead to the entries before it. -/
theorem wayAlong_concat (disk : Disk) (names : List String) (name : String) :
    disk.wayAlong (names ++ [name]) =
      (disk.wayAlong names).bind fun way => follow way name.toList := by
  rw [wayAlong, List.map_append, followAll_append, List.map_singleton]
  simp only [followAll_singleton]
  rfl

/-- The names before the last one lead to the entries before the last one, of which the root is the
first. -/
theorem wayAlong_dropLast {above : List Entry} (hnames : ∀ n ∈ names, Path.IsName n)
    (h : disk.wayAlong names = .ok (e :: above)) :
    disk.wayAlong names.dropLast = .ok (if above.isEmpty then e :: above else above) := by
  cases names using List.reverseRecOn with
  | nil =>
    obtain ⟨-, rfl⟩ := List.cons.inj (Except.ok.inj h)
    exact h
  | append_singleton names name =>
    rw [wayAlong_concat] at h
    obtain ⟨before, hbefore, hlast⟩ := bind_eq_ok_iff.mp h
    have hname : Path.IsName name := hnames name (by simp)
    obtain ⟨es, further, e', rfl, -, hcons⟩ := (follow_name_iff hname).mp hlast
    obtain ⟨-, rfl⟩ := List.cons.inj hcons
    rw [List.dropLast_concat]
    exact hbefore

/-- One part further, the entry is the one at the place to which the part leads. -/
theorem wayAlong_moveBy (hnames : ∀ n ∈ names, Path.IsName n) (hpart : '/' ∉ part)
    (h : disk.wayAlong names = .ok way) (hfollow : follow way part = .ok next) :
    (∀ n ∈ Path.moveBy names part, Path.IsName n) ∧
      disk.wayAlong (Path.moveBy names part) = .ok next := by
  obtain ⟨es, above, rfl⟩ := exists_directory_of_follow hfollow
  rw [Path.moveBy, Path.componentOf?]
  split
  · rename_i hsmall
    simp only [follow, hsmall, if_true] at hfollow
    cases hfollow
    exact ⟨hnames, h⟩
  · rename_i hsmall
    split
    · rename_i hdots
      simp only [follow, hsmall, hdots, Bool.false_eq_true, if_false, if_true] at hfollow
      cases hfollow
      exact ⟨fun n hn => hnames n (List.dropLast_subset names hn), wayAlong_dropLast hnames h⟩
    · rename_i hdots
      have hname : Path.IsName (String.ofList part) := by
        refine ⟨by rwa [String.toList_ofList], ?_⟩
        rw [String.toList_ofList, Path.componentOf?, if_neg hsmall, if_neg hdots]
      refine ⟨fun n hn => ?_, ?_⟩
      · rcases List.mem_append.mp hn with hn | hn
        · exact hnames n hn
        · exact List.mem_singleton.mp hn ▸ hname
      · have hway : disk.wayAlong (names ++ [String.ofList part]) =
            follow (.directory es :: above) part := by
          rw [wayAlong_concat, h, String.toList_ofList]
          rfl
        exact hway.trans hfollow

theorem wayAlong_foldl (hnames : ∀ n ∈ names, Path.IsName n) (hps : ∀ part ∈ ps, '/' ∉ part)
    (h : disk.wayAlong names = .ok way) (hfollow : followAll way ps = .ok next) :
    disk.wayAlong (ps.foldl Path.moveBy names) = .ok next := by
  induction ps generalizing names way with
  | nil =>
    cases hfollow
    exact h
  | cons part ps ih =>
    obtain ⟨hpart, hps⟩ := List.forall_mem_cons.mp hps
    obtain ⟨further, hfurther, hrest⟩ := bind_eq_ok_iff.mp hfollow
    obtain ⟨hnames, hway⟩ := wayAlong_moveBy hnames hpart h hfurther
    exact ih hnames hps hway hrest

/-- The place of a path comes from its parts. -/
theorem place_eq (disk : Disk) (path : String) : disk.place path =
    (Path.parts path.toList).foldl Path.moveBy
      (if Path.isAbsolute path then [] else disk.current) := by
  rw [place, Path.components_eq, Path.foldl_moveBy, List.foldl_append]
  refine congrArg (List.foldl _ · _) ?_
  cases hpath : path.toList with
  | nil => simp [Path.isAbsolute, hpath, Path.parts, Path.anchor]
  | cons c cs =>
    by_cases hc : c = '/'
    · subst hc
      obtain ⟨p, ps, hparts⟩ := List.exists_cons_of_ne_nil (Path.parts_ne_nil cs)
      simp [Path.isAbsolute, hpath, Path.parts_slash, hparts, Path.anchor, Path.Component.move]
    · obtain ⟨p, ps, -, hparts⟩ := Path.parts_cons_of_ne cs hc
      have hanchor : (Path.anchor (Path.parts (c :: cs))).foldl Path.Component.move disk.current =
          disk.current := by
        unfold Path.anchor
        split
        · simp_all
        · rfl
        · rfl
      rw [hanchor, Path.isAbsolute, hpath]
      simp [hc]

theorem find_eq_ok_iff (htidy : disk.IsTidy) : disk.find path = .ok e ↔
    path ≠ "" ∧ ∃ above, disk.wayTo path = .ok (e :: above) := by
  by_cases hpath : path = ""
  · subst hpath
    refine ⟨fun h => ?_, fun h => absurd rfl h.1⟩
    cases h
  · have hempty : path.isEmpty = false := by simpa using hpath
    have hfind : disk.find path = (disk.wayTo path).bind fun way => .ok (way.headD disk.root) := by
      rw [find, hempty, if_neg Bool.false_ne_true, wayTo]
      split
      · rfl
      · rw [wayAlong]
        cases followAll [disk.root] (disk.current.map String.toList) <;> rfl
    rw [hfind, bind_eq_ok_iff]
    constructor
    · rintro ⟨way, hway, hhead⟩
      obtain ⟨first, above, rfl⟩ := List.exists_cons_of_ne_nil (htidy.sound_wayTo hway).1
      cases hhead
      exact ⟨hpath, above, hway⟩
    · rintro ⟨-, above, hway⟩
      exact ⟨_, hway, rfl⟩

/-- What is found at a path is the entry at its place. -/
theorem wayAlong_place (htidy : disk.IsTidy) (h : disk.wayTo path = .ok way) :
    disk.wayAlong (disk.place path) = .ok way := by
  obtain ⟨start, hstart, hway⟩ := bind_eq_ok_iff.mp h
  have hparts : ∀ part ∈ Path.parts path.toList, '/' ∉ part := fun _ => Path.not_mem_of_mem_parts
  rw [place_eq]
  split at hstart
  · rename_i habsolute
    cases hstart
    rw [if_pos habsolute]
    exact wayAlong_foldl nofun hparts rfl hway
  · rename_i hrelative
    rw [if_neg hrelative]
    exact wayAlong_foldl htidy.current hparts hstart hway

theorem place_along (disk : Disk) (base : String) (hnames : ∀ n ∈ names, Path.IsName n) :
    disk.place (Path.along base names) = disk.place base ++ names := by
  rw [place, place, Path.components_along hnames, List.foldl_append, Path.foldl_move_names]

theorem isAbsolute_join (hname : Path.IsName name) (hbase : base ≠ "") :
    Path.isAbsolute (Path.join base name) = Path.isAbsolute base := by
  have hempty : base.isEmpty = false := by simpa using hbase
  obtain ⟨c, cs, hchars⟩ := List.exists_cons_of_ne_nil (mt String.toList_eq_nil_iff.mp hbase)
  rw [Path.join, hname.not_isAbsolute, hempty, Bool.or_self, if_neg Bool.false_ne_true]
  split <;> simp [Path.isAbsolute, hchars]

/-- A name that is joined to a path is followed from where the path leads. -/
theorem wayTo_join (hname : Path.IsName name) (hbase : base ≠ "") :
    disk.wayTo (Path.join base name) =
      (disk.wayTo base).bind fun way => follow way name.toList := by
  obtain ⟨ps, -, hparts, hjoin⟩ := hname.join_parts hbase
  rw [wayTo, wayTo, isAbsolute_join hname hbase, hjoin, bind_assoc]
  congr 1
  funext start
  rw [followAll_append]
  simp only [followAll_singleton]
  rcases hparts with ⟨hparts, -⟩ | hparts
  · rw [hparts]
  · rw [hparts, followAll_append, bind_assoc]
    simp only [followAll_singleton, follow_empty_bind]

/-- Names that are joined to a path are followed from where the path leads. -/
theorem wayTo_along (hnames : ∀ n ∈ names, Path.IsName n) (hbase : base ≠ "") :
    disk.wayTo (Path.along base names) =
      (disk.wayTo base).bind fun way => followAll way (names.map String.toList) := by
  induction names generalizing base with
  | nil => cases h : disk.wayTo base <;> exact h
  | cons n names ih =>
    obtain ⟨hn, hnames⟩ := List.forall_mem_cons.mp hnames
    have halong : Path.along base (n :: names) = Path.along (Path.join base n) names := rfl
    rw [halong, ih hnames (hn.join_ne_empty base), wayTo_join hn hbase, bind_assoc]
    rfl

theorem wayTo_name (hname : Path.IsName name) : disk.wayTo name =
    (disk.wayAlong disk.current).bind fun way => follow way name.toList := by
  rw [wayTo, hname.not_isAbsolute, Path.parts_of_not_mem hname.1]
  simp only [followAll_singleton]
  rfl

/-- Names without a start are followed from the directory that paths start from, as they are behind
a full stop. -/
theorem wayTo_along_dot (hnames : ∀ n ∈ names, Path.IsName n) (hne : names ≠ []) :
    disk.wayTo (Path.along "." names) = disk.wayTo (Path.along "" names) := by
  cases names with
  | nil => exact absurd rfl hne
  | cons n names =>
    obtain ⟨hn, hnames⟩ := List.forall_mem_cons.mp hnames
    have hdot : disk.wayTo "." = (disk.wayAlong disk.current).bind fun way => follow way ['.'] := by
      have hrelative : Path.isAbsolute "." = false := by decide
      have hparts : Path.parts ".".toList = [['.']] := by decide
      rw [wayTo, hrelative, hparts]
      simp only [followAll_singleton]
      rfl
    have hjoin : disk.wayTo (Path.join "." n) = disk.wayTo (Path.join "" n) := by
      rw [wayTo_join hn (by decide), hdot, bind_assoc, hn.join_empty, wayTo_name hn]
      simp only [follow_dot_bind]
    have halong (base : String) : Path.along base (n :: names) = Path.along (Path.join base n) names :=
      rfl
    rw [halong, halong, wayTo_along hnames (hn.join_ne_empty _), hjoin,
      wayTo_along hnames (hn.join_ne_empty _)]

/-- In a tidy directory, the entry of a name is followed to. -/
theorem follow_of_mem (htidy : (Entry.directory es).isTidy = true) (above : List Entry)
    (he : (name, e) ∈ es) : Path.IsName name ∧ e.isTidy = true ∧
      follow (.directory es :: above) name.toList = .ok (e :: .directory es :: above) := by
  rw [Entry.isTidy, Bool.and_eq_true, decide_eq_true_iff] at htidy
  obtain ⟨hname, he'⟩ := Entry.isName_of_mem htidy.2 he
  exact ⟨hname, he', (follow_name_iff hname).mpr
    ⟨es, above, e, rfl, (Entry.mem_iff_lookup htidy.1).mp he, rfl⟩⟩

theorem mem_of_follow (htidy : (Entry.directory es).isTidy = true) (hname : Path.IsName name)
    {above : List Entry} (h : follow (.directory es :: above) name.toList = .ok next) :
    ∃ e, (name, e) ∈ es ∧ next = e :: .directory es :: above := by
  rw [Entry.isTidy, Bool.and_eq_true, decide_eq_true_iff] at htidy
  obtain ⟨es', above', e, hway, hlookup, rfl⟩ := (follow_name_iff hname).mp h
  obtain ⟨hes, rfl⟩ := List.cons.inj hway
  cases hes
  exact ⟨e, (Entry.mem_iff_lookup htidy.1).mpr hlookup, rfl⟩

theorem followAll_of_leads {ls : List (String × Listing)} (h : Leads ls names)
    (hls : Entry.listings es = ls) (htidy : (Entry.directory es).isTidy = true)
    (above : List Entry) : (∀ n ∈ names, Path.IsName n) ∧
      ∃ text rest, followAll (.directory es :: above) (names.map String.toList) =
        .ok (.file text :: rest) := by
  induction h generalizing es above with
  | file hfile =>
    subst hls
    obtain ⟨e, he, hlisting⟩ := Entry.mem_listings.mp hfile
    obtain ⟨hname, -, hfollow⟩ := follow_of_mem htidy above he
    cases e with
    | file text =>
      exact ⟨List.forall_mem_singleton.mpr hname, text, _, followAll_singleton.trans hfollow⟩
    | directory inner => cases hlisting
  | directory hdirectory _ ih =>
    subst hls
    obtain ⟨e, he, hlisting⟩ := Entry.mem_listings.mp hdirectory
    obtain ⟨hname, htidyInner, hfollow⟩ := follow_of_mem htidy above he
    cases e with
    | file text => cases hlisting
    | directory inner =>
      obtain ⟨hnames, text, rest, hrest⟩ :=
        ih (Listing.directory.inj hlisting) htidyInner (.directory es :: above)
      refine ⟨List.forall_mem_cons.mpr ⟨hname, hnames⟩, text, rest, ?_⟩
      rw [List.map_cons, followAll_cons, hfollow]
      exact hrest

theorem leads_of_followAll {above rest : List Entry} {text : Option String}
    (htidy : (Entry.directory es).isTidy = true) (hnames : ∀ n ∈ names, Path.IsName n)
    (hne : names ≠ [])
    (h : followAll (.directory es :: above) (names.map String.toList) = .ok (.file text :: rest)) :
    Leads (Entry.listings es) names := by
  induction names generalizing es above with
  | nil => exact absurd rfl hne
  | cons n names ih =>
    obtain ⟨hn, hnames⟩ := List.forall_mem_cons.mp hnames
    rw [List.map_cons, followAll_cons] at h
    obtain ⟨next, hfirst, hrest⟩ := bind_eq_ok_iff.mp h
    obtain ⟨e, he, rfl⟩ := mem_of_follow htidy hn hfirst
    have hlisting : (n, e.listing) ∈ Entry.listings es := Entry.mem_listings.mpr ⟨e, he, rfl⟩
    cases names with
    | nil =>
      cases hrest
      exact .file hlisting
    | cons m names =>
      obtain ⟨further, hsecond, -⟩ := bind_eq_ok_iff.mp hrest
      obtain ⟨inner, above', hway⟩ := exists_directory_of_follow hsecond
      obtain ⟨rfl, -⟩ := List.cons.inj hway
      obtain ⟨-, htidyInner, -⟩ := follow_of_mem htidy above he
      exact .directory hlisting (ih htidyInner hnames (List.cons_ne_nil _ _) hrest)

theorem below?_eq_some_iff (htidy : disk.IsTidy) {ls : List (String × Listing)} :
    disk.files.below? path = some ls ↔ path ≠ "" ∧
      ∃ es above, disk.wayTo path = .ok (.directory es :: above) ∧ Entry.listings es = ls := by
  have hbelow : disk.files.below? path = some ls ↔
      ∃ es, disk.find path = .ok (.directory es) ∧ Entry.listings es = ls := by
    change (disk.entries? path).map Entry.listings = some ls ↔ _
    rw [entries?, Option.map_eq_some_iff]
    split
    · rename_i es hfind
      simp [hfind]
    · rename_i hfind
      simpa using fun es h => absurd h (hfind es)
  rw [hbelow]
  simp only [find_eq_ok_iff htidy]
  constructor
  · rintro ⟨es, ⟨hpath, above, hway⟩, hes⟩
    exact ⟨hpath, es, above, hway, hes⟩
  · rintro ⟨hpath, es, above, hway, hes⟩
    exact ⟨es, ⟨hpath, above, hway⟩, hes⟩

/-- A path at which there is something that is no directory leads to a file. -/
theorem exists_file_of_below? (htidy : disk.IsTidy) (hfind : disk.find path = .ok e)
    (hbelow : disk.files.below? path = none) :
    ∃ text above, disk.wayTo path = .ok (.file text :: above) := by
  obtain ⟨hpath, above, hway⟩ := (find_eq_ok_iff htidy).mp hfind
  cases e with
  | file text => exact ⟨text, above, hway⟩
  | directory es =>
    have hsome := (below?_eq_some_iff htidy).mpr ⟨hpath, es, above, hway, rfl⟩
    rw [hbelow] at hsome
    cases hsome

/-- Below a path names lead to a file just if the path along the names leads to the file. -/
theorem leads_iff_of_below? (htidy : disk.IsTidy) {ls : List (String × Listing)}
    (hbelow : disk.files.below? base = some ls) :
    Leads ls names ↔ names ≠ [] ∧ (∀ n ∈ names, Path.IsName n) ∧
      ∃ text rest, disk.wayTo (Path.along base names) = .ok (.file text :: rest) := by
  obtain ⟨hbase, es, above, hway, rfl⟩ := (below?_eq_some_iff htidy).mp hbelow
  have htidyBelow : (Entry.directory es).isTidy = true :=
    (htidy.sound_wayTo hway).2 _ List.mem_cons_self
  have halong (hnames : ∀ n ∈ names, Path.IsName n) : disk.wayTo (Path.along base names) =
      followAll (.directory es :: above) (names.map String.toList) := by
    rw [wayTo_along hnames hbase, hway]
    rfl
  constructor
  · intro h
    obtain ⟨hnames, text, rest, hfile⟩ := followAll_of_leads h rfl htidyBelow above
    exact ⟨h.ne_nil, hnames, text, rest, (halong hnames).trans hfile⟩
  · rintro ⟨hne, hnames, text, rest, hfile⟩
    exact leads_of_followAll htidyBelow hnames hne ((halong hnames).symm.trans hfile)

end

end Disk

end Subscriptions
