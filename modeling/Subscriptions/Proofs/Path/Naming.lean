import Mathlib.Data.List.Induction
import Subscriptions.Proofs.Files.Collecting

namespace Subscriptions.Path

/-- A part of a path that stands for an entry of a directory. -/
def IsName (s : String) : Prop := '/' ∉ s.toList ∧ componentOf? s.toList = some (.name s)

instance (s : String) : Decidable (IsName s) := inferInstanceAs (Decidable (_ ∧ _))

/-- What the front of a path says about where the path starts. -/
def anchor : List (List Char) → List Component
  | [] :: _ :: _ => [.root]
  | ['.'] :: _ => [.current]
  | _ => []

section
variable {name path base s : String} {names : List String} {cs : List Char}

theorem parts_ne_nil (cs : List Char) : parts cs ≠ [] := by
  cases cs with
  | nil => nofun
  | cons c cs =>
    rw [parts]
    split
    · nofun
    · split <;> nofun

theorem parts_cons_of_ne {c : Char} (cs : List Char) (hc : c ≠ '/') :
    ∃ p ps, parts cs = p :: ps ∧ parts (c :: cs) = (c :: p) :: ps := by
  obtain ⟨p, ps, hparts⟩ := List.exists_cons_of_ne_nil (parts_ne_nil cs)
  refine ⟨p, ps, hparts, ?_⟩
  rw [parts, if_neg (by simpa using hc), hparts]

theorem parts_slash (cs : List Char) : parts ('/' :: cs) = [] :: parts cs := by
  simp [parts]

/-- A slash parts what is before it from what is behind it. -/
theorem parts_append_slash (cs ds : List Char) : parts (cs ++ '/' :: ds) = parts cs ++ parts ds := by
  induction cs with
  | nil => exact parts_slash ds
  | cons c cs ih =>
    by_cases hc : c = '/'
    · subst hc
      rw [List.cons_append, parts_slash, parts_slash, ih, List.cons_append]
    · obtain ⟨p, ps, hparts, hcons⟩ := parts_cons_of_ne cs hc
      obtain ⟨q, qs, hboth, hconsBoth⟩ := parts_cons_of_ne (cs ++ '/' :: ds) hc
      rw [ih, hparts, List.cons_append] at hboth
      obtain ⟨rfl, rfl⟩ := List.cons.inj hboth
      rw [List.cons_append, hconsBoth, hcons, List.cons_append]

theorem parts_of_not_mem (h : '/' ∉ cs) : parts cs = [cs] := by
  induction cs with
  | nil => rfl
  | cons c cs ih =>
    rw [List.mem_cons, not_or] at h
    obtain ⟨p, ps, hparts, hcons⟩ := parts_cons_of_ne cs (Ne.symm h.1)
    rw [ih h.2] at hparts
    obtain ⟨rfl, rfl⟩ := List.cons.inj hparts
    exact hcons

theorem not_mem_of_mem_parts {part : List Char} (h : part ∈ parts cs) : '/' ∉ part := by
  induction cs generalizing part with
  | nil =>
    obtain rfl := List.mem_singleton.mp h
    exact List.not_mem_nil
  | cons c cs ih =>
    by_cases hc : c = '/'
    · subst hc
      rw [parts_slash] at h
      rcases List.mem_cons.mp h with rfl | h
      · exact List.not_mem_nil
      · exact ih h
    · obtain ⟨p, ps, hparts, hcons⟩ := parts_cons_of_ne cs hc
      rw [hcons] at h
      rcases List.mem_cons.mp h with rfl | h
      · rw [List.mem_cons, not_or]
        exact ⟨Ne.symm hc, ih (hparts ▸ List.mem_cons_self)⟩
      · exact ih (hparts ▸ List.mem_cons_of_mem _ h)

theorem parts_eq_nil_iff : parts cs = [[]] ↔ cs = [] := by
  refine ⟨fun h => ?_, by rintro rfl; rfl⟩
  cases cs with
  | nil => rfl
  | cons c cs =>
    by_cases hc : c = '/'
    · subst hc
      rw [parts_slash, List.cons.injEq] at h
      exact absurd h.2 (parts_ne_nil cs)
    · obtain ⟨p, ps, -, hcons⟩ := parts_cons_of_ne cs hc
      rw [hcons] at h
      cases h

namespace IsName

variable (h : IsName name)
include h

theorem not_special : name.toList.isEmpty = false ∧ (name.toList == ['.']) = false ∧
    (name.toList == ['.', '.']) = false := by
  have hname := h.2
  rw [componentOf?] at hname
  split at hname
  · cases hname
  · rename_i hsmall
    split at hname
    · cases hname
    · rename_i hparent
      rw [Bool.or_eq_true, not_or, Bool.not_eq_true, Bool.not_eq_true] at hsmall
      exact ⟨hsmall.1, hsmall.2, Bool.not_eq_true _ ▸ hparent⟩

theorem toList_ne_nil : name.toList ≠ [] :=
  List.isEmpty_eq_false_iff.mp h.not_special.1

theorem ne_empty : name ≠ "" := fun hname => h.toList_ne_nil (by rw [hname]; rfl)

theorem not_isAbsolute : isAbsolute name = false := by
  rw [isAbsolute]
  cases hname : name.toList with
  | nil => rfl
  | cons c cs =>
    have hc : c ≠ '/' := by
      rintro rfl
      exact h.1 (by rw [hname]; exact List.mem_cons_self)
    simpa using hc

theorem join_empty : join "" name = name := by
  rw [join, h.not_isAbsolute]
  rfl

theorem join_ne_empty (base : String) : join base name ≠ "" := by
  intro hjoin
  have hnil : (join base name).toList = [] := by rw [hjoin]; rfl
  rw [join] at hnil
  split at hnil
  · exact h.toList_ne_nil hnil
  · split at hnil <;> simp only [String.toList_append, List.append_eq_nil_iff] at hnil
    · exact h.toList_ne_nil hnil.2
    · exact h.toList_ne_nil hnil.2

/-- What a name is joined to, with a slash in between. -/
theorem join_parts (hbase : base ≠ "") : ∃ ps, ps ≠ [] ∧
    (parts base.toList = ps ∧ ps ≠ [[]] ∨ parts base.toList = ps ++ [[]]) ∧
    parts (join base name).toList = ps ++ [name.toList] := by
  have hempty : base.isEmpty = false := by simpa using hbase
  have hname : parts name.toList = [name.toList] := parts_of_not_mem h.1
  rw [join, h.not_isAbsolute, hempty, Bool.or_self, if_neg Bool.false_ne_true]
  split
  · rename_i hslash
    obtain ⟨front, hfront⟩ := List.getLast?_eq_some_iff.mp (eq_of_beq hslash)
    refine ⟨parts front, parts_ne_nil front, .inr ?_, ?_⟩
    · rw [hfront, parts_append_slash]
      rfl
    · rw [String.toList_append, hfront, List.append_assoc, List.singleton_append,
        parts_append_slash, hname]
  · refine ⟨parts base.toList, parts_ne_nil _, .inl ⟨rfl, ?_⟩, ?_⟩
    · rw [Ne, parts_eq_nil_iff, String.toList_eq_nil_iff]
      exact hbase
    · have htext : (base ++ "/" ++ name).toList = base.toList ++ '/' :: name.toList := by simp
      rw [htext, parts_append_slash, hname]

end IsName

theorem components_eq (path : String) :
    components path = anchor (parts path.toList) ++ (parts path.toList).filterMap componentOf? := by
  have hempty : componentOf? [] = none := rfl
  have hcurrent : componentOf? ['.'] = none := rfl
  rw [components]
  split
  · rename_i p ps hparts
    rw [hparts, List.filterMap_cons_none hempty]
    rfl
  · rename_i ps hparts
    rw [hparts, List.filterMap_cons_none hcurrent]
    rfl
  · rename_i hroot hdot
    have hnone : anchor (parts path.toList) = [] := by
      rw [anchor]
      · exact fun p ps hparts => hroot p ps hparts
      · exact fun ps hparts => hdot ps hparts
    rw [hnone, List.nil_append]

theorem anchor_append {ps qs : List (List Char)} (hps : ps ≠ []) (hlone : ps ≠ [[]]) :
    anchor (ps ++ qs) = anchor ps := by
  match ps, hps, hlone with
  | [] :: _ :: _, _, _ => rfl
  | (c :: cs) :: ps, _, _ =>
    by_cases hdot : c :: cs = ['.']
    · rw [hdot]
      rfl
    · rw [List.cons_append, anchor, anchor] <;> simp_all

/-- A name is a further component. -/
theorem components_join (h : IsName name) : components (join base name) =
    components base ++ [.name name] := by
  have hname : [name.toList].filterMap componentOf? = [.name name] :=
    List.filterMap_cons_some h.2
  by_cases hbase : base = ""
  · have hplain : anchor [name.toList] = [] := by
      obtain ⟨hnil, hdot, -⟩ := h.not_special
      rw [anchor]
      · intro p ps hparts
        cases (List.cons.inj hparts).2
      · intro ps hparts
        rw [(List.cons.inj hparts).1] at hdot
        cases hdot
    rw [hbase, h.join_empty, components_eq, parts_of_not_mem h.1, hplain, hname]
    rfl
  · obtain ⟨ps, hne, hparts, hjoin⟩ := h.join_parts hbase
    rw [components_eq, components_eq, hjoin, List.filterMap_append, hname, ← List.append_assoc]
    refine congrArg (· ++ [Component.name name]) ?_
    rcases hparts with ⟨hparts, hlone⟩ | hparts
    · rw [hparts, anchor_append hne hlone]
    · rw [hparts, List.filterMap_append]
      have hrest : [[]].filterMap componentOf? = [] := rfl
      rw [hrest, List.append_nil]
      by_cases hlone : ps = [[]]
      · rw [hlone]
        rfl
      · rw [anchor_append hne hlone, anchor_append hne hlone]

/-- The components of a path along names are those of its start and the names. -/
theorem components_along (hnames : ∀ n ∈ names, IsName n) :
    components (along base names) = components base ++ names.map .name := by
  induction names generalizing base with
  | nil => exact (List.append_nil _).symm
  | cons n names ih =>
    obtain ⟨hn, hnames⟩ := List.forall_mem_cons.mp hnames
    have halong : along base (n :: names) = along (join base n) names := rfl
    rw [halong, ih hnames, components_join hn, List.append_assoc]
    rfl

/-- Paths along names from one start are the same only along the same names. -/
theorem along_injective {others : List String} (hnames : ∀ n ∈ names, IsName n)
    (hothers : ∀ n ∈ others, IsName n)
    (h : components (along base names) = components (along base others)) : names = others := by
  rw [components_along hnames, components_along hothers, List.append_cancel_left_eq] at h
  exact List.map_injective_iff.mpr (fun _ _ => Component.name.inj) h

theorem along_append (base : String) (names others : List String) :
    along base (names ++ others) = along (along base names) others := List.foldl_append

theorem along_ne_empty (hnames : ∀ n ∈ names, IsName n) (hne : names ≠ []) :
    along base names ≠ "" := by
  cases names using List.reverseRecOn with
  | nil => exact absurd rfl hne
  | append_singleton names n =>
    rw [along_append]
    exact (hnames n (by simp)).join_ne_empty _

end

end Subscriptions.Path
