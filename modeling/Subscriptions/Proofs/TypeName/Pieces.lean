import Mathlib.Data.List.TakeWhile
import Subscriptions.Proofs.Syntax.Scanning
import Subscriptions.Text.Trim
import Subscriptions.TypeName

namespace Subscriptions.Text

section
variable {p : Char → Bool} {a b cs : List Char}

theorem dropEnd_append (h : ∀ c ∈ b, p c = true) : dropEnd p (cs ++ b) = dropEnd p cs := by
  have hall : dropEnd p b = [] := by
    induction b with
    | nil => rfl
    | cons c b ih =>
      obtain ⟨hc, hb⟩ := List.forall_mem_cons.mp h
      rw [dropEnd, ih hb]
      exact if_pos hc
  induction cs with
  | nil => exact hall
  | cons c cs ih => rw [List.cons_append, dropEnd, dropEnd, ih]

@[simp] theorem strip_append_left (h : ∀ c ∈ a, p c = true) : strip p (a ++ cs) = strip p cs := by
  rw [strip, List.dropWhile_append_of_pos h, strip]

@[simp] theorem strip_append_right (h : ∀ c ∈ b, p c = true) : strip p (cs ++ b) = strip p cs := by
  rw [strip, strip, List.dropWhile_append]
  split
  · rename_i hempty
    rw [List.isEmpty_iff.mp hempty, List.dropWhile_eq_nil_iff.mpr h]
  · exact dropEnd_append h

/-- Only characters of the class are cut at the ends. -/
theorem exists_append_strip (p : Char → Bool) (cs : List Char) : ∃ a b,
    cs = a ++ (strip p cs ++ b) ∧ (∀ c ∈ a, p c = true) ∧ ∀ c ∈ b, p c = true := by
  obtain ⟨b, hb, hpast⟩ := dropEnd_append_dropped p (cs.dropWhile p)
  refine ⟨cs.takeWhile p, b, ?_, fun c => List.mem_takeWhile_imp, hpast⟩
  rw [strip, ← hb, List.takeWhile_append_dropWhile]

@[simp] theorem strip_strip : strip p (strip p cs) = strip p cs := by
  obtain ⟨a, b, hcs, ha, hb⟩ := exists_append_strip p cs
  calc strip p (strip p cs)
      = strip p (a ++ (strip p cs ++ b)) := by rw [strip_append_left ha, strip_append_right hb]
    _ = strip p cs := by rw [← hcs]

theorem length_strip_le (p : Char → Bool) (cs : List Char) : (strip p cs).length ≤ cs.length := by
  obtain ⟨a, b, hcs, -, -⟩ := exists_append_strip p cs
  have hlength := congrArg List.length hcs
  rw [List.length_append, List.length_append] at hlength
  omega

end

end Subscriptions.Text

namespace Subscriptions.TypeName

open Text topLevelPieces

def step (c : Char) : Int :=
  if ['(', '[', '{', '<'].contains c then 1
  else if [')', ']', '}', '>'].contains c then -1
  else 0

/-- How much deeper in brackets a text ends than it starts. The angle bracket of an arrow is none. -/
def rise : List Char → Int
  | [] => 0
  | '=' :: '>' :: cs => rise cs
  | c :: cs => step c + rise cs

/-- The two texts do not make an arrow where they meet. -/
def Apart (cs ds : List Char) : Prop := cs.getLast? = some '=' → ds.head? ≠ some '>'

/-- The last piece of a text goes on with the first one of the text behind it. -/
def glue : List (List Char) → List (List Char) → List (List Char)
  | [], qs => qs
  | [p], qs => prepend p qs
  | p :: p' :: ps, qs => p :: glue (p' :: ps) qs

section
variable {c sep : Char} {p cs ds : List Char} {d : Int} {ps qs : List (List Char)}

theorem prepend_ne_nil : prepend p qs ≠ [] := by cases qs <;> exact List.cons_ne_nil _ _

@[simp] theorem prepend_nil (h : qs ≠ []) : prepend [] qs = qs := by
  cases qs with
  | nil => exact absurd rfl h
  | cons q qs => rfl

theorem prepend_glue (h : ps ≠ []) : prepend p (glue ps qs) = glue (prepend p ps) qs := by
  match ps, qs with
  | [q], [] => rfl
  | [q], r :: qs => simp [glue, prepend]
  | q :: q' :: ps, qs => rfl

theorem cons_glue (h : ps ≠ []) : p :: glue ps qs = glue (p :: ps) qs := by
  cases ps with
  | nil => exact absurd rfl h
  | cons q ps => rfl

theorem topLevelPieces_arrow : topLevelPieces sep d ('=' :: '>' :: cs) =
    if d = 0 then none else (topLevelPieces sep d cs).map (prepend ['=', '>']) := by
  rw [topLevelPieces]
  simp only [beq_iff_eq]

theorem topLevelPieces_cons (h : ∀ rest, c = '=' → cs = '>' :: rest → False) :
    topLevelPieces sep d (c :: cs) = (topLevelPieces sep (d + step c) cs).map
      (if step c = 0 ∧ c = sep ∧ d = 0 then ([] :: ·) else prepend [c]) := by
  rw [topLevelPieces]
  · unfold step
    split
    · simp
    · split
      · simp [Int.sub_eq_add_neg]
      · by_cases hsep : c = sep ∧ d = 0
        · simp [hsep]
        · have hnot : (c == sep && d == 0) = false := by simpa using hsep
          simp [hsep, hnot]
  · exact h

theorem ne_nil_of_topLevelPieces (h : topLevelPieces sep d cs = some ps) : ps ≠ [] := by
  fun_induction rise cs generalizing d ps with
  | case1 =>
    rw [topLevelPieces, Option.some.injEq] at h
    exact h ▸ List.cons_ne_nil _ _
  | case2 cs ih =>
    rw [topLevelPieces_arrow] at h
    split at h
    · cases h
    · obtain ⟨qs, -, rfl⟩ := Option.map_eq_some_iff.mp h
      exact prepend_ne_nil
  | case3 c cs hc ih =>
    rw [topLevelPieces_cons hc] at h
    obtain ⟨qs, -, rfl⟩ := Option.map_eq_some_iff.mp h
    split
    · exact List.cons_ne_nil _ _
    · exact prepend_ne_nil

/-- The pieces of a text with another one behind it. -/
theorem topLevelPieces_append (h : Apart cs ds) : topLevelPieces sep d (cs ++ ds) =
    (topLevelPieces sep d cs).bind fun ps =>
      (topLevelPieces sep (d + rise cs) ds).map (glue ps) := by
  fun_induction rise cs generalizing d with
  | case1 =>
    rw [List.nil_append, topLevelPieces, Option.bind_some, Int.add_zero]
    cases hds : topLevelPieces sep d ds with
    | none => rfl
    | some qs => rw [Option.map_some, glue, prepend_nil (ne_nil_of_topLevelPieces hds)]
  | case2 cs ih =>
    have htail : Apart cs ds := fun hlast => h (by cases cs <;> simp_all)
    rw [List.cons_append, List.cons_append, topLevelPieces_arrow, topLevelPieces_arrow, ih htail]
    split
    · rfl
    · cases hcs : topLevelPieces sep d cs with
      | none => rfl
      | some ps =>
        simp [Option.map_map, Function.comp_def, prepend_glue (ne_nil_of_topLevelPieces hcs)]
  | case3 c cs hc ih =>
    have htail : Apart cs ds := fun hlast => h (by cases cs <;> simp_all)
    have hmeet : ∀ rest, c = '=' → cs ++ ds = '>' :: rest → False := by
      rintro rest rfl hrest
      cases cs with
      | nil => exact h rfl (by rw [← List.nil_append ds, hrest]; rfl)
      | cons e cs => exact hc cs rfl (by rw [(List.cons.inj hrest).1])
    rw [List.cons_append, topLevelPieces_cons hmeet, topLevelPieces_cons hc, ih htail]
    cases hcs : topLevelPieces sep (d + step c) cs with
    | none => rfl
    | some ps =>
      have hps := ne_nil_of_topLevelPieces hcs
      simp only [Option.bind_some, Option.map_some, Option.map_map, Function.comp_def, Int.add_assoc]
      split
      · simp only [cons_glue hps]
      · simp only [prepend_glue hps]

/-- The pieces with the separator between them are the text. -/
theorem intercalate_of_topLevelPieces (h : topLevelPieces sep d cs = some ps) :
    [sep].intercalate ps = cs := by
  have hprepend (p : List Char) (qs : List (List Char)) :
      [sep].intercalate (prepend p qs) = p ++ [sep].intercalate qs := by
    match qs with
    | [] => simp [prepend]
    | [q] => simp [prepend]
    | q :: q' :: qs => simp [prepend, List.intercalate]
  fun_induction rise cs generalizing d ps with
  | case1 =>
    rw [topLevelPieces, Option.some.injEq] at h
    simp [← h]
  | case2 cs ih =>
    rw [topLevelPieces_arrow] at h
    split at h
    · cases h
    · obtain ⟨qs, hqs, rfl⟩ := Option.map_eq_some_iff.mp h
      rw [hprepend, ih hqs]
      rfl
  | case3 c cs hc ih =>
    rw [topLevelPieces_cons hc] at h
    obtain ⟨qs, hqs, rfl⟩ := Option.map_eq_some_iff.mp h
    split
    · rename_i hsep
      obtain ⟨q, qs, rfl⟩ := List.exists_cons_of_ne_nil (ne_nil_of_topLevelPieces hqs)
      have hrest := ih hqs
      rw [hsep.2.1]
      simp [List.intercalate] at hrest ⊢
      exact hrest
    · rw [hprepend, ih hqs]
      rfl

theorem length_add_le_intercalate (hp : p ∈ ps) :
    p.length + ps.length ≤ ([sep].intercalate ps).length + 1 := by
  induction ps generalizing p with
  | nil => cases hp
  | cons q ps ih =>
    cases ps with
    | nil =>
      obtain rfl := List.mem_singleton.mp hp
      simp
    | cons q' ps =>
      have hrest : ([sep].intercalate (q :: q' :: ps)).length =
          q.length + 1 + ([sep].intercalate (q' :: ps)).length := by
        simp [List.intercalate]
        omega
      have hfirst := ih (List.mem_cons_self (a := q'))
      rw [hrest]
      simp only [List.length_cons] at hfirst ih ⊢
      rcases List.mem_cons.mp hp with rfl | hp
      · omega
      · have hlater := ih hp
        omega

/-- One of several pieces is shorter than the text. -/
theorem length_lt_of_mem_pieces (h : topLevelPieces sep d cs = some ps) (hps : 1 < ps.length)
    (hp : p ∈ ps) : p.length < cs.length := by
  have hle : p.length + ps.length ≤ ([sep].intercalate ps).length + 1 :=
    length_add_le_intercalate hp
  rw [intercalate_of_topLevelPieces h] at hle
  omega

end

section
variable {text inner : List Char}

theorem length_withoutStart_le (start cs : List Char) :
    (withoutStart start cs).length ≤ cs.length := by
  rw [withoutStart]
  cases h : Scanner.afterStart? start cs with
  | none => exact Nat.le_refl _
  | some rest =>
    rw [← Scanner.append_of_afterStart? h, List.length_append]
    exact Nat.le_add_left _ _

theorem length_bare_le (text : List Char) : (bare text).length ≤ text.length :=
  ((length_strip_le isBlank _).trans (length_withoutStart_le _ _)).trans (length_strip_le isBlank text)

theorem length_lt_of_unionForm {members : List (List Char)} {d : Int}
    (hpieces : topLevelPieces '|' d text = some members) (hmany : 1 < members.length)
    (h : unionForm members = .inner inner) : inner.length < text.length := by
  rw [unionForm] at h
  split at h
  · rename_i single hsingle
    obtain rfl := Form.inner.inj h
    have hmem : single ∈ members.map (strip isBlank) :=
      (List.mem_filter.mp (hsingle ▸ List.mem_singleton_self single)).1
    obtain ⟨m, hm, rfl⟩ := List.mem_map.mp hmem
    exact (length_strip_le isBlank m).trans_lt (length_lt_of_mem_pieces hpieces hmany hm)
  · cases h

theorem length_lt_of_inParentheses? (h : inParentheses? text = some inner) :
    inner.length < text.length := by
  cases text with
  | nil => cases h
  | cons c cs =>
    simp only [inParentheses?] at h
    split at h
    · rename_i rest heq
      obtain ⟨rfl, rfl⟩ := List.cons.inj heq
      rw [Option.ite_none_right_eq_some, Option.some.injEq] at h
      rw [← h.2, List.length_dropLast, List.length_cons]
      omega
    · cases h

theorem namedForm_ne_inner : namedForm text ≠ .inner inner := by
  intro h
  simp only [namedForm] at h
  split at h
  · cases h
  · split at h
    · split at h <;> cases h
    · cases h

theorem length_lt_of_simpleForm (h : simpleForm text = .inner inner) :
    inner.length < text.length := by
  rw [simpleForm] at h
  split at h
  · cases h
  · split at h
    · rename_i hparens
      obtain rfl := Form.inner.inj h
      exact length_lt_of_inParentheses? hparens
    · exact absurd h namedForm_ne_inner

/-- A type that another one leads to is shorter. -/
theorem length_lt_of_form (h : form text = .inner inner) : inner.length < text.length := by
  refine Nat.lt_of_lt_of_le ?_ (length_bare_le text)
  simp only [form] at h
  split at h
  · cases h
  · split at h
    · cases h
    · rename_i members hpieces
      split at h
      · rename_i hmany
        exact length_lt_of_unionForm hpieces hmany h
      · split at h
        · exact length_lt_of_simpleForm h
        · cases h

/-- The symbol of a type, with fuel for all types inside of it. -/
def symbolOf (text : List Char) : Option (List Char) := symbolIn (text.length + 1) text

theorem symbolIn_congr {n m : Nat} (hn : text.length < n) (hm : text.length < m) :
    symbolIn n text = symbolIn m text := by
  induction n generalizing m text with
  | zero => cases hn
  | succ n ih =>
    cases m with
    | zero => cases hm
    | succ m =>
      rw [symbolIn, symbolIn]
      split
      · rfl
      · rename_i inner hform
        have hshorter := length_lt_of_form hform
        exact ih (by omega) (by omega)
      · rfl

theorem symbolOf_eq (text : List Char) : symbolOf text =
    match form text with
    | .noSymbol => none
    | .inner text => symbolOf text
    | .symbol name => some name := by
  rw [symbolOf, symbolIn]
  cases hform : form text with
  | noSymbol => rfl
  | inner inner => exact symbolIn_congr (length_lt_of_form hform) (Nat.lt_succ_self _)
  | symbol name => rfl

theorem symbol?_eq (text : String) : symbol? text = (symbolOf text.toList).map String.ofList := rfl

end

end Subscriptions.TypeName
