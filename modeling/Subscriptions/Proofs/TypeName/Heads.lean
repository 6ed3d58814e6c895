import Mathlib.Data.List.Induction
import Subscriptions.Proofs.TypeName.Members

namespace Subscriptions.TypeName

open Text

/-- A text without blanks that ends with the word, alone or behind a dot. -/
structure Dotted (head word : List Char) : Prop where
  split : ∃ front, head = front ++ word ∧ ∀ c ∈ front.getLast?, c = '.'
  unbroken : ∀ c ∈ head, isBlank c = false
  parts : word.all Scanner.isWordPart = true
  starts : ∃ c ∈ word.head?, c.isDigit = false

/-- What stands in front of the first angle bracket ends with the word, alone or behind a dot. Only
behind the word there may be blanks. -/
def Strays (text word : List Char) : Prop :=
  ∃ head gap rest, text = head ++ (gap ++ '<' :: rest) ∧ '<' ∉ head ∧
    (∀ c ∈ gap, isBlank c = true) ∧ Dotted head word

/-- There is a blank in the text, or a sign at its end: it is not a name as a whole. -/
def Broken (text : List Char) : Prop :=
  (∃ c ∈ text, isBlank c = true) ∨ ∃ c ∈ text.getLast?, Scanner.isWordPart c = false

section
variable {p : Char → Bool} {c : Char} {cs front text head word : List Char}

theorem pieces_ne_nil : pieces p cs ≠ [] := by
  fun_induction pieces p cs <;> simp

theorem pieces_of_not_mem (h : ∀ c ∈ word, p c = false) : pieces p word = [word] := by
  induction word with
  | nil => rfl
  | cons c cs ih =>
    obtain ⟨hc, hcs⟩ := List.forall_mem_cons.mp h
    simp only [pieces, hc, ih hcs, Bool.false_eq_true, if_false]

theorem pieces_append_cons (hc : p c = true) :
    pieces p (front ++ c :: cs) = pieces p front ++ pieces p cs := by
  fun_induction pieces p front with
  | case1 => simp only [List.nil_append, pieces, hc, if_true, List.singleton_append]
  | case2 d ds hd ih => simp only [List.cons_append, pieces, hd, ih, if_true]
  | case3 d ds hd hnil ih => exact absurd hnil pieces_ne_nil
  | case4 d ds hd w ws hpieces ih => simp [pieces, hd, ih, hpieces]

/-- What stands behind the last separator is the last piece. -/
theorem getLastD_pieces (hfront : ∀ c ∈ front.getLast?, p c = true)
    (hword : ∀ c ∈ word, p c = false) : (pieces p (front ++ word)).getLastD [] = word := by
  rcases List.eq_nil_or_concat front with rfl | ⟨front, c, rfl⟩
  · rw [List.nil_append, pieces_of_not_mem hword]
    rfl
  · rw [List.concat_eq_append] at hfront ⊢
    have hc : p c = true := hfront c (by simp)
    rw [List.append_assoc, List.singleton_append, pieces_append_cons hc, pieces_of_not_mem hword]
    simp

theorem exists_append_last_piece (p : Char → Bool) (cs : List Char) :
    ∃ front word, cs = front ++ word ∧ (∀ c ∈ front.getLast?, p c = true) ∧
      ∀ c ∈ word, p c = false := by
  induction cs using List.reverseRecOn with
  | nil => exact ⟨[], [], rfl, nofun, nofun⟩
  | append_singleton cs c ih =>
    cases hc : p c with
    | true => exact ⟨cs ++ [c], [], by simp, by simp [hc], nofun⟩
    | false =>
      obtain ⟨front, word, rfl, hfront, hword⟩ := ih
      refine ⟨front, word ++ [c], by simp, hfront, ?_⟩
      simp only [List.mem_append, List.mem_singleton]
      rintro d (hd | rfl)
      · exact hword d hd
      · exact hc

theorem strip_of_unbroken (h : ∀ c ∈ cs, isBlank c = false) : strip isBlank cs = cs :=
  strip_eq_self (fun c hc => h c (List.mem_of_head? hc)) fun c hc => h c (List.mem_of_getLast? hc)

theorem lastSegment_eq_some_iff (h : ∀ c ∈ head, isBlank c = false) : lastSegment head = some word ↔
    (∃ front, head = front ++ word ∧ ∀ c ∈ front.getLast?, c = '.') ∧
      word.all Scanner.isWordPart = true ∧ word ≠ [] := by
  have hdot : ∀ word : List Char, word.all Scanner.isWordPart = true →
      ∀ c ∈ word, (c == '.') = false := by
    intro word hword c hc
    have hpart := List.all_eq_true.mp hword c hc
    rw [beq_eq_false_iff_ne]
    rintro rfl
    revert hpart
    decide
  constructor
  · intro hsegment
    obtain ⟨front, last, rfl, hfront, hlast⟩ := exists_append_last_piece (· == '.') head
    have hunbroken : strip isBlank last = last :=
      strip_of_unbroken fun c hc => h c (List.mem_append_right _ hc)
    simp only [lastSegment, getLastD_pieces hfront hlast, hunbroken] at hsegment
    split at hsegment
    · rename_i hword
      obtain rfl := Option.some.inj hsegment
      simp only [Bool.and_eq_true, Bool.not_eq_true', List.isEmpty_eq_false_iff] at hword
      exact ⟨⟨front, rfl, fun c hc => eq_of_beq (hfront c hc)⟩, hword.2, hword.1⟩
    · cases hsegment
  · rintro ⟨⟨front, rfl, hfront⟩, hword, hne⟩
    have hlast := getLastD_pieces (fun c hc => beq_iff_eq.mpr (hfront c hc)) (hdot word hword)
    have hunbroken : strip isBlank word = word :=
      strip_of_unbroken fun c hc => h c (List.mem_append_right _ hc)
    simp only [lastSegment, hlast, hunbroken, hword, List.isEmpty_eq_false_iff.mpr hne, Bool.not_false,
      Bool.and_true, if_true]

theorem namedForm_eq_symbol_iff : namedForm text = .symbol word ↔
    Dotted (strip isBlank (text.takeWhile (· != '<'))) word := by
  simp only [namedForm]
  generalize strip isBlank (text.takeWhile (· != '<')) = head
  cases hblank : head.any isBlank with
  | true =>
    obtain ⟨c, hc, hc'⟩ := List.any_eq_true.mp hblank
    rw [if_pos rfl]
    refine ⟨fun h => Form.noConfusion h, fun h => ?_⟩
    rw [h.unbroken c hc] at hc'
    cases hc'
  | false =>
    have hunbroken : ∀ c ∈ head, isBlank c = false := fun c hc => by
      simpa using List.any_eq_false.mp hblank c hc
    rw [if_neg Bool.false_ne_true]
    constructor
    · intro h
      split at h
      · rename_i c cs hsegment
        obtain ⟨hsplit, hparts, -⟩ := (lastSegment_eq_some_iff hunbroken).mp hsegment
        split at h
        · cases h
        · rename_i hdigit
          obtain rfl := Form.symbol.inj h
          exact ⟨hsplit, hunbroken, hparts, c, rfl, Bool.eq_false_iff.mpr hdigit⟩
      · cases h
    · rintro ⟨hsplit, -, hparts, c, hc, hdigit⟩
      obtain ⟨cs, rfl⟩ : ∃ cs, word = c :: cs := by
        cases word with
        | nil => cases hc
        | cons d cs => exact ⟨cs, by rw [Option.some.inj hc]⟩
      rw [(lastSegment_eq_some_iff hunbroken).mpr ⟨hsplit, hparts, List.cons_ne_nil _ _⟩]
      simp only [hdigit, Bool.false_eq_true, if_false]

theorem takeWhile_angle {rest : List Char} (h : '<' ∉ head) :
    (head ++ '<' :: rest).takeWhile (· != '<') = head := by
  refine Scanner.takeWhile_append_stop (List.all_eq_true.mpr fun c hc => bne_iff_ne.mpr ?_) ?_
  · rintro rfl
    exact h hc
  · rintro _ ⟨⟩
    rfl

theorem takeWhile_of_no_angle (h : '<' ∉ text) : text.takeWhile (· != '<') = text := by
  rw [List.takeWhile_eq_self_iff]
  intro c hc
  rw [bne_iff_ne]
  rintro rfl
  exact h hc

/-- A type with type arguments has the name in front of them. -/
theorem namedForm_eq_symbol_iff_strays (hangle : '<' ∈ text)
    (hfirst : ∀ c ∈ text.head?, isBlank c = false) :
    namedForm text = .symbol word ↔ Strays text word := by
  rw [namedForm_eq_symbol_iff]
  constructor
  · intro h
    obtain ⟨head, rest, rfl, hhead⟩ := List.eq_append_cons_of_mem hangle
    rw [takeWhile_angle hhead] at h
    obtain ⟨a, gap, hcut, ha, hgap⟩ := exists_append_strip isBlank head
    obtain rfl : a = [] := by
      cases a with
      | nil => rfl
      | cons c a =>
        have hblank := ha c List.mem_cons_self
        rw [hfirst c (by rw [hcut]; rfl)] at hblank
        cases hblank
    refine ⟨strip isBlank head, gap, rest, ?_, fun hmem => hhead ?_, hgap, h⟩
    · rw [← List.append_assoc]
      exact congrArg (· ++ '<' :: rest) hcut
    · rw [hcut]
      exact List.mem_append_right _ (List.mem_append_left _ hmem)
  · rintro ⟨head, gap, rest, rfl, hhead, hgap, hdotted⟩
    have hfree : '<' ∉ head ++ gap := by
      rw [List.mem_append]
      rintro (hmem | hmem)
      · exact hhead hmem
      · cases hgap '<' hmem
    rw [← List.append_assoc, takeWhile_angle hfree, strip_append_right hgap,
      strip_of_unbroken hdotted.unbroken]
    exact hdotted

/-- The same of a broken text that may be without type arguments: it has no name then. -/
theorem namedForm_eq_symbol_iff_of_broken (hfirst : ∀ c ∈ text.head?, isBlank c = false)
    (hlast : ∀ c ∈ text.getLast?, isBlank c = false) (h : Broken text) :
    namedForm text = .symbol word ↔ Strays text word := by
  by_cases hangle : '<' ∈ text
  · exact namedForm_eq_symbol_iff_strays hangle hfirst
  rw [namedForm_eq_symbol_iff, takeWhile_of_no_angle hangle, strip_eq_self hfirst hlast]
  constructor
  · rintro ⟨⟨front, rfl, -⟩, hunbroken, hparts, d, hd, -⟩
    rcases h with ⟨c, hc, hblank⟩ | ⟨c, hc, hsign⟩
    · rw [hunbroken c hc] at hblank
      cases hblank
    · have hword : word.getLast? = some c := by
        cases word with
        | nil => cases hd
        | cons e word =>
          rw [List.getLast?_append, List.getLast?_cons] at hc
          rw [List.getLast?_cons]
          exact hc
      rw [List.all_eq_true.mp hparts c (List.mem_of_getLast? hword)] at hsign
      cases hsign
  · rintro ⟨head, gap, rest, rfl, -⟩
    exact absurd (by simp) hangle

theorem take_reverse_eq_iff : (text.reverse.take 2 == "][".toList) = true ↔ ['[', ']'] <:+ text := by
  rw [beq_iff_eq, ← List.reverse_prefix, List.prefix_iff_eq_take]
  exact eq_comm

/-- The symbol of a type that is no union, no intersection and not in parentheses: two brackets at the
end make it an array, and else it has the name in front. -/
theorem symbolOf_eq_some_iff {body : List Char} (hbare : bare text = body) (hne : body ≠ [])
    (hwhole : ∀ separator ∈ separators, topLevelPieces separator 0 body = some [body])
    (hparens : inParentheses? body = none) : symbolOf text = some word ↔
      if ['[', ']'] <:+ body then word = "Array".toList else namedForm body = .symbol word := by
  have hunion := hwhole '|' (by simp [separators])
  have hintersection := hwhole '&' (by simp [separators])
  have hempty : body.isEmpty = false := List.isEmpty_eq_false_iff.mpr hne
  have hform : form text = simpleForm body := by
    simp [form, hbare, hempty, hunion, hintersection]
  rw [symbolOf_eq, hform, simpleForm, hparens]
  by_cases hbrackets : ['[', ']'] <:+ body
  · rw [if_pos (take_reverse_eq_iff.mpr hbrackets), if_pos hbrackets]
    exact Option.some_inj.trans eq_comm
  · rw [if_neg fun h => hbrackets (take_reverse_eq_iff.mp h), if_neg hbrackets]
    cases hnamed : namedForm body with
    | noSymbol => constructor <;> intro h <;> cases h
    | inner text => exact absurd hnamed namedForm_ne_inner
    | symbol name => exact ⟨fun h => congrArg Form.symbol (Option.some.inj h),
      fun h => congrArg some (Form.symbol.inj h)⟩

end

end Subscriptions.TypeName
