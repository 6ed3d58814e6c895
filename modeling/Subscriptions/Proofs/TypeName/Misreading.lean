import Mathlib.Data.List.Forall2
import Subscriptions.Proofs.TypeName.Printing
import Subscriptions.Proofs.TypeName.Heads

namespace Subscriptions.TypeName

open Subscriptions.Types Scanner
open Text (isBlank strip strip_append_left strip_append_right)

def Name.Airy : Name → Prop
  | .word _ => False
  | .member d before after _ => d.Airy ∨ before ≠ 0 ∨ after ≠ 0

/-- The text of the type is taken for another type. -/
def Operator.Misread (o : Operator) : Prop :=
  match o with
  | .primary (.name d) => d.Airy
  | .primary (.generic d _ _ _ _) => d.Airy
  | .primary (.array _ _ inside) => inside ≠ 0 ∧ ¬ Strays o.body "Array".toList
  | .readonlyArray _ _ _ inside => inside ≠ 0 ∧ ¬ Strays o.body "Array".toList
  | _ => ['[', ']'] <:+ o.body ∨ ∃ word, Strays o.body word

/-- The symbol of the text is that of the type behind the parentheses and unions, unless that type is
misread. -/
def Reads (text : List Char) (core : Option Operator) : Prop :=
  symbolOf text = core.bind Operator.ownSymbol ↔ ∀ c ∈ core, ¬ c.Misread

section
variable {text cs ds tail word : List Char} {c separator : Char} {ps : List (List Char)}
  {o : Operator}

theorem space_mem_blanks {n : Nat} (h : n ≠ 0) : ' ' ∈ blanks n :=
  List.mem_replicate.mpr ⟨h, rfl⟩

theorem Name.space_mem {d : Name} (h : d.Airy) : ' ' ∈ d.chars := by
  induction d with
  | word x => exact h.elim
  | member d before after x ih =>
    rw [Name.chars, joined]
    rcases h with h | h | h
    · exact List.mem_append_left _ (ih h)
    · exact List.mem_append_right _ (List.mem_append_left _ (space_mem_blanks h))
    · exact List.mem_append_right _ (List.mem_append_right _
        (List.mem_cons_of_mem _ (List.mem_append_left _ (space_mem_blanks h))))

theorem isBlank_of_mem_ident (x : Ident) : ∀ c ∈ x.chars, isBlank c = false := fun c hc =>
  isBlank_of_isWordPart (List.all_eq_true.mp (all_isWordPart x) c hc)

theorem Name.unbroken {d : Name} (h : ¬ d.Airy) : ∀ c ∈ d.chars, isBlank c = false := by
  induction d with
  | word x => exact isBlank_of_mem_ident x.toIdent
  | member d before after x ih =>
    simp only [Name.Airy, not_or, not_not] at h
    obtain ⟨hd, rfl, rfl⟩ := h
    intro c hc
    rw [Name.chars, joined, List.mem_append] at hc
    rcases hc with hc | hc
    · exact ih hd c hc
    · rcases List.mem_cons.mp hc with rfl | hc
      · decide
      · exact isBlank_of_mem_ident x c hc

theorem Name.dotted_iff (d : Name) : Dotted d.chars d.last.chars ↔ ¬ d.Airy := by
  constructor
  · intro h hairy
    cases h.unbroken ' ' (Name.space_mem hairy)
  · intro h
    have hstarts : d.last.first.isDigit = false := by
      rw [Bool.eq_false_iff]
      intro hdigit
      have hword := (digit_start hdigit).1
      rw [d.last.starts] at hword
      cases hword
    refine ⟨?_, Name.unbroken h, all_isWordPart d.last, d.last.first, rfl, hstarts⟩
    cases d with
    | word x => exact ⟨[], rfl, nofun⟩
    | member d before after x =>
      simp only [Name.Airy, not_or, not_not] at h
      obtain ⟨-, rfl, rfl⟩ := h
      refine ⟨d.chars ++ ['.'], by simp [Name.chars, joined, Name.last], fun c hc => ?_⟩
      rw [List.getLast?_concat] at hc
      exact (Option.some.inj hc).symm

theorem Name.no_angle (d : Name) : '<' ∉ d.chars := by
  have hident (x : Ident) : '<' ∉ x.chars := by
    intro hmem
    cases List.all_eq_true.mp (all_isWordPart x) _ hmem
  induction d with
  | word x => exact hident x.toIdent
  | member d before after x ih =>
    have hblanks (n : Nat) : '<' ∉ blanks n := by
      intro hmem
      cases List.eq_of_mem_replicate hmem
    simp [Name.chars, joined, ih, hblanks, hident]

theorem inParentheses?_eq_none (h : cs.getLast? ≠ some ')') : inParentheses? cs = none := by
  cases cs with
  | nil => rfl
  | cons c cs =>
    rw [inParentheses?.eq_def]
    split
    · rename_i rest heq
      obtain ⟨rfl, rfl⟩ := List.cons.inj heq
      rw [if_neg]
      rw [beq_iff_eq]
      intro hlast
      exact h (by rw [List.getLast?_cons, hlast]; rfl)
    · rfl

theorem getLast?_suffixed {opening : Char} {gap before after : Nat} :
    (suffixed cs gap opening before ds after c).getLast? = some c := by
  rw [suffixed, ← List.append_assoc, List.getLast?_append, getLast?_bracketed]
  rfl

theorem Name.getLast_isWordPart (d : Name) : ∃ c ∈ d.chars.getLast?, isWordPart c = true := by
  have hident (x : Ident) : ∃ c ∈ x.chars.getLast?, isWordPart c = true :=
    ⟨x.chars.getLast (List.cons_ne_nil _ _), List.getLast?_eq_some_getLast _,
      List.all_eq_true.mp (all_isWordPart x) _ (List.getLast_mem _)⟩
  cases d with
  | word x => exact hident x.toIdent
  | member d before after x =>
    obtain ⟨c, hc, hpart⟩ := hident x
    refine ⟨c, ?_, hpart⟩
    simp [Name.chars, joined, List.getLast?_append, List.getLast?_cons, Option.mem_def.mp hc]

theorem Operator.symbolOf_eq_some_iff (o : Operator) (hparens : inParentheses? o.body = none) :
    symbolOf o.chars = some word ↔
      if ['[', ']'] <:+ o.body then word = "Array".toList else namedForm o.body = .symbol word := by
  have hedged := o.edged_body
  exact TypeName.symbolOf_eq_some_iff (Intersection.one o).bare_chars.1 hedged.ne_nil
    (fun separator hseparator =>
      (o.closed_body (s := ⟨separator, hseparator⟩)).passed.whole 0 (Int.le_refl 0))
    hparens

theorem reads_some_iff : Reads text (some o) ↔ (symbolOf text = o.ownSymbol ↔ ¬ o.Misread) := by
  simp [Reads]

/-- Two brackets end the text behind which they stand if nothing is between them. -/
theorem brackets_suffix_iff {n : Nat} : ['[', ']'] <:+ cs ++ bracketed '[' n [] 0 ']' ↔ n = 0 := by
  constructor
  · rintro ⟨front, hfront⟩
    cases n with
    | zero => rfl
    | succ n =>
      have hsplit : cs ++ bracketed '[' (n + 1) [] 0 ']' = (cs ++ '[' :: blanks n) ++ [' ', ']'] := by
        simp [bracketed, blanks, List.replicate_succ']
      rw [hsplit] at hfront
      cases (List.append_inj' hfront rfl).2
  · rintro rfl
    exact List.suffix_append _ _

section
variable (hparens : inParentheses? o.body = none) (hbroken : Broken o.body)
include hparens hbroken

theorem Operator.symbolOf_eq_some_iff_strays : symbolOf o.chars = some word ↔
    if ['[', ']'] <:+ o.body then word = "Array".toList else Strays o.body word := by
  rw [o.symbolOf_eq_some_iff hparens,
    namedForm_eq_symbol_iff_of_broken o.edged_body.head o.edged_body.getLast hbroken]

theorem Operator.reads_of_ownSymbol_eq_none (hown : o.ownSymbol = none)
    (hmisread : o.Misread ↔ ['[', ']'] <:+ o.body ∨ ∃ word, Strays o.body word) :
    Reads o.chars (some o) := by
  rw [reads_some_iff, hown, hmisread, Option.eq_none_iff_forall_ne_some, not_or, not_exists]
  simp only [ne_eq, Operator.symbolOf_eq_some_iff_strays hparens hbroken]
  by_cases hbrackets : ['[', ']'] <:+ o.body
  · simp [hbrackets]
  · simp [hbrackets]

theorem Operator.reads_of_ownSymbol_eq_array (hown : o.ownSymbol = some "Array".toList) {inside : Nat}
    (hbody : ∃ front, o.body = front ++ bracketed '[' inside [] 0 ']')
    (hmisread : o.Misread ↔ inside ≠ 0 ∧ ¬ Strays o.body "Array".toList) :
    Reads o.chars (some o) := by
  obtain ⟨front, hfront⟩ := hbody
  have hbrackets : ['[', ']'] <:+ o.body ↔ inside = 0 := hfront ▸ brackets_suffix_iff
  rw [reads_some_iff, hown, hmisread, Operator.symbolOf_eq_some_iff_strays hparens hbroken]
  by_cases hinside : inside = 0
  · simp [hbrackets, hinside]
  · simp [hbrackets, hinside]

end

theorem Operator.reads_of_ownSymbol_eq_last {d : Name} (hlast : o.body.getLast? ∉ [some ')', some ']'])
    (hnamed : strip isBlank (o.body.takeWhile (· != '<')) = d.chars)
    (hown : o.ownSymbol = some d.last.chars) (hmisread : o.Misread ↔ d.Airy) :
    Reads o.chars (some o) := by
  have hparens : inParentheses? o.body = none :=
    inParentheses?_eq_none fun h => hlast (by simp [h])
  have hbrackets : ¬ ['[', ']'] <:+ o.body := by
    rintro ⟨front, hfront⟩
    exact hlast (by simp [← hfront])
  rw [reads_some_iff, hown, hmisread, o.symbolOf_eq_some_iff hparens, if_neg hbrackets,
    namedForm_eq_symbol_iff, hnamed]
  exact d.dotted_iff

theorem Primary.sign_last : ∀ p : Primary, p.wordy = false →
    ∃ c ∈ p.chars.getLast?, isWordPart c = false
  | .array .., _ => ⟨']', getLast?_suffixed, by decide⟩
  | .indexed .., _ => ⟨']', getLast?_suffixed, by decide⟩
  | .paren .., _ => ⟨')', getLast?_bracketed, by decide⟩
  | .literal l, _ => ⟨l.quote, l.getLast?_chars, l.quote_sign.2⟩
  | .tuple .., _ => ⟨']', getLast?_bracketed, by decide⟩
  | .emptyTuple .., _ => ⟨']', getLast?_bracketed, by decide⟩
  | .object .., _ => ⟨'}', getLast?_bracketed, by decide⟩

theorem Operator.sign_last (o : Operator) (h : o.wordy = false) :
    ∃ c ∈ o.chars.getLast?, isWordPart c = false := by
  cases o with
  | primary p => exact p.sign_last h
  | readonlyArray lead element gap inside => cases h
  | keyof lead o => cases h

theorem getLast?_prefixed {keyword : String} {wordy : Bool} {lead : Nat}
    (h : ∃ c ∈ cs.getLast?, isWordPart c = false) :
    ∃ c ∈ (prefixed keyword wordy lead cs).getLast?, isWordPart c = false := by
  obtain ⟨c, hc, hsign⟩ := h
  refine ⟨c, ?_, hsign⟩
  rw [prefixed, ← List.append_assoc, List.getLast?_append, Option.mem_def.mp hc]
  rfl

theorem space_mem_prefixed {keyword : String} {lead : Nat} :
    ' ' ∈ prefixed keyword true lead cs :=
  List.mem_append_right _ (List.mem_append_left _ (space_mem_blanks (Nat.succ_ne_zero lead)))

/-- A blank stands behind `keyof`, or the type behind it ends with a sign. -/
theorem keyof_broken (lead : Nat) (o : Operator) : Broken (Operator.keyof lead o).body := by
  have hbody : (Operator.keyof lead o).body = prefixed "keyof" o.wordy lead o.chars := rfl
  rw [hbody]
  cases hwordy : o.wordy with
  | true => exact .inl ⟨' ', space_mem_prefixed, by decide⟩
  | false => exact .inr (getLast?_prefixed (o.sign_last hwordy))

theorem reads_name (d : Name) : Reads d.chars (some (.primary (.name d))) := by
  obtain ⟨c, hc, hpart⟩ := d.getLast_isWordPart
  refine Operator.reads_of_ownSymbol_eq_last (o := .primary (.name d)) ?_ ?_ rfl Iff.rfl
  · have hsigns : [')', ']'].all (!isWordPart ·) = true := by decide
    have hlast : d.chars.getLast? = some c := hc
    simp only [Operator.body, Operator.chars, Primary.chars, hlast, List.mem_cons, List.not_mem_nil,
      or_false, Option.some.injEq]
    rintro (rfl | rfl) <;> cases hpart
  · exact (congrArg _ (takeWhile_of_no_angle d.no_angle)).trans d.edged.strip

theorem reads_generic (d : Name) (gap before : Nat) (args : Args) (after : Nat) :
    Reads (Primary.generic d gap before args after).chars
      (some (.primary (.generic d gap before args after))) := by
  refine Operator.reads_of_ownSymbol_eq_last (o := .primary (.generic d gap before args after))
    ?_ ?_ rfl Iff.rfl
  · have hlast : (Primary.generic d gap before args after).chars.getLast? = some '>' :=
      getLast?_suffixed
    simp [Operator.body, Operator.chars, hlast]
  · have hangle : '<' ∉ d.chars ++ blanks gap := by
      rw [List.mem_append, not_or]
      refine ⟨d.no_angle, fun hmem => ?_⟩
      cases isBlank_of_mem_blanks '<' hmem
    have hsplit : (Operator.primary (.generic d gap before args after)).body =
        (d.chars ++ blanks gap) ++ '<' :: ((blanks before ++ (args.chars ++ blanks after)) ++ ['>']) :=
      (List.append_assoc ..).symm
    rw [hsplit, takeWhile_angle hangle, strip_append_right isBlank_of_mem_blanks, d.edged.strip]

theorem reads_readonlyArray (lead : Nat) (element : Primary) (gap inside : Nat) :
    Reads (Operator.readonlyArray lead element gap inside).chars
      (some (.readonlyArray lead element gap inside)) := by
  obtain ⟨front, hbody⟩ := readonlyArray_body lead element gap inside
  have hlast : (Operator.readonlyArray lead element gap inside).body.getLast? = some ']' := by
    rw [hbody, List.getLast?_append, getLast?_bracketed]
    rfl
  exact Operator.reads_of_ownSymbol_eq_array (inParentheses?_eq_none (by simp [hlast]))
    (.inr ⟨']', hlast, by decide⟩) rfl ⟨front, hbody⟩ Iff.rfl

/-- A type that no other one is asked for in place of. -/
theorem Operator.reads (o : Operator) (hleaf : ∀ before t after, o ≠ .primary (.paren before t after)) :
    Reads o.chars (some o) := by
  have hends {cs : List Char} (c : Char) (hsign : isWordPart c = false) (hparens : c ≠ ')')
      (h : cs.getLast? = some c) : inParentheses? cs = none ∧ Broken cs :=
    ⟨inParentheses?_eq_none (by simp [h, hparens]), .inr ⟨c, h, hsign⟩⟩
  match o with
  | .primary (.name d) => exact reads_name d
  | .primary (.generic d gap before args after) => exact reads_generic d gap before args after
  | .primary (.array element gap inside) =>
    have harray : (arrayed element.chars gap inside).getLast? = some ']' := getLast?_suffixed
    obtain ⟨hparens, hbroken⟩ := hends ']' (by decide) (by decide) harray
    exact Operator.reads_of_ownSymbol_eq_array hparens hbroken rfl
      ⟨element.chars ++ blanks gap, (List.append_assoc ..).symm⟩ Iff.rfl
  | .readonlyArray lead element gap inside => exact reads_readonlyArray lead element gap inside
  | .primary (.paren before t after) => exact absurd rfl (hleaf before t after)
  | .primary (.literal l) =>
    have hquote : l.quote ≠ ')' := by
      rw [Literal.quote]
      split <;> decide
    obtain ⟨hparens, hbroken⟩ := hends l.quote l.quote_sign.2 hquote l.getLast?_chars
    exact Operator.reads_of_ownSymbol_eq_none hparens hbroken rfl Iff.rfl
  | .primary (.tuple _ _ _) | .primary (.emptyTuple _) =>
    obtain ⟨hparens, hbroken⟩ := hends ']' (by decide) (by decide) (getLast?_bracketed (o := '['))
    exact Operator.reads_of_ownSymbol_eq_none hparens hbroken rfl Iff.rfl
  | .primary (.indexed _ _ _ _ _) =>
    obtain ⟨hparens, hbroken⟩ := hends ']' (by decide) (by decide) getLast?_suffixed
    exact Operator.reads_of_ownSymbol_eq_none hparens hbroken rfl Iff.rfl
  | .primary (.object _ _ _) =>
    obtain ⟨hparens, hbroken⟩ := hends '}' (by decide) (by decide) (getLast?_bracketed (o := '{'))
    exact Operator.reads_of_ownSymbol_eq_none hparens hbroken rfl Iff.rfl
  | .primary (.query gap d) =>
    exact Operator.reads_of_ownSymbol_eq_none rfl (.inl ⟨' ', space_mem_prefixed, by decide⟩) rfl
      Iff.rfl
  | .keyof lead inner =>
    exact Operator.reads_of_ownSymbol_eq_none rfl (keyof_broken lead inner) rfl Iff.rfl

theorem topLevelPieces_joined {s : Separator} {before after : Nat} (h : Closed s 0 cs) :
    topLevelPieces s 0 (joined cs before s after ds) =
      (topLevelPieces s 0 ds).map fun ps =>
        (cs ++ blanks before) :: topLevelPieces.prepend (blanks after) ps := by
  have hfront : Closed s 0 (cs ++ blanks before) := h.append (closed_blanks before)
  have hblanks : Closed s 0 (blanks after) := closed_blanks after
  have hs := step_of_separator s.property
  rw [joined, ← List.append_assoc, topLevelPieces_append fun hlast => absurd hlast hfront.ends,
    hfront.passed.whole 0 (Int.le_refl 0), hfront.passed.level, Option.bind_some, Int.add_zero,
    topLevelPieces_cons fun _ heq => absurd heq hs.2, hs.1, Int.add_zero, if_pos ⟨rfl, rfl, rfl⟩,
    topLevelPieces_append fun hlast => absurd hlast hblanks.ends,
    hblanks.passed.whole 0 (Int.le_refl 0), hblanks.passed.level, Option.bind_some, Int.add_zero]
  cases topLevelPieces s 0 ds with
  | none => rfl
  | some ps => simp [glue, topLevelPieces.prepend]

theorem mem_suffixed {opening : Char} {gap before after : Nat} :
    opening ∈ suffixed cs gap opening before ds after c :=
  List.mem_append_right _ (List.mem_append_right _ List.mem_cons_self)

theorem mem_joined {before after : Nat} : c ∈ joined cs before c after ds :=
  List.mem_append_right _ (List.mem_append_right _ List.mem_cons_self)

/-- Only a single word is without a sign or a blank. -/
theorem Operator.sign (o : Operator) : (∃ x, o = .primary (.name (.word x))) ∨
    ∃ c ∈ o.body, isWordPart c = false := by
  match o with
  | .primary (.name (.word x)) => exact .inl ⟨x, rfl⟩
  | .primary (.name (.member d before after x)) => exact .inr ⟨'.', mem_joined, by decide⟩
  | .primary (.generic _ _ _ _ _) => exact .inr ⟨'<', mem_suffixed, by decide⟩
  | .primary (.array _ _ _) | .primary (.indexed _ _ _ _ _) =>
    exact .inr ⟨'[', mem_suffixed, by decide⟩
  | .primary (.paren _ _ _) => exact .inr ⟨'(', List.mem_cons_self, by decide⟩
  | .primary (.literal l) => exact .inr ⟨l.quote, List.mem_cons_self, l.quote_sign.2⟩
  | .primary (.tuple _ _ _) | .primary (.emptyTuple _) =>
    exact .inr ⟨'[', List.mem_cons_self, by decide⟩
  | .primary (.object _ _ _) => exact .inr ⟨'{', List.mem_cons_self, by decide⟩
  | .primary (.query _ _) => exact .inr ⟨' ', space_mem_prefixed, by decide⟩
  | .readonlyArray lead element gap inside =>
    obtain ⟨front, hbody⟩ := readonlyArray_body lead element gap inside
    exact .inr ⟨'[', hbody ▸ List.mem_append_right _ List.mem_cons_self, by decide⟩
  | .keyof lead o =>
    rcases keyof_broken lead o with ⟨c, hc, hblank⟩ | ⟨c, hc, hsign⟩
    · refine .inr ⟨c, hc, Bool.eq_false_iff.mpr fun hpart => ?_⟩
      rw [isBlank_of_isWordPart hpart] at hblank
      cases hblank
    · exact .inr ⟨c, List.mem_of_getLast? hc, hsign⟩

theorem isNullish_of_sign (hc : c ∈ cs) (hsign : isWordPart c = false) : isNullish cs = false := by
  have hwords : ("null".toList ++ "undefined".toList).all isWordPart = true := by decide
  rw [List.all_append, Bool.and_eq_true, List.all_eq_true, List.all_eq_true] at hwords
  refine isNullish_eq_false.mpr ⟨List.ne_nil_of_mem hc, ?_, ?_⟩
  · rintro rfl
    rw [hwords.1 c hc] at hsign
    cases hsign
  · rintro rfl
    rw [hwords.2 c hc] at hsign
    cases hsign

theorem Operator.body_subset (o : Operator) (hc : c ∈ o.body) : c ∈ o.chars := by
  rcases o.chars_eq_or with h | ⟨n, h⟩
  · rwa [h]
  · rw [h]
    exact List.mem_append_right _ (List.mem_append_right _ hc)

/-- A member of a union says nothing if it is `null` or `undefined`. -/
theorem Intersection.isNullish_eq (i : Intersection) (htext : text = i.chars ∨ text = i.body) :
    TypeName.isNullish text = i.isNullish := by
  cases i with
  | more o before after i =>
    have hmem : '&' ∈ text := by
      rcases htext with rfl | rfl <;> exact mem_joined
    exact isNullish_of_sign hmem (by decide)
  | one o =>
    rcases o.sign with ⟨x, rfl⟩ | ⟨c, hc, hsign⟩
    · rcases htext with rfl | rfl <;> rfl
    · have hmem : c ∈ text := by
        rcases htext with rfl | rfl
        · exact o.body_subset hc
        · exact hc
      rw [isNullish_of_sign hmem hsign, Intersection.isNullish.eq_def]
      split
      · rename_i x heq
        obtain rfl := Intersection.one.inj heq
        rw [List.all_eq_true.mp (all_isWordPart x.toIdent) c hc] at hsign
        cases hsign
      · rfl

theorem Intersection.symbolOf_more (o : Operator) (before after : Nat) (i : Intersection) :
    symbolOf (Intersection.more o before after i).chars = none := by
  have hbare := (Intersection.more o before after i).bare_chars.1
  have hne := List.isEmpty_eq_false_iff.mpr (Intersection.more o before after i).edged_body.ne_nil
  have hunion : topLevelPieces '|' 0 (Intersection.more o before after i).body =
      some [(Intersection.more o before after i).body] :=
    (Intersection.more o before after i).closed_body.passed.whole 0 (Int.le_refl 0)
  have hseveral : topLevelPieces '&' 0 (Intersection.more o before after i).body =
      (topLevelPieces '&' 0 i.chars).map fun ps =>
        (o.body ++ blanks before) :: topLevelPieces.prepend (blanks after) ps :=
    topLevelPieces_joined (s := ⟨'&', by decide⟩) o.closed_body
  have hform : form (Intersection.more o before after i).chars = .noSymbol := by
    simp only [form, hbare, hne, hunion, hseveral]
    rcases topLevelPieces '&' 0 i.chars with _ | _ | ⟨p, ps⟩ <;> rfl
  rw [symbolOf_eq, hform]

theorem Intersection.members_read {i : Intersection} (hi : Reads i.chars i.core)
    (htext : text = i.chars ∨ text = i.body) :
    List.Forall₂ Reads (members [text]) (if i.isNullish then [] else [i.core]) := by
  have hstrip : strip isBlank text = text := by
    rcases htext with rfl | rfl
    · exact i.edged.strip
    · exact i.edged_body.strip
  have hsymbol : symbolOf text = symbolOf i.chars := by
    rcases htext with rfl | rfl
    · rfl
    · exact i.symbolOf_body
  have hread : Reads text i.core := by rwa [Reads, hsymbol]
  cases hnullish : i.isNullish with
  | true => simp [members, hstrip, i.isNullish_eq htext, hnullish]
  | false => simp [members, hstrip, i.isNullish_eq htext, hnullish, hread]

theorem Union.more_read {i : Intersection} {u : Union} {before after : Nat}
    (hi : Reads i.chars i.core) (htext : text = i.chars ∨ text = i.body)
    (hu : ∃ ps, topLevelPieces '|' 0 u.chars = some ps ∧ List.Forall₂ Reads (members ps) u.cores) :
    ∃ ps, topLevelPieces '|' 0 (joined text before '|' after u.chars) = some ps ∧ 1 < ps.length ∧
      List.Forall₂ Reads (members ps) (Union.more i before after u).cores := by
  obtain ⟨ps, hps, hmembers⟩ := hu
  have hclosed : Closed bar 0 text := by
    rcases htext with rfl | rfl
    · exact i.closed_bar
    · exact i.closed_body
  refine ⟨_, (topLevelPieces_joined (s := bar) hclosed).trans (congrArg (Option.map _) hps), ?_, ?_⟩
  · rw [List.length_cons]
    exact Nat.succ_lt_succ (List.length_pos_iff.mpr prepend_ne_nil)
  · rw [members_cons, members_congr (strip_append_right isBlank_of_mem_blanks),
      members_prepend isBlank_of_mem_blanks (ne_nil_of_topLevelPieces hps), Union.cores]
    have happend := List.rel_append (Intersection.members_read hi htext) hmembers
    cases hnullish : i.isNullish <;> simpa [hnullish] using happend

theorem reads_only {texts : List (List Char)} {cores : List (Option Operator)}
    (h : List.Forall₂ Reads texts cores) :
    onlySymbol? texts = (only cores).bind Operator.ownSymbol ↔ ∀ c ∈ only cores, ¬ c.Misread := by
  cases h with
  | nil => exact ⟨nofun, fun _ => rfl⟩
  | cons hfirst hrest =>
    cases hrest with
    | nil => exact hfirst
    | cons _ _ => exact ⟨nofun, fun _ => rfl⟩

theorem symbolOf_function (before : Nat) (params : Fields) (after arrowBefore arrowAfter : Nat)
    (result : Ty) :
    symbolOf (Ty.function before params after arrowBefore arrowAfter result).chars = none := by
  have hparams : Closed bar 0 (bracketed '(' before (params.chars ',') after ')') :=
    closed_bracketed (params.closed ',' rfl) rfl rfl
  have hfront := hparams.append (closed_blanks arrowBefore)
  have hpieces : topLevelPieces '|' 0
      (Ty.function before params after arrowBefore arrowAfter result).chars = none := by
    have hlevel : rise (bracketed '(' before (params.chars ',') after ')' ++ blanks arrowBefore) = 0 :=
      hfront.passed.level
    rw [Ty.chars, ← List.append_assoc, topLevelPieces_append fun hlast => absurd hlast hfront.ends,
      hlevel, topLevelPieces_arrow, Int.add_zero, if_pos rfl]
    exact Option.bind_fun_none _
  have hword : firstWord (Ty.function before params after arrowBefore arrowAfter result).chars ≠
      "readonly".toList := by
    rw [Ty.chars, bracketed, List.cons_append, firstWord_of_sign (by decide) (by decide)]
    decide
  apply symbolOf_of_arrow
  rw [bare_eq_strip hword]
  have hstrip := topLevelPieces_strip (Ty.function before params after arrowBefore arrowAfter result).chars
  rw [hpieces] at hstrip
  exact Option.map_eq_none_iff.mp hstrip.symm

theorem symbolOf_paren (before after : Nat) (t : Ty) :
    symbolOf (bracketed '(' before t.chars after ')') = symbolOf t.chars := by
  have hinner (s : Separator) : Closed s 1 (blanks before ++ (t.chars ++ blanks after)) :=
    (closed_blanks before).append (t.closed.append (closed_blanks after))
  rw [bracketed, symbolOf_parens (fun separator hseparator => (hinner ⟨separator, hseparator⟩).passed)
      fun hlast => absurd hlast (hinner bar).ends, ← symbolOf_strip,
    strip_append_left isBlank_of_mem_blanks, strip_append_right isBlank_of_mem_blanks, symbolOf_strip]

mutual
theorem Primary.reads : ∀ p : Primary, Reads p.chars p.core
  | .paren before t after => by
    rw [Reads, Primary.chars, symbolOf_paren]
    exact t.reads
  | .name d => Operator.reads (.primary (.name d)) nofun
  | .generic d gap before args after => Operator.reads (.primary (.generic d gap before args after)) nofun
  | .array element gap inside => Operator.reads (.primary (.array element gap inside)) nofun
  | .literal l => Operator.reads (.primary (.literal l)) nofun
  | .tuple before elements after => Operator.reads (.primary (.tuple before elements after)) nofun
  | .emptyTuple inside => Operator.reads (.primary (.emptyTuple inside)) nofun
  | .object before fields after => Operator.reads (.primary (.object before fields after)) nofun
  | .query gap d => Operator.reads (.primary (.query gap d)) nofun
  | .indexed base gap before key after =>
    Operator.reads (.primary (.indexed base gap before key after)) nofun

theorem Operator.reads_core : ∀ o : Operator, Reads o.chars o.core
  | .primary p => p.reads
  | .readonlyArray lead element gap inside =>
    Operator.reads (.readonlyArray lead element gap inside) nofun
  | .keyof lead o => Operator.reads (.keyof lead o) nofun

theorem Intersection.reads : ∀ i : Intersection, Reads i.chars i.core
  | .one o => o.reads_core
  | .more o before after i => by
    rw [Reads, Intersection.symbolOf_more]
    exact ⟨nofun, fun _ => rfl⟩

theorem Union.members_read : ∀ u : Union, ∃ ps, topLevelPieces '|' 0 u.chars = some ps ∧
    List.Forall₂ Reads (members ps) u.cores
  | .one i =>
    ⟨[i.chars], i.closed_bar.passed.whole 0 (Int.le_refl 0),
      Intersection.members_read i.reads (.inl rfl)⟩
  | .more i before after u => by
    obtain ⟨ps, hps, -, hmembers⟩ := Union.more_read i.reads (.inl rfl) u.members_read
    exact ⟨ps, hps, hmembers⟩

theorem Union.reads : ∀ u : Union, Reads u.chars u.core
  | .one i => i.reads
  | .more i before after u => by
    obtain ⟨ps, hps, hmany, hmembers⟩ := Union.more_read i.reads (.inr rfl) u.members_read
    have hbare : bare (joined i.chars before '|' after u.chars) =
        joined i.body before '|' after u.chars :=
      (i.bare_append (i.edged_body.joined u.edged) (stops_blanks (by decide))).1
    have hsymbol := symbolOf_of_many ((congrArg _ hbare).trans hps) hmany
    rw [Reads, Union.chars, hsymbol]
    exact reads_only hmembers

theorem Ty.reads : ∀ t : Ty, Reads t.chars t.core
  | .union u => u.reads
  | .function before params after arrowBefore arrowAfter result => by
    rw [Reads, symbolOf_function]
    exact ⟨nofun, fun _ => rfl⟩
end

/-- The text of a type has the symbol of the type, unless the type that the symbol is asked of is
misread. -/
theorem symbol?_text_iff (t : Ty) : symbol? t.text = t.symbol ↔ ∀ c ∈ t.core, ¬ c.Misread := by
  rw [symbol?_eq, Ty.text, String.toList_ofList, Ty.symbol]
  exact (Option.map_injective (fun _ _ => String.ofList_inj.mp)).eq_iff.trans t.reads

def genericTuple : Ty :=
  let r : TypeWord := ⟨⟨'R', [], by decide, List.all_nil⟩, by decide⟩
  let subject : Ident := ⟨'S', "ubject".toList, by decide, by decide⟩
  let a : TypeWord := ⟨Ident.sampleType, by decide⟩
  let argument : Ty := .union (.one (.one (.primary (.name (.word a)))))
  let element : Primary := .generic (.member (.word r) 0 0 subject) 0 0 (.last argument) 0
  .union (.one (.one (.primary (.tuple 0 (.last (.union (.one (.one (.primary element))))) 0))))

/-- A tuple has no symbol, but one that begins with a dotted name and type arguments gets that of its
first element. -/
theorem symbol?_genericTuple : genericTuple.text = "[R.Subject<A>]" ∧ genericTuple.symbol = none ∧
    symbol? genericTuple.text = some "Subject" := by
  decide

end

end Subscriptions.TypeName
