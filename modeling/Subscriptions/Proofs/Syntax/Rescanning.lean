import Subscriptions.Proofs.Syntax.Spelling

namespace Subscriptions

namespace Scanner

open Text

/-- The text is empty or starts with a blank, whichever that is. -/
def Clear (cs : List Char) : Prop := ∀ c ∈ cs.head?, isBlank c = true

section
variable {c : Char} {cs ds rest taken : List Char} {braces : List Nat} {previous : Option Token}

theorem Clear.head {q : Char → Bool} (h : Clear cs) (hq : ∀ c, q c = true → isBlank c = false) :
    ∀ d ∈ cs.head?, q d = false := by
  intro d hd
  cases hpart : q d with
  | false => rfl
  | true =>
    have hblank := h d hd
    rw [hq d hpart] at hblank
    cases hblank

/-- A text without blanks that starts what is taken and more is in what is taken. -/
theorem Clear.prefix (h : Clear rest) {p : List Char} (hp : ∀ c ∈ p, isBlank c = false)
    (hstarts : p <+: taken ++ rest) : p <+: taken := by
  rcases List.prefix_or_prefix_of_prefix hstarts (List.prefix_append taken rest) with hin | hout
  · exact hin
  · obtain ⟨beyond, rfl⟩ := hout
    have hover : beyond <+: rest := (List.prefix_append_right_inj taken).mp hstarts
    cases beyond with
    | nil => simp
    | cons d beyond =>
      obtain ⟨after, rfl⟩ := hover
      have hblank := h d rfl
      rw [hp d (by simp)] at hblank
      cases hblank

theorem cutString_again {quote : Char} (h : (cutString quote cs).ending ≠ .unclosed) :
    cutString quote ((cutString quote cs).taken ++ rest) =
      { cutString quote cs with rest := rest } := by
  fun_induction cutString quote cs with
  | case1 c cs ih => simp_all [cutString, Cut.push]
  | case2 c cs hlast hc ih =>
    -- A backslash at the end leaves the string unclosed.
    cases cs with
    | nil => simp [cutString, Cut.push] at h
    | cons d ds => exact absurd rfl (hlast d ds (eq_of_beq hc))
  | case3 => simp at h
  | case4 c cs _ hbackslash hfeed hquote => simp_all [cutString]
  | case5 c cs _ hbackslash hfeed hquote ih => simp_all [cutString, Cut.push]
  | case6 => simp at h

/-- A template takes a character at least up to where it ends. -/
theorem head?_cutTemplate (h : (cutTemplate cs).ending ≠ .unclosed) :
    ((cutTemplate cs).taken ++ rest).head? = cs.head? := by
  have happend := cutTemplate_append cs
  have hne : (cutTemplate cs).taken ≠ [] := by
    fun_induction cutTemplate cs <;> simp_all [Cut.push]
  obtain ⟨d, ds, htaken⟩ := List.exists_cons_of_ne_nil hne
  rw [htaken] at happend ⊢
  rw [← happend]
  rfl

theorem cutTemplate_again (h : (cutTemplate cs).ending ≠ .unclosed) :
    cutTemplate ((cutTemplate cs).taken ++ rest) = { cutTemplate cs with rest := rest } := by
  fun_induction cutTemplate cs with
  | case1 c cs ih => simp_all [cutTemplate, Cut.push]
  | case2 cs => rfl
  | case3 c cs _ _ hquote => simp_all [cutTemplate]
  | case4 c cs hbackslash hdollar hquote ih =>
    have hlater := ih h
    obtain ⟨ds, hds⟩ : ∃ ds, (cutTemplate cs).taken ++ rest = ds := ⟨_, rfl⟩
    have hhead : ds.head? = cs.head? := hds ▸ head?_cutTemplate h
    have hstep : cutTemplate (c :: ds) = (cutTemplate ds).push c := by
      cases cs with
      | nil => exact absurd rfl h
      | cons d cs =>
        obtain ⟨ds, rfl⟩ := List.head?_eq_some_iff.mp hhead
        simp_all [cutTemplate]
    change cutTemplate (c :: ((cutTemplate cs).taken ++ rest)) = _
    rw [hds] at hlater ⊢
    rw [hstep, hlater]
    rfl
  | case5 => simp at h

theorem cutRegex_again {inClass : Bool} (h : (cutRegex inClass cs).ending ≠ .unclosed)
    (hrest : Clear rest) :
    cutRegex inClass ((cutRegex inClass cs).taken ++ rest) =
      { cutRegex inClass cs with rest := rest } := by
  have hstop := hrest.head fun c => isBlank_of_isWordPart (c := c)
  have hparts (cs : List Char) : (cs.takeWhile isWordPart).all isWordPart = true :=
    List.all_takeWhile
  fun_induction cutRegex inClass cs with
  | case1 inClass c cs ih => simp_all [cutRegex, Cut.push]
  | case2 => simp at h
  | case3 inClass c cs _ hfeed hc ih => simp_all [cutRegex, Cut.push]
  | case4 inClass c cs _ hfeed hopen hc ih => simp_all [cutRegex, Cut.push]
  | case5 inClass c cs _ hfeed hopen hclose hc =>
    simp_all [cutRegex, takeWhile_append_stop, dropWhile_append_stop]
  | case6 inClass c cs hlast hfeed hopen hclose hc ih =>
    have hbackslash : c ≠ '\\' := by
      rintro rfl
      cases cs with
      | nil => simp [cutRegex, Cut.push] at h
      | cons d ds => exact absurd rfl (hlast d ds rfl)
    simp_all [cutRegex, Cut.push]
  | case7 => simp at h

theorem afterStart?_append (ps : List Char) : afterStart? ps (ps ++ rest) = some rest := by
  induction ps with
  | nil => cases rest <;> rfl
  | cons p ps ih => simp [afterStart?, ih]

theorem not_isBlank_of_mem_punctuators {p : String} (hp : p ∈ punctuators) :
    ∀ c ∈ p.toList, isBlank c = false := by
  have hall : (punctuators.all fun p => p.toList.all (!isBlank ·)) = true := by decide
  intro c hc
  have hblank := List.all_eq_true.mp (List.all_eq_true.mp hall p hp) c hc
  rwa [Bool.not_eq_true'] at hblank

/-- The first punctuator of a text is so before other blanks. -/
theorem punctuator?_again {after : List Char} (h : punctuator? cs = some (taken, after))
    (hrest : Clear rest) : punctuator? (taken ++ rest) = some (taken, rest) := by
  obtain ⟨shorter, p, longer, hsplit, hp, hnone⟩ := List.findSome?_eq_some_iff.mp h
  obtain ⟨after', hafter, heq⟩ := Option.map_eq_some_iff.mp hp
  obtain ⟨rfl, rfl⟩ := Prod.mk.inj heq
  have htext := append_of_afterStart? hafter
  refine List.findSome?_eq_some_iff.mpr ⟨shorter, p, longer, hsplit, ?_, fun q hq => ?_⟩
  · rw [afterStart?_append]
    rfl
  · rw [Option.map_eq_none_iff]
    cases hfound : afterStart? q.toList (p.toList ++ rest) with
    | none => rfl
    | some beyond =>
      have hmem : q ∈ punctuators := hsplit ▸ List.mem_append_left _ hq
      have hprefix : q.toList <+: p.toList := by
        refine hrest.prefix (not_isBlank_of_mem_punctuators hmem) ⟨beyond, ?_⟩
        exact append_of_afterStart? hfound
      obtain ⟨tail, htail⟩ := hprefix
      have hshorter := hnone q hq
      rw [← htext, ← htail, List.append_assoc, afterStart?_append] at hshorter
      cases hshorter

theorem punctLexeme_again (h : (punctLexeme braces c cs).fault = none) (hrest : Clear rest) :
    punctLexeme braces c ((punctLexeme braces c cs).taken.tail ++ rest) =
      { punctLexeme braces c cs with rest := rest } := by
  cases hfound : punctuator? (c :: cs) with
  | none =>
    rw [punctLexeme, hfound] at h
    cases h
  | some found =>
    obtain ⟨taken, after⟩ := found
    have hlexeme : punctLexeme braces c cs = ⟨.punct, taken, after, braces, none⟩ := by
      rw [punctLexeme, hfound]
    obtain ⟨hne, happend⟩ := punctuator?_append hfound
    obtain ⟨d, ds, rfl⟩ := List.exists_cons_of_ne_nil hne
    obtain ⟨rfl, -⟩ := List.cons.inj happend
    have hagain := punctuator?_again hfound hrest
    rw [hlexeme, punctLexeme, List.tail_cons, ← List.cons_append, hagain]

theorem closed_of_literalLexeme {kind : TokenKind} {what : Unclosed} {k : Cut}
    (h : (literalLexeme kind braces what c k).fault = none) : k.ending ≠ .unclosed := by
  rw [literalLexeme] at h
  intro hopen
  rw [hopen] at h
  cases h

/-- A part of a template, of one kind in front of a substitution and of another one at the end. -/
def partLexeme (within last : TokenKind) (opened closed : List Nat) (c : Char) (cs : List Char) :
    Lexeme :=
  let k := cutTemplate cs
  if k.ending == .substitution then literalLexeme within opened .template c k
  else literalLexeme last closed .template c k

theorem partLexeme_again {within last : TokenKind} {opened closed : List Nat}
    (h : (partLexeme within last opened closed c cs).fault = none) :
    partLexeme within last opened closed c
        ((partLexeme within last opened closed c cs).taken.tail ++ rest) =
      { partLexeme within last opened closed c cs with rest := rest } := by
  have hclosed : (cutTemplate cs).ending ≠ .unclosed := by
    rw [partLexeme] at h
    split at h
    · exact closed_of_literalLexeme h
    · exact closed_of_literalLexeme h
  have htaken : (partLexeme within last opened closed c cs).taken = c :: (cutTemplate cs).taken := by
    rw [partLexeme]
    split <;> rfl
  rw [htaken, List.tail_cons, partLexeme, cutTemplate_again hclosed, partLexeme]
  dsimp only
  split <;> rfl

/-- The token that starts with `c`, which starts neither a word nor a number. -/
def otherLexeme (braces : List Nat) (regex : Bool) (c : Char) (cs : List Char) : Lexeme :=
  if c == '"' || c == '\'' then literalLexeme .string braces .string c (cutString c cs)
  else if c == '\x60' then templateLexeme braces c cs
  else if c == '{' then punctLexeme (openBrace braces) c cs
  else if c == '}' then
    match braces with
    | 0 :: outer => templateRestLexeme outer c cs
    | _ => punctLexeme (closeBrace braces) c cs
  else if c == '/' && regex then literalLexeme .regex braces .regex c (cutRegex false cs)
  else punctLexeme braces c cs

theorem lexeme_eq_other (hword : ¬ (isWordStart c || c == '#') = true)
    (hnumber : ¬ startsNumber (c :: cs) = true) :
    lexeme braces previous c cs = otherLexeme braces (regexAllowed previous) c cs := by
  unfold lexeme
  rw [if_neg hword, if_neg hnumber]
  rfl

theorem otherLexeme_again {regex : Bool} (h : (otherLexeme braces regex c cs).fault = none)
    (hrest : Clear rest) :
    otherLexeme braces regex c ((otherLexeme braces regex c cs).taken.tail ++ rest) =
      { otherLexeme braces regex c cs with rest := rest } := by
  by_cases hquote : (c == '"' || c == '\'') = true
  · simp only [otherLexeme, if_pos hquote] at h ⊢
    have hagain : cutString c ((cutString c cs).taken ++ rest) =
        { cutString c cs with rest := rest } := cutString_again (closed_of_literalLexeme h)
    simp only [literalLexeme, List.tail_cons, hagain]
  by_cases htemplate : (c == '\x60') = true
  · simp only [otherLexeme, if_neg hquote, if_pos htemplate] at h ⊢
    exact partLexeme_again h
  by_cases hopen : (c == '{') = true
  · simp only [otherLexeme, if_neg hquote, if_neg htemplate, if_pos hopen] at h ⊢
    exact punctLexeme_again h hrest
  by_cases hclose : (c == '}') = true
  · simp only [otherLexeme, if_neg hquote, if_neg htemplate, if_neg hopen, if_pos hclose] at h ⊢
    match braces with
    | 0 :: outer => exact partLexeme_again h
    | [] => exact punctLexeme_again h hrest
    | (n + 1) :: outer => exact punctLexeme_again h hrest
  by_cases hregex : (c == '/' && regex) = true
  · simp only [otherLexeme, if_neg hquote, if_neg htemplate, if_neg hopen, if_neg hclose,
      if_pos hregex] at h ⊢
    have hagain := cutRegex_again (closed_of_literalLexeme h) hrest
    simp only [literalLexeme, List.tail_cons, hagain]
  · simp only [otherLexeme, if_neg hquote, if_neg htemplate, if_neg hopen, if_neg hclose,
      if_neg hregex] at h ⊢
    exact punctLexeme_again h hrest

/-- What is scanned again goes on as before, or with a blank. -/
theorem head?_again (hrest : Clear rest) :
    ((lexeme braces previous c cs).taken.tail ++ rest).head? = cs.head? ∨
      Clear ((lexeme braces previous c cs).taken.tail ++ rest) := by
  obtain ⟨hne, happend⟩ := lexeme_append braces previous c cs
  obtain ⟨d, ds, htaken⟩ := List.exists_cons_of_ne_nil hne
  rw [htaken] at happend ⊢
  obtain ⟨-, hcs⟩ := List.cons.inj happend
  rw [← hcs]
  cases ds with
  | nil => exact .inr hrest
  | cons e ds => exact .inl rfl

/-- Blanks do not make a number of what is none. -/
theorem startsNumber_again (h : startsNumber (c :: cs) = false)
    (hds : ds.head? = cs.head? ∨ Clear ds) : startsNumber (c :: ds) = false := by
  by_cases hc : c = '.'
  · subst hc
    cases ds with
    | nil => rfl
    | cons d ds =>
      rcases hds with hds | hds
      · obtain ⟨cs, rfl⟩ := List.head?_eq_some_iff.mp hds.symm
        exact h
      · exact hds.head (q := Char.isDigit) (fun c hc => (digit_start hc).2.1) d rfl
  · rw [startsNumber_of_ne hc] at h ⊢
    exact h

/-- The digit after a dot is taken with it. -/
theorem startsNumber_taken (h : startsNumber (c :: cs) = true) :
    startsNumber (c :: (cs.takeWhile isNumberPart ++ rest)) = true := by
  by_cases hc : c = '.'
  · subst hc
    cases cs with
    | nil => cases h
    | cons d cs =>
      rw [List.takeWhile_cons_of_pos (isNumberPart_of_isDigit h)]
      exact h
  · rw [startsNumber_of_ne hc] at h ⊢
    exact h

/-- A token without a fault is scanned again where blanks follow it. -/
theorem lexeme_again {previous' : Option Token} (h : (lexeme braces previous c cs).fault = none)
    (hprevious : regexAllowed previous' = regexAllowed previous) (hrest : Clear rest) :
    lexeme braces previous' c ((lexeme braces previous c cs).taken.tail ++ rest) =
      { lexeme braces previous c cs with rest := rest } := by
  by_cases hword : (isWordStart c || c == '#') = true
  · have hstop := hrest.head fun c => isBlank_of_isWordPart (c := c)
    have hparts : (cs.takeWhile isWordPart).all isWordPart = true := List.all_takeWhile
    simp only [lexeme, if_pos hword, List.tail_cons, takeWhile_append_stop hparts hstop,
      dropWhile_append_stop hparts hstop]
  by_cases hnumber : startsNumber (c :: cs) = true
  · have hstop := hrest.head fun c => isBlank_of_isNumberPart (c := c)
    have hparts : (cs.takeWhile isNumberPart).all isNumberPart = true := List.all_takeWhile
    have hstarts : startsNumber (c :: (cs.takeWhile isNumberPart ++ rest)) = true :=
      startsNumber_taken hnumber
    simp only [lexeme, if_neg hword, if_pos hnumber, List.tail_cons, if_pos hstarts,
      takeWhile_append_stop hparts hstop, dropWhile_append_stop hparts hstop]
  · have hnext := @head?_again c cs rest braces previous hrest
    have hagain := startsNumber_again (Bool.eq_false_iff.mpr hnumber) hnext
    rw [← Bool.not_eq_true] at hagain
    rw [lexeme_eq_other hword hnumber] at h hagain ⊢
    rw [lexeme_eq_other hword hagain, hprevious]
    exact otherLexeme_again h hrest

theorem Solid.again (h : Solid (c :: cs)) (hds : ds.head? = cs.head? ∨ Clear ds) :
    Solid (c :: ds) := by
  obtain ⟨hblank, hslash⟩ := h c cs rfl
  rintro _ _ ⟨⟩
  refine ⟨hblank, fun hc d hd => ?_⟩
  rcases hds with hds | hds
  · exact hslash hc d (hds ▸ hd)
  · have hblank := hds d hd
    constructor
    · rintro rfl
      cases hblank
    · rintro rfl
      cases hblank

end

end Scanner

end Subscriptions
