import Subscriptions.Syntax.Scanner

namespace Subscriptions.Scanner

open Text

theorem skipTrivia_append (gap : Gap) (pos : Nat) (cs : List Char) :
    (skipTrivia gap pos cs).taken ++ (skipTrivia gap pos cs).rest = cs := by
  fun_induction skipTrivia gap pos cs <;>
    simp_all +zetaDelta [Trivia.push, Trivia.breakLine]

theorem cutString_append (quote : Char) (cs : List Char) :
    (cutString quote cs).taken ++ (cutString quote cs).rest = cs := by
  fun_induction cutString quote cs <;> simp_all [Cut.push]

theorem cutTemplate_append (cs : List Char) :
    (cutTemplate cs).taken ++ (cutTemplate cs).rest = cs := by
  fun_induction cutTemplate cs <;> simp_all [Cut.push]

theorem cutRegex_append (inClass : Bool) (cs : List Char) :
    (cutRegex inClass cs).taken ++ (cutRegex inClass cs).rest = cs := by
  fun_induction cutRegex inClass cs <;> simp_all [Cut.push]

theorem append_of_afterStart? {ps cs rest : List Char} (h : afterStart? ps cs = some rest) :
    ps ++ rest = cs := by
  fun_induction afterStart? ps cs <;> simp_all

theorem punctuator?_append {cs taken rest : List Char}
    (h : punctuator? cs = some (taken, rest)) : taken ≠ [] ∧ taken ++ rest = cs := by
  obtain ⟨p, hp, hfound⟩ := List.exists_of_findSome?_eq_some h
  obtain ⟨rest', hrest, heq⟩ := Option.map_eq_some_iff.mp hfound
  obtain ⟨rfl, rfl⟩ := Prod.mk.inj heq
  have hne : ∀ p ∈ punctuators, p.toList ≠ [] := by decide
  exact ⟨hne p hp, append_of_afterStart? hrest⟩

/-- A token takes at least one character. -/
theorem lexeme_append (braces : List Nat) (previous : Option Token) (c : Char) (cs : List Char) :
    (lexeme braces previous c cs).taken ≠ [] ∧
      (lexeme braces previous c cs).taken ++ (lexeme braces previous c cs).rest = c :: cs := by
  have hpunct (braces : List Nat) : (punctLexeme braces c cs).taken ≠ [] ∧
      (punctLexeme braces c cs).taken ++ (punctLexeme braces c cs).rest = c :: cs := by
    unfold punctLexeme
    split
    · rename_i h
      exact punctuator?_append h
    · exact ⟨List.cons_ne_nil _ _, rfl⟩
  have hliteral (kind : TokenKind) (braces : List Nat) (what : Unclosed) (k : Cut)
      (hk : k.taken ++ k.rest = cs) : (literalLexeme kind braces what c k).taken ≠ [] ∧
        (literalLexeme kind braces what c k).taken ++ (literalLexeme kind braces what c k).rest =
          c :: cs := by
    exact ⟨List.cons_ne_nil _ _, congrArg (c :: ·) hk⟩
  unfold lexeme
  repeat' split
  · exact ⟨List.cons_ne_nil _ _, congrArg (c :: ·) List.takeWhile_append_dropWhile⟩
  · exact ⟨List.cons_ne_nil _ _, congrArg (c :: ·) List.takeWhile_append_dropWhile⟩
  · exact hliteral _ _ _ _ (cutString_append c cs)
  · simp only [templateLexeme]
    split
    · exact hliteral _ _ _ _ (cutTemplate_append cs)
    · exact hliteral _ _ _ _ (cutTemplate_append cs)
  · exact hpunct _
  · simp only [templateRestLexeme]
    split
    · exact hliteral _ _ _ _ (cutTemplate_append cs)
    · exact hliteral _ _ _ _ (cutTemplate_append cs)
  · exact hpunct _
  · exact hliteral _ _ _ _ (cutRegex_append false cs)
  · exact hpunct _

/-- After trivia and a token the text is shorter. -/
theorem length_rest_lt {pos : Nat} {c : Char} {cs rest : List Char}
    (h : (skipTrivia .blank pos cs).rest = c :: rest) (braces : List Nat)
    (previous : Option Token) : (lexeme braces previous c rest).rest.length < cs.length := by
  obtain ⟨hne, happend⟩ := lexeme_append braces previous c rest
  have hgap := congrArg List.length (skipTrivia_append .blank pos cs)
  have hlength := congrArg List.length happend
  have hpos := List.length_pos_iff.mpr hne
  rw [h] at hgap
  simp only [List.length_append, List.length_cons] at hgap hlength
  omega

/-- With fuel for each character the scanner comes to the end of the file. -/
theorem scanFrom_ends (fuel : Nat) (braces : List Nat) (previous : Option Token) (pos : Nat)
    (cs : List Char) (h : cs.length < fuel) :
    ∃ t, (scanFrom fuel braces previous pos cs).tokens.getLast? = some t ∧ t.isEnd = true := by
  induction fuel generalizing braces previous pos cs with
  | zero => exact absurd h (Nat.not_lt_zero _)
  | succ fuel ih =>
    simp only [scanFrom]
    split
    · exact ⟨_, rfl, rfl⟩
    · rename_i c rest hrest
      have hlength := length_rest_lt hrest braces previous
      obtain ⟨t, ht, hend⟩ := ih (lexeme braces previous c rest).braces _ _
        (lexeme braces previous c rest).rest (by omega)
      refine ⟨t, ?_, hend⟩
      rw [List.getLast?_cons, ht]
      rfl

section
variable {c : Char} {cs : List Char}

/-- What the text starts with is the start of a token: neither a blank nor a comment. -/
def Solid (cs : List Char) : Prop :=
  ∀ c ds, cs = c :: ds → isBlank c = false ∧ (c = '/' → ∀ d ∈ ds.head?, d ≠ '/' ∧ d ≠ '*')

theorem solid_skipTrivia (gap : Gap) (pos : Nat) (cs : List Char) :
    Solid (skipTrivia gap pos cs).rest := by
  fun_induction skipTrivia gap pos cs with
  | case1 _ _ ih | case2 _ _ ih => exact ih
  | case3 _ _ _ _ _ _ ih => exact ih
  | case4 _ _ _ _ _ _ _ ih => exact ih
  | case5 pos c cs hline hblock _ hc =>
    rintro _ _ ⟨⟩
    refine ⟨by simpa using hc, ?_⟩
    rintro rfl d hd
    obtain ⟨ds, rfl⟩ := List.head?_eq_some_iff.mp hd
    constructor
    · rintro rfl
      exact hline ds rfl rfl
    · rintro rfl
      exact hblock ds rfl rfl
  | case6 _ _ _ _ ih | case7 _ _ _ _ ih | case8 _ _ _ _ ih => exact ih
  | case9 _ _ _ _ _ _ ih | case10 _ _ _ _ _ _ ih => exact ih
  | case11 | case12 =>
    rintro _ _ h
    cases h

theorem Solid.of_not_blank (hc : isBlank c = false) (hslash : c ≠ '/') : Solid (c :: cs) := by
  rintro _ _ ⟨⟩
  exact ⟨hc, fun h => absurd h hslash⟩

theorem skipTrivia_solid (pos : Nat) (h : Solid cs) :
    skipTrivia .blank pos cs = ⟨[], cs, false, none⟩ := by
  cases cs with
  | nil => rfl
  | cons c cs =>
    obtain ⟨hblank, hslash⟩ := h c cs rfl
    by_cases hc : c = '/'
    · subst hc
      cases cs with
      | nil => rfl
      | cons d cs =>
        obtain ⟨hline, hblock⟩ := hslash rfl d rfl
        simp [skipTrivia, hline, hblock, hblank]
    · have hline : c ≠ '\n' := by
        rintro rfl
        cases hblank
      simp [skipTrivia, hc, hline, hblank]

/-- In front of a token or of the end all blanks are skipped. -/
theorem skipTrivia_blanks {ws : List Char} (pos : Nat) (hws : ws.all isBlank = true)
    (h : Solid cs) : skipTrivia .blank pos (ws ++ cs) = ⟨ws, cs, ws.contains '\n', none⟩ := by
  induction ws generalizing pos with
  | nil => exact skipTrivia_solid pos h
  | cons w ws ih =>
    rw [List.all_cons, Bool.and_eq_true] at hws
    obtain ⟨hw, hws⟩ := hws
    have hslash : w ≠ '/' := by
      rintro rfl
      cases hw
    by_cases hfeed : w = '\n'
    · simp [skipTrivia, hfeed, ih _ hws, Trivia.push, Trivia.breakLine]
    · simp [skipTrivia, hfeed, Ne.symm hfeed, hslash, hw, ih _ hws, Trivia.push]

end

end Subscriptions.Scanner

namespace Subscriptions

open Scanner

/-- The last token of a source is the end of the file. -/
theorem isEnd_getLastD_tokenize (source : List Char) :
    ((tokenize source).tokens.getLastD default).isEnd = true := by
  obtain ⟨t, ht, hend⟩ :=
    scanFrom_ends (source.length + 1) [] none 0 source (Nat.lt_succ_self _)
  have hlast : (tokenize source).tokens.getLast? = some t := ht
  rw [List.getLastD_eq_getLast?, hlast]
  exact hend

end Subscriptions
