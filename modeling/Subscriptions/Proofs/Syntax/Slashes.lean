import Subscriptions.Proofs.Syntax.Gaps

namespace Subscriptions

/-- Where the trivia of a token stand, right before it. -/
def Token.gap (t : Token) : Span := ⟨t.span.start - byteLength t.lead.toList, t.span.start⟩

/-- Strings, regular expressions, and templates with their parts. -/
def TokenKind.isLiteral : TokenKind → Bool
  | .string | .template | .templateHead | .templateMiddle | .templateTail | .regex => true
  | .word | .number | .punct | .endOfFile => false

/-- The token is a literal with the offset in it, or else the offset is in the gap before the token
and the text starts with what the gap holds from there on. -/
def Token.Holds (t : Token) (offset : Nat) (text : List Char) : Prop :=
  t.kind.isLiteral = true ∧ t.span.start ≤ offset ∧ offset < t.span.stop ∨
    ∃ lead rest, t.lead.toList = lead ++ rest ∧ offset = t.gap.start + byteLength lead ∧
      rest ≠ [] ∧ rest <+: text

namespace Scanner

open Text

section
variable {braces : List Nat} {previous : Option Token} {c sign : Char}
  {cs text before behind : List Char}

theorem slash_not_mem_tail {p : String} (hp : p ∈ punctuators) : '/' ∉ p.toList.tail := by
  have hall : (punctuators.all fun p => !p.toList.tail.contains '/') = true := by decide
  have hnone := List.all_eq_true.mp hall p hp
  rwa [Bool.not_eq_true', List.contains_eq_mem, decide_eq_false_iff_not] at hnone

/-- Behind its first character only a literal holds a slash. -/
theorem isLiteral_of_slash (h : '/' ∈ (lexeme braces previous c cs).taken.tail) :
    (lexeme braces previous c cs).kind.isLiteral = true := by
  revert h
  apply lexeme_cases (P := fun l => '/' ∈ l.taken.tail → l.kind.isLiteral = true)
  · intro _ h
    have hpart : isWordPart '/' = true := List.all_eq_true.mp List.all_takeWhile _ h
    exact absurd hpart (by decide)
  · intro h
    have hpart : isNumberPart '/' = true := List.all_eq_true.mp List.all_takeWhile _ h
    exact absurd hpart (by decide)
  · intro kind hkind braces what k _
    simp only [List.mem_cons, List.not_mem_nil, or_false] at hkind
    rcases hkind with rfl | rfl | rfl | rfl | rfl | rfl <;> rfl
  · intro braces h
    unfold punctLexeme at h
    split at h
    · rename_i taken rest hfound
      obtain ⟨p, hp, hafter⟩ := List.exists_of_findSome?_eq_some hfound
      obtain ⟨_, -, heq⟩ := Option.map_eq_some_iff.mp hafter
      obtain ⟨rfl, -⟩ := Prod.mk.inj heq
      exact absurd h (slash_not_mem_tail hp)
    · simp at h

/-- The first token, behind what is skipped before it, and the tokens behind it. -/
theorem scanFrom_first (fuel pos : Nat) :
    ∃ t later, (scanFrom (fuel + 1) braces previous pos cs).tokens = t :: later ∧
      t.lead.toList = (skipTrivia .blank pos cs).taken ∧
      t.span.start = pos + byteLength (skipTrivia .blank pos cs).taken ∧
      ∀ c rest, (skipTrivia .blank pos cs).rest = c :: rest →
        t.kind = (lexeme braces previous c rest).kind ∧
        t.span.stop = t.span.start + byteLength (lexeme braces previous c rest).taken ∧
        later = (scanFrom fuel (lexeme braces previous c rest).braces (some t) t.span.stop
          (lexeme braces previous c rest).rest).tokens := by
  simp only [scanFrom]
  split
  · rename_i hrest
    exact ⟨_, _, rfl, String.toList_ofList, rfl, by simp [hrest]⟩
  · rename_i c rest hrest
    refine ⟨_, _, rfl, String.toList_ofList, rfl, ?_⟩
    rintro c' rest' h
    rw [hrest] at h
    cases h
    exact ⟨rfl, rfl, rfl⟩

/-- The opening of a comment does not start a token. -/
theorem Solid.not_opening (h : Solid cs) (hsign : sign = '/' ∨ sign = '*') :
    cs ≠ '/' :: sign :: behind := by
  rintro rfl
  obtain ⟨hline, hblock⟩ := (h _ _ rfl).2 rfl sign rfl
  rcases hsign with hsign | hsign
  · exact hline hsign
  · exact hblock hsign

/-- Where the opening of a comment stands behind the start of a token, it stands behind the token or
in a literal. -/
theorem lexeme_opening (part : List Char) (hc : cs = part ++ '/' :: sign :: behind) :
    (∃ more, c :: part = (lexeme braces previous c cs).taken ++ more ∧
      (lexeme braces previous c cs).rest = more ++ '/' :: sign :: behind) ∨
    (lexeme braces previous c cs).kind.isLiteral = true ∧
      ∃ d more, (lexeme braces previous c cs).taken = c :: part ++ d :: more := by
  have hliteral := @isLiteral_of_slash braces previous c cs
  obtain ⟨-, happend⟩ := lexeme_append braces previous c cs
  generalize lexeme braces previous c cs = l at hliteral happend ⊢
  rw [hc, ← List.cons_append] at happend
  rcases List.append_eq_append_iff.mp happend with ⟨more, htoken, hmore⟩ | ⟨more, htoken, hmore⟩
  · exact .inl ⟨more, htoken, hmore⟩
  · cases more with
    | nil => exact .inl ⟨[], by rw [htoken, List.append_nil, List.append_nil], hmore.symm⟩
    | cons d more =>
      obtain ⟨rfl, -⟩ := List.cons.inj hmore
      exact .inr ⟨hliteral (by simp [htoken]), '/', more, htoken⟩

/-- Where a text opens a comment, it does so in a literal or in the gap before a token. -/
theorem holds_opening (fuel : Nat) (braces : List Nat) (previous : Option Token) (pos : Nat)
    (before : List Char) (hsign : sign = '/' ∨ sign = '*')
    (hcs : cs = before ++ '/' :: sign :: behind) (hfuel : cs.length < fuel) :
    ∃ t ∈ (scanFrom fuel braces previous pos cs).tokens,
      t.Holds (pos + byteLength before) ('/' :: sign :: behind) := by
  induction fuel generalizing braces previous pos before cs with
  | zero => exact absurd hfuel (Nat.not_lt_zero _)
  | succ fuel ih =>
    obtain ⟨t, later, htokens, hlead, hstart, hrest⟩ :=
      @scanFrom_first braces previous cs fuel pos
    have hsolid := solid_skipTrivia .blank pos cs
    have hshorter := fun c rest => @length_rest_lt pos c cs rest
    have happend := skipTrivia_append .blank pos cs
    generalize skipTrivia .blank pos cs = gap at hlead hstart hrest hsolid hshorter happend
    rw [htokens]
    rw [hcs] at happend
    rcases List.append_eq_append_iff.mp happend with ⟨part, hbefore, hpart⟩ | ⟨part, htaken, hpart⟩
    · -- The opening stands behind the gap, and no token starts with it.
      cases part with
      | nil => exact absurd hpart (hsolid.not_opening hsign)
      | cons c part =>
        obtain ⟨hkind, hstop, hlater⟩ := hrest c (part ++ '/' :: sign :: behind) hpart
        have hlength := hshorter c (part ++ '/' :: sign :: behind) hpart braces previous
        rcases @lexeme_opening braces previous c sign _ behind part rfl with
          ⟨more, htoken, hmore⟩ | ⟨hliteral, d, more, htoken⟩
        · obtain ⟨u, hu, hholds⟩ := ih _ (some t) t.span.stop more hmore (by omega)
          have hoffset : t.span.stop + byteLength more = pos + byteLength before := by
            rw [hstop, hstart, hbefore, htoken, byteLength_append, byteLength_append]
            omega
          rw [hoffset] at hholds
          exact ⟨u, List.mem_cons_of_mem _ (hlater ▸ hu), hholds⟩
        · have hpos := byteLength_pos (List.cons_ne_nil d more)
          refine ⟨t, List.mem_cons_self, .inl ⟨hkind ▸ hliteral, ?_, ?_⟩⟩
          · rw [hstart, hbefore, byteLength_append]
            omega
          · rw [hstop, hstart, hbefore, htoken, byteLength_append, byteLength_append _ (d :: more)]
            omega
    · have hne : part ≠ [] := by
        rintro rfl
        exact hsolid.not_opening hsign hpart.symm
      have hgap : t.gap.start = pos := by
        rw [Token.gap, hlead, hstart]
        exact Nat.add_sub_cancel _ _
      refine ⟨t, List.mem_cons_self, .inr ⟨before, part, ?_, ?_, hne, ⟨gap.rest, hpart.symm⟩⟩⟩
      · rw [hlead, htaken]
      · rw [hgap]

section
variable {pos : Nat} {tokens : List Token} {t u : Token} {lead : List Char}

theorem gap_start (hlead : t.lead = String.ofList lead)
    (hstart : t.span.start = pos + byteLength lead) : t.gap.start = pos := by
  rw [Token.gap, hlead, String.toList_ofList, hstart]
  exact Nat.add_sub_cancel _ _

/-- The gap before a token is as long as what it holds. -/
theorem Tiled.gap_bounds (h : Tiled pos cs tokens) (ht : t ∈ tokens) :
    pos ≤ t.gap.start ∧ t.gap.start + byteLength t.lead.toList = t.span.start ∧
      t.span.start ≤ t.span.stop := by
  induction h with
  | last _ _ hlead hspan =>
    obtain rfl := List.mem_singleton.mp ht
    have hstart := gap_start hlead (congrArg Span.start hspan)
    rw [hstart, hlead, String.toList_ofList, hspan]
    exact ⟨Nat.le_refl _, rfl, Nat.le_refl _⟩
  | @next pos lead part rest v ts _ hlead hspan _ ih =>
    rcases List.mem_cons.mp ht with rfl | ht
    · have hstart := gap_start hlead (congrArg Span.start hspan)
      have hstop : pos + byteLength lead ≤ pos + byteLength (lead ++ part) := by
        rw [byteLength_append]
        exact Nat.add_le_add_left (Nat.le_add_right _ _) _
      rw [hstart, hlead, String.toList_ofList, hspan]
      exact ⟨Nat.le_refl _, rfl, hstop⟩
    · obtain ⟨hpos, hlater⟩ := ih ht
      exact ⟨Nat.le_trans (Nat.le_add_right _ _) hpos, hlater⟩

/-- Of two tokens, the one stops before the gap of the other starts, or else it does not start
before the other one. -/
theorem Tiled.apart (h : Tiled pos cs tokens) (ht : t ∈ tokens) (hu : u ∈ tokens) :
    u.span.stop ≤ t.gap.start ∨ t.span.start ≤ u.span.start := by
  induction h with
  | last =>
    obtain rfl := List.mem_singleton.mp ht
    obtain rfl := List.mem_singleton.mp hu
    exact .inr (Nat.le_refl _)
  | @next pos lead part rest v ts _ _ hspan hlater ih =>
    rcases List.mem_cons.mp ht with rfl | ht'
    · rcases List.mem_cons.mp hu with rfl | hu'
      · exact .inr (Nat.le_refl _)
      · obtain ⟨hpos, hgap, -⟩ := hlater.gap_bounds hu'
        right
        rw [hspan]
        rw [byteLength_append] at hpos
        dsimp only
        omega
    · rcases List.mem_cons.mp hu with rfl | hu'
      · left
        rw [hspan]
        exact (hlater.gap_bounds ht').1
      · exact ih ht' hu'

end

theorem Filler.slash_of_head (h : Filler false (sign :: cs)) (hsign : sign = '/' ∨ sign = '*') :
    '/' ∈ cs := by
  generalize htext : sign :: cs = text at h
  cases h with
  | nil => cases htext
  | blank hblank _ =>
    obtain ⟨rfl, -⟩ := List.cons.inj htext
    rcases hsign with rfl | rfl <;> cases hblank
  | lineComment => simp_all
  | blockComment => simp_all
  | lastLine hend => cases hend
  | unclosed hend => cases hend

/-- In front of a token the end of a comment follows each opening of one on the same line. -/
theorem Filler.slash_behind (h : Filler false text) (hsign : sign = '/' ∨ sign = '*')
    (htext : text = before ++ '/' :: sign :: behind) (hline : '\n' ∉ behind) : '/' ∈ behind := by
  have hfeed : '\n' ∉ '/' :: sign :: behind := by
    rcases hsign with rfl | rfl <;> simpa using hline
  induction h generalizing before with
  | nil => simp at htext
  | @blank c cs hblank _ ih =>
    cases before with
    | nil =>
      obtain ⟨rfl, -⟩ := List.cons.inj htext
      cases hblank
    | cons d before => exact ih (List.cons.inj htext).2
  | @lineComment body cs hbody _ ih =>
    rw [← List.cons_append, ← List.cons_append] at htext
    rcases List.append_eq_append_iff.mp htext with ⟨more, -, hmore⟩ | ⟨more, -, hmore⟩
    · exact ih hmore
    · exact absurd (by simp [hmore]) hfeed
  | @blockComment body cs _ hlater ih =>
    have hclosed : '/' :: '*' :: (body ++ '*' :: '/' :: cs) =
        '/' :: '*' :: body ++ ['*', '/'] ++ cs := by simp
    rw [hclosed] at htext
    rcases List.append_eq_append_iff.mp htext with ⟨more, -, hmore⟩ | ⟨more, hcomment, hmore⟩
    · exact ih hmore
    · -- The comment ends with the opening: behind it, in the middle of it, with it or inside of it.
      match more, hmore with
      | [], hmore =>
        have hfirst : cs = [] ++ '/' :: sign :: behind := hmore.symm
        exact ih hfirst
      | [_], hmore =>
        obtain ⟨-, rfl⟩ := List.cons.inj hmore
        exact hlater.slash_of_head hsign
      | [_, _], hmore =>
        obtain ⟨rfl, hmore⟩ := List.cons.inj hmore
        have hend := (List.append_inj' hcomment rfl).2
        cases hend
      | _ :: _ :: d :: more, hmore =>
        obtain ⟨-, hmore⟩ := List.cons.inj hmore
        obtain ⟨-, rfl⟩ := List.cons.inj hmore
        have hlast := congrArg List.getLast? hcomment
        rw [List.getLast?_append_of_ne_nil _ (List.cons_ne_nil _ _),
          List.getLast?_append_of_ne_nil _ (List.cons_ne_nil _ _)] at hlast
        simp only [List.getLast?_cons_cons] at hlast
        have hmem : '/' ∈ d :: more := List.mem_of_getLast? hlast.symm
        exact List.mem_append_left cs hmem
  | lastLine hend => cases hend
  | unclosed hend => cases hend

end

end Scanner

end Subscriptions
