import Mathlib.Data.List.Infix
import Mathlib.Data.List.Pairwise
import Mathlib.Tactic.SplitIfs
import Subscriptions.Proofs.Syntax.Scanning

namespace Subscriptions

/-- A character starts at the offset, or the source ends there. -/
def IsBoundary (source : List Char) (n : Nat) : Prop :=
  ∃ before, before <+: source ∧ byteLength before = n

/-- The span can be cut out of the source. -/
structure Span.Safe (source : List Char) (s : Span) : Prop where
  ordered : s.start ≤ s.stop
  inside : s.stop ≤ byteLength source
  start : IsBoundary source s.start
  stop : IsBoundary source s.stop

def Span.Covers (s : Span) (pos : Nat) (cs part : List Char) : Prop :=
  ∃ before after, cs = before ++ part ++ after ∧ s.start = pos + byteLength before ∧
    s.stop = s.start + byteLength part

section
variable {source cs part before after : List Char} {s : Span} {pos m n : Nat}

theorem eq_nil_of_byteLength (h : byteLength cs = 0) : cs = [] := by
  cases cs with
  | nil => rfl
  | cons c cs =>
    have hpos := c.utf8Size_pos
    rw [byteLength_cons] at h
    omega

theorem byteLength_pos (h : cs ≠ []) : 0 < byteLength cs :=
  Nat.pos_of_ne_zero fun hzero => h (eq_nil_of_byteLength hzero)

theorem byteLength_le_of_prefix (h : before <+: cs) : byteLength before ≤ byteLength cs := by
  obtain ⟨after, rfl⟩ := h
  rw [byteLength_append]
  exact Nat.le_add_right _ _

theorem isBoundary_zero : IsBoundary source 0 := ⟨[], List.nil_prefix, rfl⟩

theorem IsBoundary.le (h : IsBoundary source n) : n ≤ byteLength source := by
  obtain ⟨before, hprefix, rfl⟩ := h
  exact byteLength_le_of_prefix hprefix

theorem isBoundary_length : IsBoundary source (byteLength source) := ⟨source, List.prefix_rfl, rfl⟩

/-- Between two boundaries there is a part of the text. -/
theorem exists_covers (hm : IsBoundary source m) (hn : IsBoundary source n) (hle : m ≤ n) :
    ∃ part, (Span.mk m n).Covers 0 source part := by
  obtain ⟨before, hbefore, rfl⟩ := hm
  obtain ⟨upTo, hupTo, rfl⟩ := hn
  have hprefix : before <+: upTo := by
    rcases List.prefix_or_prefix_of_prefix hbefore hupTo with h | h
    · exact h
    · obtain ⟨tail, rfl⟩ := h
      rw [byteLength_append] at hle
      have hnil : tail = [] := eq_nil_of_byteLength (by omega)
      rw [hnil, List.append_nil]
  obtain ⟨part, rfl⟩ := hprefix
  obtain ⟨after, rfl⟩ := hupTo
  exact ⟨part, before, after, rfl, by simp, by simp⟩

theorem dropBytes?_byteLength (before cs : List Char) :
    dropBytes? (byteLength before) (before ++ cs) = some cs := by
  induction before with
  | nil => cases cs <;> rfl
  | cons c before ih =>
    have hpos := c.utf8Size_pos
    obtain ⟨k, hk⟩ : ∃ k, c.utf8Size + byteLength before = k + 1 :=
      ⟨c.utf8Size + byteLength before - 1, by omega⟩
    have hsub : k + 1 - c.utf8Size = byteLength before := by omega
    rw [byteLength_cons, hk, List.cons_append, dropBytes?, if_neg (by omega), hsub, ih]

theorem takeBytes_byteLength (part cs : List Char) :
    takeBytes (byteLength part) (part ++ cs) = (part, true) := by
  induction part with
  | nil => cases cs <;> rfl
  | cons c part ih =>
    have hpos := c.utf8Size_pos
    have hsub : c.utf8Size + byteLength part - c.utf8Size = byteLength part := by omega
    have hne : ¬ (c.utf8Size + byteLength part == 0) = true := by
      rw [beq_iff_eq]
      omega
    rw [byteLength_cons, List.cons_append, takeBytes, if_neg hne, if_neg (by omega), hsub, ih]

/-- What stands at a span is what is cut out there. -/
theorem Span.Covers.slice? (h : s.Covers 0 source part) : slice? source s = some part := by
  obtain ⟨before, after, rfl, hstart, hstop⟩ := h
  have hle : s.start ≤ s.stop := by omega
  have hlength : s.stop - s.start = byteLength part := by omega
  rw [Nat.zero_add] at hstart
  rw [Subscriptions.slice?, if_pos hle, hlength, hstart, List.append_assoc, dropBytes?_byteLength,
    Option.bind_some, takeBytes_byteLength]

theorem Span.Covers.safe (h : s.Covers 0 source part) : s.Safe source := by
  obtain ⟨before, after, rfl, hstart, hstop⟩ := h
  rw [Nat.zero_add] at hstart
  have hstop' : IsBoundary (before ++ part ++ after) s.stop := by
    refine ⟨before ++ part, List.prefix_append _ _, ?_⟩
    rw [byteLength_append, hstop, hstart]
  refine ⟨by omega, hstop'.le, ⟨before, ?_, hstart.symm⟩, hstop'⟩
  rw [List.append_assoc]
  exact List.prefix_append _ _

theorem Span.Safe.covers (h : s.Safe source) : ∃ part, s.Covers 0 source part :=
  exists_covers h.start h.stop h.ordered

/-- A span from one boundary to a later one, or empty where it would end before it starts. -/
theorem safe_of_boundaries (hm : IsBoundary source m) (hn : IsBoundary source n) :
    (Span.mk m (max n m)).Safe source := by
  have hmax : IsBoundary source (max n m) := by
    rcases Nat.le_total n m with hle | hle
    · rwa [Nat.max_eq_right hle]
    · rwa [Nat.max_eq_left hle]
  exact ⟨Nat.le_max_right _ _, hmax.le, hm, hmax⟩

/-- A part of the rest of a text is a part of the text. -/
theorem Span.Covers.shift (h : s.Covers (pos + byteLength before) cs part) :
    s.Covers pos (before ++ cs) part := by
  obtain ⟨between, after, rfl, hstart, hstop⟩ := h
  refine ⟨before ++ between, after, by simp, ?_, hstop⟩
  rw [hstart, byteLength_append, Nat.add_assoc]

end

namespace Scanner

/-- The token is taken from the front of the text. -/
structure Takes (t : Token) (part rest : List Char) : Prop where
  text : t.text = String.ofList part
  ne_nil : part ≠ []
  lexeme : ∃ braces previous c cs, part ++ rest = c :: cs ∧
    t.kind = (lexeme braces previous c cs).kind ∧ part = (lexeme braces previous c cs).taken

/-- The tokens are those of the text, from an offset on: trivia and a token, again and again, and at
last the end of the file. -/
inductive Tiled : Nat → List Char → List Token → Prop
  | last {pos : Nat} {lead : List Char} {t : Token} (hkind : t.kind = .endOfFile)
    (htext : t.text = "") (hlead : t.lead = String.ofList lead)
    (hspan : t.span = ⟨pos + byteLength lead, pos + byteLength lead⟩) : Tiled pos lead [t]
  | next {pos : Nat} {lead part rest : List Char} {t : Token} {ts : List Token}
    (htakes : Takes t part rest) (hlead : t.lead = String.ofList lead)
    (hspan : t.span = ⟨pos + byteLength lead, pos + byteLength (lead ++ part)⟩)
    (hlater : Tiled (pos + byteLength (lead ++ part)) rest ts) :
    Tiled pos (lead ++ part ++ rest) (t :: ts)

section
variable {braces : List Nat} {previous : Option Token} {c : Char} {cs : List Char}

/-- What holds of words, numbers, literals and punctuators holds of each lexeme. -/
theorem lexeme_cases {P : Lexeme → Prop}
    (hword : (isWordStart c || c == '#') = true →
      P ⟨.word, c :: cs.takeWhile isWordPart, cs.dropWhile isWordPart, braces, none⟩)
    (hnumber : P ⟨.number, c :: cs.takeWhile isNumberPart, cs.dropWhile isNumberPart, braces, none⟩)
    (hliteral : ∀ kind ∈ [TokenKind.string, .template, .templateHead, .templateMiddle,
      .templateTail, .regex], ∀ braces what k, P (literalLexeme kind braces what c k))
    (hpunct : ∀ braces, P (punctLexeme braces c cs)) : P (lexeme braces previous c cs) := by
  unfold lexeme
  split_ifs with hstarts
  · exact hword hstarts
  · exact hnumber
  · exact hliteral _ (by simp) _ _ _
  · simp only [templateLexeme]
    split_ifs <;> exact hliteral _ (by simp) _ _ _
  · exact hpunct _
  · split
    · simp only [templateRestLexeme]
      split_ifs <;> exact hliteral _ (by simp) _ _ _
    · exact hpunct _
  · exact hliteral _ (by simp) _ _ _
  · exact hpunct _

theorem kind_punctLexeme : (punctLexeme braces c cs).kind = .punct := by
  unfold punctLexeme
  split <;> rfl

theorem lexeme_kind_ne_endOfFile : (lexeme braces previous c cs).kind ≠ .endOfFile := by
  apply lexeme_cases (P := fun l => l.kind ≠ .endOfFile)
  · exact fun _ => TokenKind.noConfusion
  · exact TokenKind.noConfusion
  · rintro kind hkind braces what k rfl
    simp at hkind
  · intro braces
    rw [kind_punctLexeme]
    exact TokenKind.noConfusion

/-- An opening bracket is a token by itself. -/
theorem taken_lexeme_bracket : (lexeme braces previous '[' cs).taken = ['['] := by
  have hword : isWordStart '[' = false := by decide
  have hpunct : lexeme braces previous '[' cs = punctLexeme braces '[' cs := by
    simp [lexeme, hword, startsNumber]
  rw [hpunct, punctLexeme]
  simp [punctuator?, punctuators, afterStart?]

/-- A lexeme is taken from the front of the text. -/
theorem takes_lexeme (lead : String) (span : Span) (newline : Bool) :
    Takes ⟨(lexeme braces previous c cs).kind, lead,
      String.ofList (lexeme braces previous c cs).taken, span, newline⟩
      (lexeme braces previous c cs).taken (lexeme braces previous c cs).rest :=
  have happend := lexeme_append braces previous c cs
  ⟨rfl, happend.1, braces, previous, c, cs, happend.2, rfl, rfl⟩

/-- A fault of a token is about the token. -/
theorem span_of_mem_lexeme_fault {span : Span} {f : Fault} :
    f ∈ ((lexeme braces previous c cs).fault.map (· span)).toList → f.span = span := by
  rw [Option.mem_toList, Option.map_eq_some_iff]
  apply lexeme_cases (P := fun l => (∃ a, l.fault = some a ∧ a span = f) → f.span = span)
  · rintro - ⟨_, h, -⟩
    cases h
  · rintro ⟨_, h, -⟩
    cases h
  · rintro kind _ braces what k ⟨_, h, rfl⟩
    simp only [literalLexeme] at h
    split_ifs at h
    cases h
    rfl
  · rintro braces ⟨_, h, rfl⟩
    unfold punctLexeme at h
    split at h <;> cases h
    rfl

/-- The offset is somewhere in a text that is taken from `pos` on. -/
def StartsIn (taken : List Char) (pos start : Nat) : Prop :=
  ∃ before, before <+: taken ∧ start = pos + byteLength before

theorem StartsIn.cons {pos start : Nat} (h : StartsIn cs (pos + c.utf8Size) start) :
    StartsIn (c :: cs) pos start := by
  obtain ⟨before, hbefore, hstart⟩ := h
  refine ⟨c :: before, List.cons_prefix_cons.mpr ⟨rfl, hbefore⟩, ?_⟩
  rw [hstart, byteLength_cons, Nat.add_assoc]

/-- A block comment that is never closed starts in the trivia, or was open before. -/
theorem start_of_unclosed {gap : Gap} {pos start : Nat} :
    (skipTrivia gap pos cs).unclosed = some start →
      StartsIn (skipTrivia gap pos cs).taken pos start ∨
        ∃ newline, gap = .blockComment start newline := by
  have hclosed {taken : List Char} {pos : Nat} {gap : Gap}
      (h : StartsIn taken pos start ∨ ∃ newline, gap = .blockComment start newline)
      (hgap : gap = .blank ∨ gap = .lineComment) : StartsIn taken pos start := by
    rcases h with h | ⟨newline, rfl⟩
    · exact h
    · rcases hgap with hgap | hgap <;> cases hgap
  fun_induction skipTrivia gap pos cs with
  | case1 pos cs ih => exact fun h => .inl (.cons (.cons (hclosed (ih h) (.inr rfl))))
  | case2 pos cs ih =>
    intro h
    rcases ih h with hin | ⟨newline, hgap⟩
    · exact .inl (.cons (.cons hin))
    · cases hgap
      exact .inl ⟨[], List.nil_prefix, rfl⟩
  | case3 pos c cs _ _ hc ih =>
    obtain rfl := eq_of_beq hc
    exact fun h => .inl (.cons (hclosed (ih h) (.inl rfl)))
  | case4 pos c cs _ _ _ _ ih => exact fun h => .inl (.cons (hclosed (ih h) (.inl rfl)))
  | case5 =>
    intro h
    cases h
  | case6 pos c cs hc ih =>
    obtain rfl := eq_of_beq hc
    exact fun h => .inl (.cons (hclosed (ih h) (.inl rfl)))
  | case7 pos c cs _ ih => exact fun h => .inl (.cons (hclosed (ih h) (.inr rfl)))
  | case8 _ pos cs _ ih => exact fun h => .inl (.cons (.cons (hclosed (ih h) (.inl rfl))))
  | case9 _ _ pos cs _ _ ih => exact fun h => .inl (.cons (.cons (hclosed (ih h) (.inl rfl))))
  | case10 first newline pos c cs _ ih =>
    intro h
    rcases ih h with hin | ⟨_, hgap⟩
    · exact .inl hin.cons
    · cases hgap
      exact .inr ⟨_, rfl⟩
  | case11 first newline pos =>
    intro h
    cases h
    exact .inr ⟨_, rfl⟩
  | case12 =>
    intro h
    cases h

/-- The fault of a block comment that is never closed covers it. -/
theorem covers_of_mem_unclosed {pos : Nat} {f : Fault}
    (hf : f ∈ (skipTrivia .blank pos cs).unclosed.toList.map fun start =>
      Fault.unterminated .blockComment
        ⟨start, pos + byteLength (skipTrivia .blank pos cs).taken⟩) :
    ∃ part, f.span.Covers pos cs part := by
  obtain ⟨start, hstart, rfl⟩ := List.mem_map.mp hf
  obtain ⟨before, ⟨part, hpart⟩, rfl⟩ :=
    (start_of_unclosed (Option.mem_toList.mp hstart)).resolve_right fun ⟨_, hgap⟩ => nomatch hgap
  refine ⟨part, before, (skipTrivia .blank pos cs).rest, ?_, rfl, ?_⟩
  · rw [hpart, skipTrivia_append]
  · rw [← hpart, byteLength_append]
    exact (Nat.add_assoc _ _ _).symm

end

/-- Tokens and faults of a text from an offset on stand where its parts do. -/
theorem scanFrom_places (fuel : Nat) (braces : List Nat) (previous : Option Token) (pos : Nat)
    (cs : List Char) (h : cs.length < fuel) :
    Tiled pos cs (scanFrom fuel braces previous pos cs).tokens ∧
      ∀ f ∈ (scanFrom fuel braces previous pos cs).faults, ∃ part, f.span.Covers pos cs part := by
  induction fuel generalizing braces previous pos cs with
  | zero => exact absurd h (Nat.not_lt_zero _)
  | succ fuel ih =>
    have hgap := skipTrivia_append .blank pos cs
    have hshorter := fun c rest => @length_rest_lt pos c cs rest
    have hopen := @covers_of_mem_unclosed cs pos
    simp only [scanFrom]
    -- What skipping and cutting do is in the facts; the texts they leave are arbitrary from here.
    generalize skipTrivia .blank pos cs = gap at hgap hshorter hopen ⊢
    subst hgap
    split
    · rename_i hrest
      rw [hrest, List.append_nil] at hopen ⊢
      exact ⟨.last rfl rfl rfl rfl, fun _ => hopen⟩
    · rename_i c rest hrest
      obtain ⟨-, happend⟩ := lexeme_append braces previous c rest
      have hfault := @span_of_mem_lexeme_fault braces previous c rest
      have htakes := @takes_lexeme braces previous c rest
      have hlength := Nat.lt_of_lt_of_le (hshorter c rest hrest braces previous) (Nat.le_of_lt_succ h)
      generalize lexeme braces previous c rest = l at happend hfault htakes hlength ⊢
      rw [hrest, ← happend, ← List.append_assoc] at hopen ⊢
      have hstop : pos + byteLength gap.taken + byteLength l.taken =
          pos + byteLength (gap.taken ++ l.taken) := by
        rw [byteLength_append, Nat.add_assoc]
      rw [hstop]
      have hlater := fun previous =>
        ih l.braces previous (pos + byteLength (gap.taken ++ l.taken)) l.rest hlength
      refine ⟨.next (htakes _ _ _) rfl rfl (hlater _).1, fun f hf => ?_⟩
      rw [List.mem_append, List.mem_append] at hf
      rcases hf with (hf | hf) | hf
      · exact hopen hf
      · rw [hfault hf]
        exact ⟨l.taken, gap.taken, l.rest, rfl, rfl, hstop.symm⟩
      · obtain ⟨part, hpart⟩ := (hlater _).2 f hf
        exact ⟨part, hpart.shift⟩

namespace Tiled

variable {pos : Nat} {cs : List Char} {t : Token} {ts us : List Token}

/-- The last token is the end of the file, and no other is. -/
theorem eq_append_end (h : Tiled pos cs ts) :
    ∃ front e, ts = front ++ [e] ∧ e.isEnd = true ∧ ∀ t ∈ front, t.isEnd = false := by
  induction h with
  | last hkind => exact ⟨[], _, rfl, beq_iff_eq.mpr hkind, nofun⟩
  | @next _ _ _ _ t _ htakes _ _ _ ih =>
    obtain ⟨front, e, rfl, hend, hfront⟩ := ih
    obtain ⟨_, _, _, _, -, hkind, -⟩ := htakes.lexeme
    refine ⟨t :: front, e, rfl, hend, ?_⟩
    rintro u (_ | ⟨_, hu⟩)
    · rw [Token.isEnd, hkind]
      exact beq_eq_false_iff_ne.mpr lexeme_kind_ne_endOfFile
    · exact hfront u hu

/-- What the later tokens are taken from is the rest of the text. -/
theorem drop (h : Tiled pos cs (ts ++ us)) (hus : us ≠ []) :
    ∃ before rest, cs = before ++ rest ∧ Tiled (pos + byteLength before) rest us := by
  induction ts generalizing pos cs with
  | nil => exact ⟨[], cs, rfl, h⟩
  | cons t ts ih =>
    rw [List.cons_append] at h
    generalize hlist : t :: (ts ++ us) = all at h
    cases h with
    | last =>
      obtain ⟨-, hnil⟩ := List.cons.inj hlist
      exact absurd (List.append_eq_nil_iff.mp hnil).2 hus
    | @next _ lead part rest _ _ _ _ _ hlater =>
      obtain ⟨-, rfl⟩ := List.cons.inj hlist
      obtain ⟨before, after, rfl, htiled⟩ := ih hlater
      refine ⟨lead ++ part ++ before, after, by simp, ?_⟩
      rwa [byteLength_append, ← Nat.add_assoc]

/-- The token in front, behind its trivia: the end of the file, or one with more behind it. -/
theorem first (h : Tiled pos cs (t :: ts)) : ∃ lead part rest, cs = lead ++ part ++ rest ∧
    t.lead = String.ofList lead ∧ t.text = String.ofList part ∧
    t.span = ⟨pos + byteLength lead, pos + byteLength (lead ++ part)⟩ ∧
    (t.isEnd = true ∧ ts = [] ∨ part ≠ [] ∧ Tiled t.span.stop rest ts) := by
  cases h with
  | last hkind htext hlead hspan =>
    refine ⟨cs, [], [], by simp, hlead, htext, ?_, .inl ⟨beq_iff_eq.mpr hkind, rfl⟩⟩
    rw [hspan, List.append_nil]
  | @next _ lead part rest _ _ htakes hlead hspan hlater =>
    refine ⟨lead, part, rest, rfl, hlead, htakes.text, hspan, .inr ⟨htakes.ne_nil, ?_⟩⟩
    rwa [hspan]

/-- Every token stands at its span. -/
theorem covers_of_mem (h : Tiled pos cs ts) (ht : t ∈ ts) :
    ∃ part, t.text = String.ofList part ∧ t.span.Covers pos cs part := by
  obtain ⟨before, after, rfl⟩ := List.append_of_mem ht
  obtain ⟨front, rest, rfl, htiled⟩ := h.drop (List.cons_ne_nil _ _)
  obtain ⟨lead, part, tail, rfl, -, htext, hspan, -⟩ := htiled.first
  refine ⟨part, htext, .shift ⟨lead, tail, rfl, ?_, ?_⟩⟩
  · rw [hspan]
  · rw [hspan, byteLength_append, Nat.add_assoc _ (byteLength lead)]

/-- Tokens one behind the other are written as the text from the first to the last of them. -/
theorem textOfTokens_eq (h : Tiled pos cs (t :: ts ++ us)) :
    ∃ lead part rest, cs = lead ++ part ++ rest ∧ t.lead = String.ofList lead ∧
      t.span.start = pos + byteLength lead ∧ textOfTokens (t :: ts) = String.ofList part ∧
      ((t :: ts).getLast (List.cons_ne_nil _ _)).span.stop = pos + byteLength (lead ++ part) := by
  induction ts generalizing t pos cs with
  | nil =>
    obtain ⟨lead, part, rest, hcs, hlead, htext, hspan, -⟩ := h.first
    refine ⟨lead, part, rest, hcs, hlead, by rw [hspan], ?_, by rw [List.getLast_singleton, hspan]⟩
    simpa [textOfTokens] using htext
  | cons u ts ih =>
    obtain ⟨lead, part, rest, rfl, hlead, htext, hspan, hend⟩ := h.first
    obtain ⟨-, htiled⟩ := hend.resolve_left fun hend => List.cons_ne_nil _ _ hend.2
    obtain ⟨lead', part', rest', rfl, hlead', -, htext', hstop'⟩ := ih htiled
    refine ⟨lead, part ++ lead' ++ part', rest', by simp, hlead, by rw [hspan], ?_, ?_⟩
    · have hjoin : textOfTokens (t :: u :: ts) = t.text ++ (u.lead ++ textOfTokens (u :: ts)) := by
        simp [textOfTokens, String.append_assoc]
      rw [hjoin, htext, hlead', htext', String.ofList_append, String.ofList_append,
        String.append_assoc]
    · rw [List.getLast_cons (List.cons_ne_nil _ _), hstop', hspan]
      simp only [byteLength_append]
      omega

/-- All tokens but the end of the file take some room, and stand in the order of the text. -/
theorem ordered (h : Tiled pos cs ts) :
    ts.Pairwise (fun t u => t.span.stop ≤ u.span.start) ∧
      ∀ t ∈ ts, t.isEnd = false → t.span.start < t.span.stop := by
  induction h with
  | last hkind => exact ⟨List.pairwise_singleton _ _, fun t ht hend => by simp_all [Token.isEnd]⟩
  | @next pos lead part rest t ts htakes _ hspan hlater ih =>
    have hroom := byteLength_pos htakes.ne_nil
    refine ⟨List.pairwise_cons.mpr ⟨fun u hu => ?_, ih.1⟩, ?_⟩
    · obtain ⟨_, -, _, _, -, hstart, -⟩ := hlater.covers_of_mem hu
      rw [hstart, hspan]
      exact Nat.le_add_right _ _
    · rintro u (_ | ⟨_, hu⟩) hend
      · rw [hspan, byteLength_append]
        dsimp only
        omega
      · exact ih.2 u hu hend

/-- Only the opening bracket starts with one. -/
theorem eq_bracket_of_mem (h : Tiled pos cs ts) (ht : t ∈ ts) {after : List Char}
    (htext : t.text.toList = '[' :: after) : after = [] := by
  induction h with
  | last _ hempty =>
    obtain rfl := List.mem_singleton.mp ht
    rw [hempty] at htext
    cases htext
  | next htakes _ _ _ ih =>
    rcases List.mem_cons.mp ht with rfl | ht
    · obtain ⟨_, _, c, cs, happend, -, htaken⟩ := htakes.lexeme
      rw [htakes.text, String.toList_ofList] at htext
      rw [htext] at happend htaken
      obtain ⟨rfl, -⟩ := List.cons.inj happend
      rw [taken_lexeme_bracket] at htaken
      exact (List.cons.inj htaken).2
    · exact ih ht

/-- A token that is not the end of the file has a text. -/
theorem text_ne_empty (h : Tiled pos cs ts) (ht : t ∈ ts) (hend : t.isEnd = false) :
    t.text ≠ "" := by
  intro hempty
  obtain ⟨part, htext, _, _, -, -, hstop⟩ := h.covers_of_mem ht
  have hroom := h.ordered.2 t ht hend
  have hpart : part = [] := by
    rw [← String.toList_ofList (l := part), ← htext, hempty]
    rfl
  rw [hpart, byteLength_nil] at hstop
  omega

end Tiled

end Scanner

variable (source : List Char)

/-- The tokens of a source lie one behind the other. -/
theorem tiled_tokenize : Scanner.Tiled 0 source (tokenize source).tokens :=
  (Scanner.scanFrom_places _ _ _ _ _ (Nat.lt_succ_self _)).1

/-- The faults of the scanner are about parts of the source. -/
theorem safe_of_mem_tokenize_faults {f : Fault} (hf : f ∈ (tokenize source).faults) :
    f.span.Safe source := by
  obtain ⟨part, hpart⟩ :=
    (Scanner.scanFrom_places (source.length + 1) [] none 0 source (Nat.lt_succ_self _)).2 f hf
  exact hpart.safe

end Subscriptions
