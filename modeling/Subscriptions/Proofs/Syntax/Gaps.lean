import Subscriptions.Proofs.Syntax.Placing

namespace Subscriptions

namespace Scanner

open Text

/-- A text of blanks and comments. A line comment ends before its line feed, and a block comment
with the first end of one in it; only in front of the end of the file may a line feed or the end of
a comment be missing. -/
inductive Filler (atEnd : Bool) : List Char → Prop
  | nil : Filler atEnd []
  | blank {c : Char} {cs : List Char} (hc : isBlank c = true) (h : Filler atEnd cs) :
    Filler atEnd (c :: cs)
  | lineComment {body cs : List Char} (hbody : '\n' ∉ body) (h : Filler atEnd ('\n' :: cs)) :
    Filler atEnd ('/' :: '/' :: (body ++ '\n' :: cs))
  | blockComment {body cs : List Char} (hbody : ¬ ['*', '/'] <:+: body) (h : Filler atEnd cs) :
    Filler atEnd ('/' :: '*' :: (body ++ '*' :: '/' :: cs))
  | lastLine {body : List Char} (hend : atEnd = true) (hbody : '\n' ∉ body) :
    Filler atEnd ('/' :: '/' :: body)
  | unclosed {body : List Char} (hend : atEnd = true) (hbody : ¬ ['*', '/'] <:+: body) :
    Filler atEnd ('/' :: '*' :: body)

def Gap.opening : Gap → List Char
  | .blank => []
  | .lineComment => ['/', '/']
  | .blockComment _ _ => ['/', '*']

/-- A line feed has been seen in the comment that is still open. -/
def Gap.newline : Gap → Bool
  | .blockComment _ newline => newline
  | _ => false

section
variable {atEnd : Bool} {c : Char} {cs : List Char}

theorem Filler.cons_lineComment (h : Filler atEnd ('/' :: '/' :: cs)) (hc : c ≠ '\n') :
    Filler atEnd ('/' :: '/' :: c :: cs) := by
  have hbody {body : List Char} (hbody : '\n' ∉ body) : '\n' ∉ c :: body := by
    simp [hbody, Ne.symm hc]
  generalize htext : '/' :: '/' :: cs = text at h
  cases h with
  | nil => cases htext
  | blank hblank _ =>
    obtain ⟨rfl, -⟩ := List.cons.inj htext
    cases hblank
  | @lineComment body rest hfree hrest =>
    obtain ⟨-, htext⟩ := List.cons.inj htext
    obtain ⟨-, rfl⟩ := List.cons.inj htext
    exact .lineComment (hbody hfree) hrest
  | blockComment => cases htext
  | lastLine hend hfree =>
    obtain ⟨-, htext⟩ := List.cons.inj htext
    obtain ⟨-, rfl⟩ := List.cons.inj htext
    exact .lastLine hend (hbody hfree)
  | unclosed => cases htext

theorem Filler.cons_blockComment (h : Filler atEnd ('/' :: '*' :: cs))
    (hc : ∀ ds, c :: cs ≠ '*' :: '/' :: ds) : Filler atEnd ('/' :: '*' :: c :: cs) := by
  have hbody {body after : List Char} (hcs : cs = body ++ after)
      (hbody : ¬ ['*', '/'] <:+: body) : ¬ ['*', '/'] <:+: c :: body := by
    intro hinfix
    rcases List.infix_cons_iff.mp hinfix with hprefix | hinfix
    · obtain ⟨ds, hds⟩ := hprefix
      refine hc (ds ++ after) ?_
      rw [hcs, ← List.cons_append, ← hds]
      rfl
    · exact hbody hinfix
  generalize htext : '/' :: '*' :: cs = text at h
  cases h with
  | nil => cases htext
  | blank hblank _ =>
    obtain ⟨rfl, -⟩ := List.cons.inj htext
    cases hblank
  | lineComment => cases htext
  | @blockComment body rest hfree hrest =>
    obtain ⟨-, htext⟩ := List.cons.inj htext
    obtain ⟨-, hcs⟩ := List.cons.inj htext
    rw [hcs, ← List.cons_append]
    exact .blockComment (hbody hcs hfree) hrest
  | lastLine => cases htext
  | unclosed hend hfree =>
    obtain ⟨-, htext⟩ := List.cons.inj htext
    obtain ⟨-, rfl⟩ := List.cons.inj htext
    exact .unclosed hend (hbody (List.append_nil _).symm hfree)

/-- What is skipped completes what is open to blanks and comments. -/
theorem filler_skipTrivia (gap : Gap) (pos : Nat) (cs : List Char) :
    Filler (skipTrivia gap pos cs).rest.isEmpty (gap.opening ++ (skipTrivia gap pos cs).taken) := by
  have hfeed : isBlank '\n' = true := by decide
  fun_induction skipTrivia gap pos cs with
  | case1 pos cs ih => exact ih
  | case2 pos cs ih => exact ih
  | case3 pos c cs _ _ hc ih =>
    obtain rfl := eq_of_beq hc
    exact .blank hfeed ih
  | case4 pos c cs _ _ _ hc ih => exact .blank hc ih
  | case5 => exact .nil
  | case6 pos c cs hc ih =>
    obtain rfl := eq_of_beq hc
    exact @Filler.lineComment _ [] _ List.not_mem_nil (.blank hfeed ih)
  | case7 pos c cs hc ih => exact ih.cons_lineComment (by simpa using hc)
  | case8 start pos cs _ ih => exact @Filler.blockComment _ [] _ (by decide) ih
  | case9 start newline pos cs _ _ ih => exact @Filler.blockComment _ [] _ (by decide) ih
  | case10 start newline pos c cs hopen ih =>
    -- Were `c` the first half of the end of the comment, the other half would have come next.
    refine ih.cons_blockComment fun ds hds => ?_
    obtain ⟨hc, htaken⟩ := List.cons.inj hds
    have happend := skipTrivia_append (.blockComment start (newline || c == '\n'))
      (pos + c.utf8Size) cs
    rw [show (skipTrivia _ _ cs).taken = '/' :: ds from htaken] at happend
    exact hopen _ hc happend.symm
  | case11 start newline pos => exact @Filler.unclosed _ [] rfl (by decide)
  | case12 gap pos hgap =>
    cases gap with
    | blank => exact .nil
    | lineComment => exact @Filler.lastLine _ [] rfl List.not_mem_nil
    | blockComment start newline => exact absurd rfl (hgap start newline)

/-- Short of the end of the file all line feeds that are skipped are noticed. -/
theorem newline_skipTrivia (gap : Gap) (pos : Nat) (cs : List Char)
    (hrest : (skipTrivia gap pos cs).rest ≠ []) :
    (skipTrivia gap pos cs).newline =
      (gap.newline || (skipTrivia gap pos cs).taken.contains '\n') := by
  have hcons (c : Char) (cs : List Char) :
      (c :: cs).contains '\n' = (c == '\n' || cs.contains '\n') := by
    rw [List.contains_cons, Bool.beq_comm]
  fun_induction skipTrivia gap pos cs <;>
    simp_all +zetaDelta [Trivia.push, Trivia.breakLine, Gap.newline, -List.contains_eq_mem,
      Bool.or_assoc]

/-- The trivia of a token are what stands before it, and tell whether it is on a new line. -/
structure Led (t : Token) : Prop where
  filler : Filler t.isEnd t.lead.toList
  newline : t.isEnd = false → (t.newlineBefore = true ↔ '\n' ∈ t.lead.toList)

theorem led_of_mem_scanFrom (fuel : Nat) (braces : List Nat) (previous : Option Token) (pos : Nat)
    (cs : List Char) : ∀ t ∈ (scanFrom fuel braces previous pos cs).tokens, Led t := by
  induction fuel generalizing braces previous pos cs with
  | zero =>
    intro t ht
    simp [scanFrom] at ht
  | succ fuel ih =>
    have hfiller := filler_skipTrivia .blank pos cs
    have hnewline := newline_skipTrivia .blank pos cs
    simp only [scanFrom]
    generalize skipTrivia .blank pos cs = gap at hfiller hnewline ⊢
    have hlead : (String.ofList gap.taken).toList = gap.taken := String.toList_ofList
    split
    · rename_i hrest
      intro t ht
      obtain rfl := List.mem_singleton.mp ht
      rw [hrest] at hfiller
      constructor
      · rw [hlead]
        exact hfiller
      · intro hend
        cases hend
    · rename_i c rest hrest
      intro t ht
      rcases List.mem_cons.mp ht with rfl | ht
      · have hkind := @lexeme_kind_ne_endOfFile braces previous c rest
        have hend : ((lexeme braces previous c rest).kind == .endOfFile) = false :=
          beq_eq_false_iff_ne.mpr hkind
        have hne : gap.rest ≠ [] := by simp [hrest]
        rw [hrest] at hfiller
        refine ⟨?_, fun _ => ?_⟩
        · rw [hlead, Token.isEnd, hend]
          exact hfiller
        · rw [hlead, hnewline hne]
          simp [Gap.newline]
      · exact ih _ _ _ _ t ht

/-- Where the text behind some tokens starts, if they start from `pos` on. -/
def endOf (pos : Nat) (ts : List Token) : Nat := (ts.getLast?.map (·.span.stop)).getD pos

/-- The trivia of a token fill the gap between it and the token before it. -/
theorem Tiled.gap {pos : Nat} {cs : List Char} {before after : List Token} {t : Token}
    (h : Tiled pos cs (before ++ t :: after)) :
    (Span.mk (endOf pos before) t.span.start).Covers pos cs t.lead.toList := by
  induction before generalizing pos cs with
  | nil =>
    obtain ⟨lead, part, rest, rfl, hlead, -, hspan, -⟩ := h.first
    refine ⟨[], part ++ rest, ?_, rfl, ?_⟩
    · rw [hlead, String.toList_ofList, List.nil_append, List.append_assoc]
    · rw [hspan, hlead, String.toList_ofList]
      rfl
  | cons u before ih =>
    obtain ⟨lead, part, rest, rfl, -, -, hspan, hend⟩ := h.first
    obtain ⟨-, hlater⟩ := hend.resolve_left fun hend => by simp at hend
    -- Behind `u` the text starts where `u` stops, and there is the end of what comes before `t`.
    have hgap := ih hlater
    have hstart : endOf pos (u :: before) = endOf u.span.stop before := by
      rw [endOf, endOf, List.getLast?_cons]
      cases before.getLast? <;> rfl
    rw [hstart]
    rw [hspan] at hgap ⊢
    exact hgap.shift

/-- The end of the file stands at the end of the text. -/
theorem Tiled.span_end {pos : Nat} {cs : List Char} {front : List Token} {e : Token}
    (h : Tiled pos cs (front ++ [e])) :
    e.span = ⟨pos + byteLength cs, pos + byteLength cs⟩ := by
  induction front generalizing pos cs with
  | nil =>
    rw [List.nil_append] at h
    cases h with
    | last _ _ _ hspan => exact hspan
    | next _ _ _ hlater => cases hlater
  | cons u front ih =>
    obtain ⟨lead, part, rest, rfl, -, -, hspan, hend⟩ := h.first
    obtain ⟨-, hlater⟩ := hend.resolve_left fun hend => by simp at hend
    have hlast := ih hlater
    rw [hlast, hspan, byteLength_append _ rest, Nat.add_assoc]

/-- Fuel beyond the length of the text changes nothing. -/
theorem scanFrom_fuel (fuel more : Nat) (braces : List Nat) (previous : Option Token) (pos : Nat)
    (cs : List Char) (h : cs.length < fuel) (hmore : cs.length < more) :
    scanFrom fuel braces previous pos cs = scanFrom more braces previous pos cs := by
  induction fuel generalizing more braces previous pos cs with
  | zero => exact absurd h (Nat.not_lt_zero _)
  | succ fuel ih =>
    obtain ⟨more, rfl⟩ := Nat.exists_eq_succ_of_ne_zero (Nat.ne_zero_of_lt hmore)
    simp only [scanFrom]
    split
    · rfl
    · rename_i c rest hrest
      have hlength := length_rest_lt hrest braces previous
      rw [ih more _ _ _ _ (by omega) (by omega)]

end

end Scanner

open Scanner

/-- The scanner comes to its end with a unit of fuel for each character and one more. Its tokens lie
one behind the other, each with a text of its own, and behind them stands the end of the file, once
and at the end of the source. Between each two of them, and around them, there are only blanks and
comments; a token is on a new line exactly if there is a line feed among these. -/
theorem tokenize_tiles (source : List Char) :
    (∀ fuel, source.length < fuel → scanFrom fuel [] none 0 source = tokenize source) ∧
    (∃ front e, (tokenize source).tokens = front ++ [e] ∧ e.kind = .endOfFile ∧
      e.span = ⟨byteLength source, byteLength source⟩ ∧ ∀ t ∈ front, t.kind ≠ .endOfFile ∧
        t.span.start < t.span.stop ∧ slice? source t.span = some t.text.toList) ∧
    (tokenize source).tokens.Pairwise (fun t u => t.span.stop ≤ u.span.start) ∧
    ∀ before t after, (tokenize source).tokens = before ++ t :: after →
      ∃ gap, slice? source ⟨endOf 0 before, t.span.start⟩ = some gap ∧ Filler t.isEnd gap ∧
        (t.isEnd = false → (t.newlineBefore = true ↔ '\n' ∈ gap)) := by
  have htiled := tiled_tokenize source
  have hordered := htiled.ordered
  refine ⟨fun fuel hfuel => ?_, ?_, hordered.1, fun before t after hsplit => ?_⟩
  · exact scanFrom_fuel _ _ _ _ _ _ hfuel (Nat.lt_succ_self _)
  · obtain ⟨front, e, htokens, hend, hfront⟩ := htiled.eq_append_end
    have hspan : e.span = ⟨byteLength source, byteLength source⟩ := by
      have hlast := (htokens ▸ htiled).span_end
      rwa [Nat.zero_add] at hlast
    refine ⟨front, e, htokens, eq_of_beq hend, hspan, fun t ht => ?_⟩
    have hmem : t ∈ (tokenize source).tokens := htokens ▸ List.mem_append_left _ ht
    obtain ⟨part, htext, hcovers⟩ := htiled.covers_of_mem hmem
    refine ⟨beq_eq_false_iff_ne.mp (hfront t ht), hordered.2 t hmem (hfront t ht), ?_⟩
    rw [htext, String.toList_ofList]
    exact hcovers.slice?
  · have hgap := (hsplit ▸ htiled).gap
    have hmem : t ∈ (tokenize source).tokens := by simp [hsplit]
    have hled := led_of_mem_scanFrom _ _ _ _ _ t hmem
    exact ⟨t.lead.toList, hgap.slice?, hled.filler, hled.newline⟩

end Subscriptions
