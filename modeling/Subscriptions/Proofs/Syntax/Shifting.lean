import Mathlib.Tactic.SplitIfs
import Subscriptions.Proofs.Syntax.Placing
import Subscriptions.Proofs.Syntax.Respacing
import Subscriptions.Proofs.Syntax.Touching
import Subscriptions.Syntax.Node

namespace Subscriptions

def Span.moved (k : Nat) (s : Span) : Span := ⟨s.start + k, s.stop + k⟩

def Name.moved (k : Nat) (n : Name) : Name := { n with span := n.span.moved k }

def Token.moved (k : Nat) (t : Token) : Token := { t with span := t.span.moved k }

namespace Fault

def put (s : Span) : Fault → Fault
  | .unterminated what _ => .unterminated what s
  | .unexpectedChar c _ => .unexpectedChar c s
  | .tooDeep limit _ => .tooDeep limit s
  | .expected what found _ => .expected what found s

def moved (k : Nat) (f : Fault) : Fault := f.put (f.span.moved k)

@[simp] theorem message_put (s : Span) (f : Fault) : (f.put s).message = f.message := by
  cases f <;> rfl

end Fault

def Token.broken (lead : String) (t : Token) : Token := { t with lead := lead, newlineBefore := true }

namespace Scanner

open Text

def Gap.moved (k : Nat) : Gap → Gap
  | .blank => .blank
  | .lineComment => .lineComment
  | .blockComment start newline => .blockComment (start + k) newline

def Trivia.moved (k : Nat) (t : Trivia) : Trivia := { t with unclosed := t.unclosed.map (· + k) }

def Scan.moved (k : Nat) (s : Scan) : Scan := ⟨s.tokens.map (Token.moved k), s.faults.map (Fault.moved k)⟩

theorem Scan.moved_zero (s : Scan) : s.moved 0 = s := by
  have htokens : s.tokens.map (Token.moved 0) = s.tokens := List.map_id'' (fun _ => rfl) _
  have hfaults : s.faults.map (Fault.moved 0) = s.faults :=
    List.map_id'' (fun f => by cases f <;> rfl) _
  rw [moved, htokens, hfaults]

theorem skipTrivia_shifted (k : Nat) (gap : Gap) (pos : Nat) (cs : List Char) :
    skipTrivia (gap.moved k) (pos + k) cs = (skipTrivia gap pos cs).moved k := by
  fun_induction skipTrivia gap pos cs with
  | case1 pos cs ih =>
    rw [Gap.moved, skipTrivia, Nat.add_right_comm]
    exact congrArg (fun t => (Trivia.push '/' t).push '/') ih
  | case2 pos cs ih =>
    rw [Gap.moved, skipTrivia, Nat.add_right_comm]
    exact congrArg (fun t => (Trivia.push '*' t).push '/') ih
  | case3 pos c cs hline hblock hfeed ih =>
    rw [Gap.moved, skipTrivia, if_pos hfeed, Nat.add_right_comm]
    · exact congrArg (fun t => (Trivia.push c t).breakLine) ih
    all_goals assumption
  | case4 pos c cs hline hblock hfeed hblank ih =>
    rw [Gap.moved, skipTrivia, if_neg hfeed, if_pos hblank, Nat.add_right_comm]
    · exact congrArg (Trivia.push c) ih
    all_goals assumption
  | case5 pos c cs hline hblock hfeed hblank =>
    rw [Gap.moved, skipTrivia, if_neg hfeed, if_neg hblank]
    · rfl
    all_goals assumption
  | case6 pos c cs hfeed ih =>
    rw [Gap.moved, skipTrivia, if_pos hfeed, Nat.add_right_comm]
    exact congrArg (fun t => (Trivia.push c t).breakLine) ih
  | case7 pos c cs hfeed ih =>
    rw [Gap.moved, skipTrivia, if_neg hfeed, Nat.add_right_comm]
    exact congrArg (Trivia.push c) ih
  | case8 start pos cs t ih =>
    rw [Gap.moved, skipTrivia, Nat.add_right_comm]
    exact congrArg (fun t => ((Trivia.push '/' t).push '*').breakLine) ih
  | case9 start newline pos cs t hnewline ih =>
    rw [Gap.moved, skipTrivia, if_neg hnewline, Nat.add_right_comm]
    exact congrArg (fun t => (Trivia.push '/' t).push '*') ih
  | case10 start newline pos c cs hend ih =>
    rw [Gap.moved, skipTrivia, Nat.add_right_comm]
    · exact congrArg (Trivia.push c) ih
    all_goals assumption
  | case11 start newline pos => rfl
  | case12 gap pos hgap =>
    cases gap with
    | blank | lineComment => rfl
    | blockComment start newline => exact absurd rfl (hgap start newline)

section
variable {braces : List Nat} {previous previous' : Option Token} {c : Char} {cs : List Char}

theorem lexeme_congr (h : regexAllowed previous = regexAllowed previous') :
    lexeme braces previous c cs = lexeme braces previous' c cs := by
  unfold lexeme
  rw [h]

/-- What is wrong with a token is wrong with it at any place. -/
theorem moved_of_lexeme_fault {f : Span → Fault} (k : Nat) (s : Span) :
    (lexeme braces previous c cs).fault = some f → f (s.moved k) = (f s).moved k := by
  apply lexeme_cases (P := fun l => l.fault = some f → f (s.moved k) = (f s).moved k)
  · exact fun _ h => nomatch h
  · exact fun h => nomatch h
  · intro kind _ braces what k h
    simp only [literalLexeme] at h
    split_ifs at h
    cases h
    rfl
  · intro braces h
    unfold punctLexeme at h
    split at h <;> cases h
    rfl

/-- A text further on, behind a token that allows for the same, is scanned as it is. -/
theorem scanFrom_shifted (fuel : Nat) (h : regexAllowed previous = regexAllowed previous')
    (k pos : Nat) : scanFrom fuel braces previous' (pos + k) cs =
      (scanFrom fuel braces previous pos cs).moved k := by
  induction fuel generalizing braces previous previous' pos cs with
  | zero => rfl
  | succ fuel ih =>
    have hgap : skipTrivia .blank (pos + k) cs = (skipTrivia .blank pos cs).moved k :=
      skipTrivia_shifted k .blank pos cs
    rw [scanFrom, scanFrom, hgap]
    generalize skipTrivia .blank pos cs = gap
    obtain ⟨taken, rest, newline, unclosed⟩ := gap
    dsimp only [Trivia.moved]
    have hstart : pos + k + byteLength taken = pos + byteLength taken + k := by omega
    have hopen : (unclosed.map (· + k)).toList.map (fun a => Fault.unterminated .blockComment
          ⟨a, pos + k + byteLength taken⟩) = (unclosed.toList.map fun a =>
        Fault.unterminated .blockComment ⟨a, pos + byteLength taken⟩).map (Fault.moved k) := by
      rw [hstart]
      cases unclosed <;> rfl
    rw [hopen, hstart]
    cases rest with
    | nil => rfl
    | cons c rest =>
      dsimp only
      rw [← lexeme_congr h]
      generalize pos + byteLength taken = start
      have hmoved := fun f => @moved_of_lexeme_fault braces previous c rest f k
      generalize lexeme braces previous c rest = l at hmoved
      have hstop : start + k + byteLength l.taken = start + byteLength l.taken + k :=
        Nat.add_right_comm _ _ _
      rw [hstop]
      generalize start + byteLength l.taken = stop
      have hfault : l.fault.map (· ⟨start + k, stop + k⟩) =
          (l.fault.map (· ⟨start, stop⟩)).map (Fault.moved k) := by
        cases hf : l.fault with
        | none => rfl
        | some f => exact congrArg some (hmoved f ⟨start, stop⟩ hf)
      have hlater (span span' : Span) := @ih l.braces
        (some ⟨l.kind, String.ofList taken, String.ofList l.taken, span, newline⟩)
        (some ⟨l.kind, String.ofList taken, String.ofList l.taken, span', newline⟩) l.rest rfl stop
      rw [hfault, hlater ⟨start, stop⟩]
      generalize scanFrom fuel l.braces _ stop l.rest = later
      simp only [Scan.moved, List.map_cons, List.map_append]
      congr 3
      cases l.fault <;> rfl

/-- Of the token before a text only counts whether a regular expression may follow. -/
theorem scanFrom_congr (fuel : Nat) (h : regexAllowed previous = regexAllowed previous')
    (pos : Nat) : scanFrom fuel braces previous' pos cs = scanFrom fuel braces previous pos cs := by
  have hstay := @scanFrom_shifted braces previous previous' cs fuel h 0 pos
  rwa [Nat.add_zero, Scan.moved_zero] at hstay

/-- A line feed in front of a text belongs to its first token. -/
theorem scanFrom_broken (fuel pos : Nat) :
    ∃ lead, scanFrom (fuel + 1) braces previous pos ('\n' :: cs) =
      { scanFrom (fuel + 1) braces previous (pos + 1) cs with
        tokens := (scanFrom (fuel + 1) braces previous (pos + 1) cs).tokens.modifyHead
          (Token.broken lead) } := by
  have hgap : skipTrivia .blank pos ('\n' :: cs) =
      ((skipTrivia .blank (pos + 1) cs).push '\n').breakLine := by
    simp [skipTrivia]
  rw [scanFrom, scanFrom, hgap]
  generalize skipTrivia .blank (pos + 1) cs = gap
  obtain ⟨taken, rest, newline, unclosed⟩ := gap
  refine ⟨String.ofList ('\n' :: taken), ?_⟩
  have hstart : pos + byteLength ('\n' :: taken) = pos + 1 + byteLength taken := by
    rw [byteLength_cons, show '\n'.utf8Size = 1 by decide, Nat.add_assoc]
  simp only [Trivia.push, Trivia.breakLine, hstart]
  cases rest with
  | nil => rfl
  | cons c rest =>
    dsimp only
    generalize lexeme braces previous c rest = l
    generalize pos + 1 + byteLength taken = start
    have hlater (lead : String) (newline' : Bool) := @scanFrom_congr l.braces
      (some ⟨l.kind, String.ofList taken, String.ofList l.taken,
        ⟨start, start + byteLength l.taken⟩, newline⟩)
      (some ⟨l.kind, lead, String.ofList l.taken, ⟨start, start + byteLength l.taken⟩, newline'⟩)
      l.rest fuel rfl (start + byteLength l.taken)
    rw [hlater]
    rfl

end

end Scanner

namespace Scanner

open Ink

section
variable {braces : List Nat} {previous previous' : Option Token} {cs : List Char}

/-- Scans that differ at most in places. -/
structure Scan.Same (s t : Scan) : Prop where
  tokens : s.tokens.map Token.ink = t.tokens.map Token.ink
  messages : s.faults.map Fault.message = t.faults.map Fault.message

theorem Scan.same_moved (s : Scan) (k : Nat) : (s.moved k).Same s := by
  constructor
  · rw [moved, List.map_map]
    rfl
  · rw [moved, List.map_map]
    exact List.map_congr_left fun f _ => f.message_put _

theorem scanFrom_moved (fuel : Nat) (h : regexAllowed previous = regexAllowed previous')
    (pos pos' : Nat) : (scanFrom fuel braces previous pos cs).Same
      (scanFrom fuel braces previous' pos' cs) := by
  have hfirst := @scanFrom_shifted braces previous previous cs fuel rfl pos 0
  have hsecond := @scanFrom_shifted braces previous previous' cs fuel h pos' 0
  rw [Nat.zero_add] at hfirst hsecond
  rw [hfirst, hsecond]
  generalize scanFrom fuel braces previous 0 cs = s
  exact ⟨(s.same_moved pos).tokens.trans (s.same_moved pos').tokens.symm,
    (s.same_moved pos).messages.trans (s.same_moved pos').messages.symm⟩

end

end Scanner

open Scanner Ink

/-- Behind a semicolon a regular expression may stand, as at the start. -/
theorem regexAllowed_semicolon {ts : List Token} {is : List Ink} (hts : ts.map Token.ink = is)
    (hlast : is.getLast?.map Ink.piece = some (.punct ";")) :
    regexAllowed ts.getLast? = regexAllowed none := by
  rw [← hts, List.getLast?_map, Option.map_map, Option.map_eq_some_iff] at hlast
  obtain ⟨t, ht, hpiece⟩ := hlast
  have hkind : t.kind = .punct := congrArg Piece.kind hpiece
  have htext : t.text = ";" := congrArg Piece.text hpiece
  rw [ht]
  simp [regexAllowed, hkind, htext]

section
variable {is : List Ink} {rest : List Char}

/-- Behind tokens that end with a semicolon a text is scanned as it is by itself. -/
theorem tokenize_behind (h : Written [] is [] rest)
    (hlast : is.getLast?.map Ink.piece = some (.punct ";")) :
    ∃ (ts : List Token) (later : Scan), ts.map Token.ink = is ∧ (∀ t ∈ ts, t.isEnd = false) ∧
      tokenize (chars is ++ rest) = ⟨ts ++ later.tokens, later.faults⟩ ∧
      later.Same (tokenize rest) := by
  obtain ⟨ts, hts, hnone, htokens⟩ := tokenize_written h
  exact ⟨ts, _, hts, hnone, htokens, scanFrom_moved _ (regexAllowed_semicolon hts hlast) _ _⟩

/-- In the line behind them it is the same scan but for the trivia before its first token, further
on by what comes before it. -/
theorem tokenize_nextLine (h : Written [] is [] ('\n' :: rest))
    (hlast : is.getLast?.map Ink.piece = some (.punct ";")) :
    ∃ (ts : List Token) (lead : String), ts.map Token.ink = is ∧ (∀ t ∈ ts, t.isEnd = false) ∧
      tokenize (chars is ++ '\n' :: rest) =
        let later := (tokenize rest).moved (byteLength (chars is) + 1)
        ⟨ts ++ later.tokens.modifyHead (Token.broken lead), later.faults⟩ := by
  obtain ⟨ts, hts, hnone, htokens⟩ := tokenize_written h
  obtain ⟨lead, hbroken⟩ :=
    @scanFrom_broken [] ts.getLast? rest (rest.length + 1) (byteLength (chars is))
  have hshifted := @scanFrom_shifted [] none ts.getLast? rest (rest.length + 1)
    (regexAllowed_semicolon hts hlast).symm (byteLength (chars is) + 1) 0
  rw [Nat.zero_add] at hshifted
  refine ⟨ts, lead, hts, hnone, ?_⟩
  rw [htokens, List.length_cons, hbroken,
    scanFrom_fuel _ (rest.length + 1) _ _ _ _ (by omega) (by omega), hshifted]
  rfl

end

end Subscriptions
