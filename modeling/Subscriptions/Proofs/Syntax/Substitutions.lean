import Mathlib.Data.List.Basic
import Subscriptions.Proofs.Syntax.Placing

namespace Subscriptions

/-- Open substitutions, innermost first, each with its count of open braces. -/
abbrev Counters := List Int

namespace Counters

/-- Adds to the innermost count, if a substitution is open. -/
def add (n : Int) : Counters → Counters
  | [] => []
  | k :: ks => (k + n) :: ks

/-- The counters behind a token. The end of a substitution fits only where no brace is open. -/
def step (counters : Counters) (t : Token) : Option Counters :=
  match t.kind with
  | .templateHead => some (0 :: counters)
  | .templateMiddle => if counters.head? = some 0 then some counters else none
  | .templateTail => if counters.head? = some 0 then some counters.tail else none
  | .punct =>
    if t.text = "\x7b" then some (counters.add 1)
    else if t.text = "\x7d" then some (counters.add (-1))
    else some counters
  | .word | .number | .string | .template | .regex | .endOfFile => some counters

def run (counters : Counters) (ts : List Token) : Option Counters := ts.foldlM step counters

variable {counters : Counters} {t : Token} {ts us : List Token}

theorem run_append : run counters (ts ++ us) = (run counters ts).bind fun later => run later us :=
  List.foldlM_append

@[simp] theorem run_singleton : run counters [t] = step counters t := List.foldlM_cons.trans <| by
  cases step counters t <;> rfl

/-- The counts of the scanner. -/
def ofBraces (braces : List Nat) : Counters := braces.map Int.ofNat

theorem ofBraces_nonneg {braces : List Nat} {n : Int} (h : n ∈ ofBraces braces) : 0 ≤ n := by
  obtain ⟨k, -, rfl⟩ := List.mem_map.mp h
  exact Int.natCast_nonneg k

end Counters

namespace Scanner

/-- Where the scanner stands between two tokens. -/
structure Place where
  braces : List Nat
  previous : Option Token
  pos : Nat
  text : List Char

/-- The next token and the place behind it, if the text does not end before. -/
def Place.next? (p : Place) : Option (Token × Place) :=
  let gap := skipTrivia .blank p.pos p.text
  match gap.rest with
  | [] => none
  | c :: rest =>
    let l := lexeme p.braces p.previous c rest
    let start := p.pos + byteLength gap.taken
    let span : Span := ⟨start, start + byteLength l.taken⟩
    let token : Token :=
      ⟨l.kind, String.ofList gap.taken, String.ofList l.taken, span, gap.newline⟩
    some (token, ⟨l.braces, some token, span.stop, l.rest⟩)

def Place.tokens (p : Place) (fuel : Nat) : List Token :=
  (scanFrom fuel p.braces p.previous p.pos p.text).tokens

/-- The scanner of a source comes to the place behind these tokens. -/
inductive Comes (source : List Char) : List Token → Place → Prop
  | start : Comes source [] ⟨[], none, 0, source⟩
  | next {before : List Token} {p q : Place} {t : Token} (hcomes : Comes source before p)
    (hnext : p.next? = some (t, q)) : Comes source (before ++ [t]) q

section
variable {braces : List Nat} {previous : Option Token} {c : Char} {cs source : List Char}
  {p q : Place} {t : Token} {before after : List Token} {fuel : Nat}

theorem taken_punctLexeme : ∃ more, (punctLexeme braces c cs).taken = c :: more := by
  unfold punctLexeme
  split
  · rename_i taken rest hfound
    obtain ⟨hne, happend⟩ := punctuator?_append hfound
    cases taken with
    | nil => exact absurd rfl hne
    | cons d more =>
      obtain ⟨rfl, -⟩ := List.cons.inj happend
      exact ⟨more, rfl⟩
  · exact ⟨[], rfl⟩

/-- A brace is a punctuator by itself. -/
theorem taken_punctLexeme_brace (hc : c = '{' ∨ c = '}') : (punctLexeme braces c cs).taken = [c] := by
  rcases hc with rfl | rfl <;> simp [punctLexeme, punctuator?, punctuators, afterStart?]

theorem braces_punctLexeme : (punctLexeme braces c cs).braces = braces := by
  unfold punctLexeme
  split <;> rfl

def Kept (braces : List Nat) (l : Lexeme) : Prop :=
  ∀ t : Token, t.kind = l.kind → t.text = String.ofList l.taken →
    (Counters.ofBraces braces).step t = some (.ofBraces l.braces)

theorem kept_literal {kind : TokenKind} {what : Unclosed} {k : Cut}
    (hkind : kind ∈ [TokenKind.string, .template, .regex]) :
    Kept braces (literalLexeme kind braces what c k) := by
  intro t ht _
  replace ht : t.kind = kind := ht
  simp only [List.mem_cons, List.not_mem_nil, or_false] at hkind
  rcases hkind with rfl | rfl | rfl <;> rw [Counters.step, ht] <;> rfl

/-- A template opens a substitution where it is cut at one. -/
theorem kept_template : Kept braces (templateLexeme braces c cs) := by
  unfold templateLexeme
  dsimp only
  split
  · intro t ht _
    replace ht : t.kind = .templateHead := ht
    rw [Counters.step, ht]
    rfl
  · exact kept_literal (by simp)

/-- A template goes on where no brace is open in the innermost substitution. -/
theorem kept_templateRest : Kept (0 :: braces) (templateRestLexeme braces c cs) := by
  unfold templateRestLexeme
  dsimp only
  split
  · intro t ht _
    replace ht : t.kind = .templateMiddle := ht
    rw [Counters.step, ht]
    rfl
  · intro t ht _
    replace ht : t.kind = .templateTail := ht
    rw [Counters.step, ht]
    rfl

theorem kept_openBrace : Kept braces (punctLexeme (openBrace braces) '{' cs) := by
  intro t ht htext
  rw [kind_punctLexeme] at ht
  rw [taken_punctLexeme_brace (.inl rfl)] at htext
  rw [Counters.step, ht, braces_punctLexeme]
  dsimp only
  rw [if_pos htext]
  cases braces <;> rfl

/-- Where a substitution is open, a brace that does not end it is open too, and is closed. -/
theorem kept_closeBrace (hbraces : braces.head? ≠ some 0) :
    Kept braces (punctLexeme (closeBrace braces) '}' cs) := by
  intro t ht htext
  rw [kind_punctLexeme] at ht
  rw [taken_punctLexeme_brace (.inr rfl)] at htext
  have hopen : t.text ≠ "\x7b" := by
    rw [htext]
    decide
  rw [Counters.step, ht, braces_punctLexeme]
  dsimp only
  rw [if_neg hopen, if_pos htext]
  match braces, hbraces with
  | [], _ => rfl
  | 0 :: _, hbraces => exact absurd rfl hbraces
  | (n + 1) :: ns, _ =>
    have hcount : Int.ofNat (n + 1) + -1 = Int.ofNat n := by
      rw [Int.ofNat_eq_natCast, Int.ofNat_eq_natCast]
      omega
    change some ((Int.ofNat (n + 1) + -1) :: ns.map Int.ofNat) = some (Int.ofNat n :: _)
    rw [hcount]

theorem kept_punct (hopen : c ≠ '{') (hclose : c ≠ '}') : Kept braces (punctLexeme braces c cs) := by
  intro t ht htext
  obtain ⟨more, hmore⟩ := @taken_punctLexeme braces c cs
  rw [kind_punctLexeme] at ht
  rw [hmore] at htext
  have hbrace : ∀ d, c ≠ d → t.text ≠ String.ofList [d] := by
    intro d hd htoken
    rw [htext] at htoken
    exact hd (List.cons.inj (String.ofList_injective htoken)).1
  rw [Counters.step, ht, braces_punctLexeme]
  dsimp only
  rw [if_neg (hbrace '{' hopen), if_neg (hbrace '}' hclose)]

theorem kept_lexeme : Kept braces (lexeme braces previous c cs) := by
  unfold lexeme
  split_ifs with hword hnumber hquote htemplate hopen hclose hslash
  · intro t ht _
    rw [Counters.step, ht]
  · intro t ht _
    rw [Counters.step, ht]
  · exact kept_literal (by simp)
  · exact kept_template
  · rw [eq_of_beq hopen]
    exact kept_openBrace
  · rw [eq_of_beq hclose]
    split
    · exact kept_templateRest
    · rename_i hbraces
      refine kept_closeBrace fun hzero => ?_
      obtain ⟨outer, rfl⟩ := List.head?_eq_some_iff.mp hzero
      exact hbraces outer rfl
  · exact kept_literal (by simp)
  · exact kept_punct (ne_of_beq_false (Bool.eq_false_iff.mpr hopen))
      (ne_of_beq_false (Bool.eq_false_iff.mpr hclose))

/-- The counters take the next token as the scanner does. -/
theorem step_of_next? (h : p.next? = some (t, q)) :
    (Counters.ofBraces p.braces).step t = some (.ofBraces q.braces) := by
  unfold Place.next? at h
  dsimp only at h
  split at h
  · cases h
  · cases h
    exact kept_lexeme _ rfl rfl

theorem tokens_of_next? (h : p.next? = some (t, q)) : p.tokens (fuel + 1) = t :: q.tokens fuel := by
  unfold Place.next? at h
  dsimp only at h
  split at h
  · cases h
  · rename_i hrest
    cases h
    simp only [Place.tokens, scanFrom, hrest]

theorem tokens_of_next?_eq_none (fuel : Nat) (h : p.next? = none) :
    ∃ e : Token, e.kind = .endOfFile ∧ p.tokens (fuel + 1) = [e] := by
  unfold Place.next? at h
  dsimp only at h
  split at h
  · rename_i hrest
    simp only [Place.tokens, scanFrom, hrest]
    exact ⟨_, rfl, rfl⟩
  · cases h

theorem length_text_next? (h : p.next? = some (t, q)) : q.text.length < p.text.length := by
  unfold Place.next? at h
  dsimp only at h
  split at h
  · cases h
  · rename_i hrest
    cases h
    exact length_rest_lt hrest _ _

/-- Where the scanner comes to, the counters come to as well. -/
theorem Comes.run (h : Comes source before p) :
    Counters.run [] before = some (.ofBraces p.braces) := by
  induction h with
  | start => rfl
  | next _ hnext ih =>
    rw [Counters.run_append, ih, Option.bind_some, Counters.run_singleton, step_of_next? hnext]

/-- From a place on every token fits the counters, and the scanner comes behind each of them but the
end of the file. -/
theorem Comes.split (h : Comes source before p) (hfuel : p.text.length < fuel)
    {ts us : List Token} (htokens : p.tokens fuel = ts ++ us) :
    ∃ q : Place, Counters.run [] (before ++ ts) = some (.ofBraces q.braces) ∧
      (us ≠ [] → Comes source (before ++ ts) q) := by
  induction fuel generalizing before p ts with
  | zero => exact absurd hfuel (Nat.not_lt_zero _)
  | succ fuel ih =>
    cases ts with
    | nil =>
      rw [List.append_nil]
      exact ⟨p, h.run, fun _ => h⟩
    | cons t ts =>
      cases hnext : p.next? with
      | none =>
        obtain ⟨e, hend, hlast⟩ := tokens_of_next?_eq_none fuel hnext
        rw [hlast, List.cons_append] at htokens
        obtain ⟨rfl, hnil⟩ := List.cons.inj htokens
        obtain ⟨rfl, rfl⟩ := List.append_eq_nil_iff.mp hnil.symm
        refine ⟨p, ?_, fun hus => absurd rfl hus⟩
        rw [Counters.run_append, h.run, Option.bind_some, Counters.run_singleton, Counters.step,
          hend]
      | some next =>
        obtain ⟨u, q⟩ := next
        rw [tokens_of_next? hnext, List.cons_append] at htokens
        obtain ⟨rfl, hlater⟩ := List.cons.inj htokens
        have hshorter := length_text_next? hnext
        have hall := ih (h.next hnext) (by omega) hlater
        rwa [List.append_assoc] at hall

/-- A brace that closes none of the substitutions closes one that is open in the innermost. -/
theorem Place.closes (h : p.next? = some (t, q)) (ht : t.isPunct "\x7d" = true) {n : Nat}
    {ns : List Nat} (hbraces : p.braces = n :: ns) : 0 < n ∧ q.braces = (n - 1) :: ns := by
  rw [Token.isPunct, Bool.and_eq_true, beq_iff_eq, beq_iff_eq] at ht
  have hstep := step_of_next? h
  rw [hbraces, Counters.step, ht.1, ht.2] at hstep
  dsimp only at hstep
  rw [if_neg (by decide), if_pos rfl] at hstep
  have hcounts : (Int.ofNat n + -1) :: ns.map Int.ofNat = q.braces.map Int.ofNat :=
    Option.some.inj hstep
  match hlater : q.braces, hcounts with
  | k :: ks, hcounts =>
    obtain ⟨hcount, hrest⟩ := List.cons.inj hcounts
    rw [Int.ofNat_eq_natCast, Int.ofNat_eq_natCast] at hcount
    have hks : ns = ks := List.map_injective_iff.mpr (fun _ _ => Int.ofNat.inj) hrest
    refine ⟨by omega, ?_⟩
    rw [hks, show k = n - 1 by omega]

end

end Scanner

open Scanner

/-- Every token of a source fits the counters, which are never negative and count what the scanner
counts; so the scanner takes an open brace off only where there is one. -/
theorem substitutions_nest (source : List Char) :
    (∀ before after, (tokenize source).tokens = before ++ after →
      ∃ counters, Counters.run [] before = some counters ∧ (∀ n ∈ counters, 0 ≤ n) ∧
        (after ≠ [] → ∃ p, Comes source before p ∧ counters = .ofBraces p.braces)) ∧
      ∀ before p t q, Comes source before p → p.next? = some (t, q) → t.isPunct "\x7d" = true →
        ∀ n ns, p.braces = n :: ns → 0 < n ∧ q.braces = (n - 1) :: ns := by
  refine ⟨fun before after htokens => ?_, fun before p t q hcomes hnext ht n ns hbraces => ?_⟩
  · obtain ⟨p, hrun, hcomes⟩ :=
      (@Comes.start source).split (Nat.lt_succ_self _) htokens
    exact ⟨_, hrun, fun _ => Counters.ofBraces_nonneg, fun hafter => ⟨p, hcomes hafter, rfl⟩⟩
  · exact Place.closes hnext ht hbraces

end Subscriptions
