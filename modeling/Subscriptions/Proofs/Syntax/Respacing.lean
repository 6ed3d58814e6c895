import Subscriptions.Proofs.Syntax.Rescanning

namespace Subscriptions

def Token.form (t : Token) : TokenKind × String := (t.kind, t.text)

namespace Scanner

open Text

/-- The texts of tokens, each behind the blanks that it comes with, and blanks behind all of them. -/
def respaced (pieces : List (List Char × Token)) (trail : List Char) : List Char :=
  pieces.flatMap (fun p => p.1 ++ p.2.text.toList) ++ trail

section
variable {pieces : List (List Char × Token)} {trail : List Char}

/-- Blanks that may stand between tokens: none is missing but perhaps those before the first one. -/
structure Spaces (pieces : List (List Char × Token)) (trail : List Char) : Prop where
  blank : ∀ p ∈ pieces, p.1.all isBlank = true
  apart : ∀ p ∈ pieces.tail, p.1 ≠ []
  trail : trail.all isBlank = true

theorem regexAllowed_of_form {t u : Token} (h : t.form = u.form) :
    regexAllowed (some t) = regexAllowed (some u) := by
  obtain ⟨hkind, htext⟩ := Prod.mk.inj h
  rw [regexAllowed, regexAllowed, hkind, htext]

/-- Behind a token blanks come first. -/
theorem Spaces.clear {p : List Char × Token} (h : Spaces (p :: pieces) trail) :
    Clear (respaced pieces trail) := by
  intro c hc
  cases pieces with
  | nil => exact List.all_eq_true.mp h.trail c (List.mem_of_mem_head? hc)
  | cons q pieces =>
    obtain ⟨d, ds, hq⟩ := List.exists_cons_of_ne_nil (h.apart q List.mem_cons_self)
    have hblank := List.all_eq_true.mp (h.blank q (by simp)) d (by simp [hq])
    have htext : respaced (q :: pieces) trail =
        d :: (ds ++ q.2.text.toList ++ respaced pieces trail) := by
      simp [respaced, hq]
    rw [htext] at hc
    cases hc
    exact hblank

theorem Spaces.tail {p : List Char × Token} (h : Spaces (p :: pieces) trail) :
    Spaces pieces trail where
  blank q hq := h.blank q (List.mem_cons_of_mem _ hq)
  apart q hq := h.apart q (List.mem_of_mem_tail hq)
  trail := h.trail

/-- The scanner where no token is left. -/
theorem scanFrom_last (fuel : Nat) (braces : List Nat) (previous : Option Token) {pos : Nat}
    {cs : List Char} (h : (skipTrivia .blank pos cs).rest = []) :
    (∃ e, e.form = (.endOfFile, "") ∧ (scanFrom (fuel + 1) braces previous pos cs).tokens = [e]) ∧
      ((scanFrom (fuel + 1) braces previous pos cs).faults = [] ↔
        (skipTrivia .blank pos cs).unclosed = none) := by
  simp only [scanFrom, h]
  exact ⟨⟨_, rfl, rfl⟩, by simp⟩

/-- The scanner at a token. -/
theorem scanFrom_token (fuel : Nat) (braces : List Nat) (previous : Option Token) {pos : Nat}
    {c : Char} {cs rest : List Char} {l : Lexeme} (h : (skipTrivia .blank pos cs).rest = c :: rest)
    (hl : lexeme braces previous c rest = l) :
    ∃ t stop, t.form = (l.kind, String.ofList l.taken) ∧
      (scanFrom (fuel + 1) braces previous pos cs).tokens =
        t :: (scanFrom fuel l.braces (some t) stop l.rest).tokens ∧
      ((scanFrom (fuel + 1) braces previous pos cs).faults = [] ↔
        (skipTrivia .blank pos cs).unclosed = none ∧ l.fault = none ∧
          (scanFrom fuel l.braces (some t) stop l.rest).faults = []) := by
  simp only [scanFrom, h, hl]
  exact ⟨_, _, rfl, rfl, by simp⟩

/-- The scanner at a token that has been scanned elsewhere, behind other blanks. -/
theorem scanFrom_again (more pos' : Nat) {braces : List Nat} {previous previous' : Option Token}
    {c : Char} {rest : List Char} {p : List Char × Token} (hsolid : Solid (c :: rest))
    (hfault : (lexeme braces previous c rest).fault = none)
    (hprevious : regexAllowed previous' = regexAllowed previous)
    (htext : p.2.text = String.ofList (lexeme braces previous c rest).taken)
    (hspaces : Spaces (p :: pieces) trail) :
    (respaced pieces trail).length < (respaced (p :: pieces) trail).length ∧
    ∃ t stop, t.form = ((lexeme braces previous c rest).kind, p.2.text) ∧
      (scanFrom (more + 1) braces previous' pos' (respaced (p :: pieces) trail)).tokens =
        t :: (scanFrom more (lexeme braces previous c rest).braces (some t) stop
          (respaced pieces trail)).tokens ∧
      ((scanFrom (more + 1) braces previous' pos' (respaced (p :: pieces) trail)).faults = [] ↔
        (scanFrom more (lexeme braces previous c rest).braces (some t) stop
          (respaced pieces trail)).faults = []) := by
  have hclear := hspaces.clear
  have hagain := lexeme_again hfault hprevious hclear
  have hnext := @head?_again c rest _ braces previous hclear
  obtain ⟨hne, happend⟩ := lexeme_append braces previous c rest
  obtain ⟨d, taken, htaken⟩ := List.exists_cons_of_ne_nil hne
  rw [htaken] at happend
  obtain ⟨rfl, -⟩ := List.cons.inj happend
  have htext' : respaced (p :: pieces) trail = p.1 ++ d :: (taken ++ respaced pieces trail) := by
    simp [respaced, htext, htaken]
  rw [htaken, List.tail_cons] at hagain hnext
  have hskip := skipTrivia_blanks pos' (hspaces.blank p List.mem_cons_self) (hsolid.again hnext)
  obtain ⟨t, stop, hform, htokens, hfaultless⟩ :=
    scanFrom_token more braces previous' (congrArg Trivia.rest hskip) hagain
  rw [htext']
  refine ⟨by simp only [List.length_append, List.length_cons]; omega, t, stop, ?_, htokens, ?_⟩
  · rw [hform, htext]
  · rw [hfaultless, hskip]
    simp [hfault]

/-- The scanner on a text without faults, and on its tokens with other blanks between them. -/
theorem scanFrom_respaced (fuel more : Nat) (braces : List Nat) (previous previous' : Option Token)
    (pos pos' : Nat) (cs : List Char) (hfuel : cs.length < fuel)
    (hfaults : (scanFrom fuel braces previous pos cs).faults = [])
    (hprevious : regexAllowed previous' = regexAllowed previous)
    (hpieces : pieces.map Prod.snd = (scanFrom fuel braces previous pos cs).tokens.dropLast)
    (hspaces : Spaces pieces trail) (hmore : (respaced pieces trail).length < more) :
    (scanFrom more braces previous' pos' (respaced pieces trail)).faults = [] ∧
      (scanFrom more braces previous' pos' (respaced pieces trail)).tokens.map Token.form =
        (scanFrom fuel braces previous pos cs).tokens.map Token.form := by
  induction fuel generalizing more braces previous previous' pos pos' cs pieces with
  | zero => exact absurd hfuel (Nat.not_lt_zero _)
  | succ fuel ih =>
    obtain ⟨more, rfl⟩ := Nat.exists_eq_succ_of_ne_zero (Nat.ne_zero_of_lt hmore)
    have hsolid := solid_skipTrivia .blank pos cs
    cases hrest : (skipTrivia .blank pos cs).rest with
    | nil =>
      -- Only the end of the file is left, and only the blanks at the end in the other text.
      obtain ⟨⟨e, he, htokens⟩, -⟩ :=
        scanFrom_last fuel braces previous hrest
      rw [htokens] at hpieces ⊢
      obtain rfl := List.map_eq_nil_iff.mp hpieces
      have hskip := skipTrivia_blanks pos' hspaces.trail (hrest ▸ hsolid)
      rw [List.append_nil] at hskip
      obtain ⟨⟨e', he', htokens'⟩, hfaults'⟩ :=
        scanFrom_last more braces previous' (congrArg Trivia.rest hskip)
      refine ⟨hfaults'.mpr (congrArg _ hskip), ?_⟩
      change (scanFrom (more + 1) braces previous' pos' trail).tokens.map Token.form = _
      rw [htokens', List.map_singleton, List.map_singleton, he', he]
    | cons c rest =>
      obtain ⟨t, stop, hform, htokens, hfaultless⟩ :=
        scanFrom_token fuel braces previous hrest rfl
      obtain ⟨-, hfault, hlater⟩ := hfaultless.mp hfaults
      have hlength : (lexeme braces previous c rest).rest.length < fuel :=
        Nat.lt_of_lt_of_le (length_rest_lt hrest braces previous) (Nat.le_of_lt_succ hfuel)
      obtain ⟨e, hlast, -⟩ := scanFrom_ends fuel (lexeme braces previous c rest).braces (some t) stop
        (lexeme braces previous c rest).rest hlength
      have hne := List.ne_nil_of_mem (List.mem_of_getLast? hlast)
      rw [htokens, List.dropLast_cons_of_ne_nil hne] at hpieces
      cases pieces with
      | nil => cases hpieces
      | cons p pieces =>
        -- The token is found again, and leaves the same open braces and the same question of what a
        -- slash means to the next one.
        obtain ⟨hp, hpieces⟩ := List.cons.inj hpieces
        have htext : p.2.text = String.ofList (lexeme braces previous c rest).taken := by
          rw [show p.2 = t from hp]
          exact congrArg Prod.snd hform
        obtain ⟨hshorter, t', stop', hform', htokens', hfaultless'⟩ :=
          scanFrom_again more pos' (hrest ▸ hsolid) hfault hprevious htext hspaces
        have hsame : t'.form = t.form := by rw [hform', hform, htext]
        obtain ⟨hlater', hforms⟩ := ih more _ _ _ stop stop' _ hlength hlater
          (regexAllowed_of_form hsame) hpieces hspaces.tail (by omega)
        refine ⟨hfaultless'.mpr hlater', ?_⟩
        rw [htokens', htokens, List.map_cons, List.map_cons, hsame, hforms]

end

end Scanner

open Scanner

/-- A source that is scanned without a fault, and a text of its tokens with any blanks between each
two of them, at least one, and any around them: the scanner finds the same tokens there, of the same
kinds and written the same way, and again no fault. -/
theorem tokenize_respaced {source : List Char} {pieces : List (List Char × Token)}
    {trail : List Char} (h : (tokenize source).faults = [])
    (hpieces : pieces.map Prod.snd = (tokenize source).tokens.dropLast)
    (hspaces : Spaces pieces trail) :
    (tokenize (respaced pieces trail)).faults = [] ∧
      (tokenize (respaced pieces trail)).tokens.map Token.form =
        (tokenize source).tokens.map Token.form :=
  scanFrom_respaced _ _ _ _ _ _ _ _ (Nat.lt_succ_self _) h rfl hpieces hspaces (Nat.lt_succ_self _)

/-- A template with a regular expression inside, and a division, without a blank. -/
def tightSource : List Char := "x=`a$\x7b/[/]/g\x7dc`/2".toList

/-- Its tokens with blanks of many kinds between them. -/
def loosePieces : List (List Char × Token) :=
  [[], [' '], ['\n'], ['\u00A0'], ['\t', ' '], ['\r', '\n'], ['\u3000']].zip
    (tokenize tightSource).tokens.dropLast

theorem tokenize_respaced_loose :
    ((tokenize tightSource).faults = [] ∧ Spaces loosePieces ['\n'] ∧
      respaced loosePieces ['\n'] =
        "x =\n`a$\x7b\u00A0/[/]/g\t \x7dc`\r\n/\u30002\n".toList) ∧
    (tokenize (respaced loosePieces ['\n'])).faults = [] ∧
      (tokenize (respaced loosePieces ['\n'])).tokens.map Token.form =
        (tokenize tightSource).tokens.map Token.form := by
  have hfaults : (tokenize tightSource).faults = [] := by decide
  have hspaces : Spaces loosePieces ['\n'] :=
    ⟨by decide, by decide, by decide⟩
  have htext : respaced loosePieces ['\n'] =
      "x =\n`a$\x7b\u00A0/[/]/g\t \x7dc`\r\n/\u30002\n".toList := by decide
  exact ⟨⟨hfaults, hspaces, htext⟩, tokenize_respaced hfaults (by decide) hspaces⟩

end Subscriptions
