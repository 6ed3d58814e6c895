import Subscriptions.Proofs.Syntax.Scanning
import Subscriptions.Text.Trim

namespace Subscriptions

/-- What the grammar sees of a token. -/
structure Piece where
  kind : TokenKind
  text : String
  newlineBefore : Bool
deriving Repr, DecidableEq, Inhabited

namespace Piece

def word (w : String) : Piece := ⟨.word, w, false⟩

def punct (p : String) : Piece := ⟨.punct, p, false⟩

def templateHead (cs : List Char) : Piece :=
  ⟨.templateHead, String.ofList ('\x60' :: (cs ++ ['$', '{'])), false⟩

def templateMiddle (cs : List Char) : Piece :=
  ⟨.templateMiddle, String.ofList ('}' :: (cs ++ ['$', '{'])), false⟩

def templateTail (cs : List Char) : Piece :=
  ⟨.templateTail, String.ofList ('}' :: (cs ++ ['\x60'])), false⟩

def led (ps : List Piece) : List Char := ps.flatMap fun p => ' ' :: p.text.toList

/-- The text of the pieces, with one blank between each two. -/
def spaced : List Piece → List Char
  | [] => []
  | p :: ps => p.text.toList ++ led ps

end Piece

def Token.piece (t : Token) : Piece := ⟨t.kind, t.text, t.newlineBefore⟩

namespace Scanner

open Text Piece

/-- The text is empty, or starts with a blank or a semicolon. -/
def Apart (cs : List Char) : Prop := cs = [] ∨ ∃ ds, cs = ' ' :: ds ∨ cs = ';' :: ds

theorem apart_led (ps : List Piece) : Apart (led ps) := by
  cases ps with
  | nil => exact .inl rfl
  | cons p ps => exact .inr ⟨_, .inl rfl⟩

variable {b b' b'' : List Nat} {p : Piece} {ps qs : List Piece} {c : Char} {cs rest : List Char}

/-- What stands apart is no part of a class without the blank and the semicolon. -/
theorem Apart.head {q : Char → Bool} (h : Apart rest) (hq : [' ', ';'].all (! q ·) = true) :
    ∀ d ∈ rest.head?, q d = false := by
  simp only [List.all_cons, List.all_nil, Bool.and_true, Bool.and_eq_true, Bool.not_eq_true'] at hq
  rcases h with rfl | ⟨ds, rfl | rfl⟩
  · simp
  · simpa using hq.1
  · simpa using hq.2

theorem takeWhile_append_stop {α : Type} {q : α → Bool} {cs rest : List α}
    (hcs : cs.all q = true) (hrest : ∀ d ∈ rest.head?, q d = false) : (cs ++ rest).takeWhile q = cs := by
  rw [List.takeWhile_append_of_pos (List.all_eq_true.mp hcs)]
  cases rest with
  | nil => simp
  | cons d ds => simp [hrest d rfl]

theorem dropWhile_append_stop {α : Type} {q : α → Bool} {cs rest : List α}
    (hcs : cs.all q = true) (hrest : ∀ d ∈ rest.head?, q d = false) : (cs ++ rest).dropWhile q = rest := by
  rw [List.dropWhile_append_of_pos (List.all_eq_true.mp hcs)]
  cases rest with
  | nil => simp
  | cons d ds => simp [hrest d rfl]

/-- A piece that stands apart is scanned as it is, and takes the open braces from `b` to `b'`. -/
def Scans (b : List Nat) (p : Piece) (b' : List Nat) : Prop :=
  ∃ c cs, p.text.toList = c :: cs ∧ isBlank c = false ∧ c ≠ '/' ∧ p.kind ≠ .endOfFile ∧
    p.newlineBefore = false ∧ ∀ previous rest, Apart rest →
      lexeme b previous c (cs ++ rest) = ⟨p.kind, c :: cs, rest, b', none⟩

/-- All pieces are scanned as they are, one after another. -/
inductive Spelled : List Nat → List Piece → List Nat → Prop
  | nil (b : List Nat) : Spelled b [] b
  | cons {b b' b'' : List Nat} {p : Piece} {ps : List Piece} :
    Scans b p b' → Spelled b' ps b'' → Spelled b (p :: ps) b''

theorem Spelled.append (h : Spelled b ps b') (h' : Spelled b' qs b'') : Spelled b (ps ++ qs) b'' := by
  induction h with
  | nil => exact h'
  | cons hp _ ih => exact .cons hp (ih h')

theorem Spelled.single (h : Scans b p b') : Spelled b [p] b' := .cons h (.nil b')

/-- The scanner at a token without a fault, behind blanks. -/
theorem scanFrom_lexeme {previous : Option Token} {kind : TokenKind} {lead taken : List Char}
    (hlead : lead.all isBlank = true) (hline : lead.contains '\n' = false)
    (hsolid : Solid (c :: cs)) (hlex : lexeme b previous c cs = ⟨kind, taken, rest, b', none⟩)
    (fuel pos : Nat) : ∃ t : Token, t.lead = String.ofList lead ∧
      t.piece = ⟨kind, String.ofList taken, false⟩ ∧
      t.span.stop = pos + byteLength lead + byteLength taken ∧
      scanFrom (fuel + 1) b previous pos (lead ++ c :: cs) =
        let later := scanFrom fuel b' (some t) t.span.stop rest
        ⟨t :: later.tokens, later.faults⟩ := by
  have hgap := skipTrivia_blanks pos hlead hsolid
  rw [hline] at hgap
  rw [scanFrom, hgap]
  dsimp only
  rw [hlex]
  exact ⟨_, rfl, rfl, rfl, rfl⟩

/-- The scanner at a piece, perhaps with a blank before it. -/
theorem scanFrom_piece (h : Scans b p b') (hrest : Apart rest) {lead : List Char}
    (hlead : lead = [] ∨ lead = [' ']) (fuel : Nat) (previous : Option Token) (pos : Nat) :
    ∃ t : Token, t.piece = p ∧
      scanFrom (fuel + 1) b previous pos (lead ++ (p.text.toList ++ rest)) =
        ⟨t :: (scanFrom fuel b' (some t) t.span.stop rest).tokens,
          (scanFrom fuel b' (some t) t.span.stop rest).faults⟩ := by
  obtain ⟨c, cs, htext, hblank, hslash, -, hnewline, hlex⟩ := h
  have hblanks : lead.all isBlank = true ∧ lead.contains '\n' = false := by
    rcases hlead with rfl | rfl <;> exact ⟨rfl, rfl⟩
  obtain ⟨t, -, ht, -, hscan⟩ := scanFrom_lexeme hblanks.1 hblanks.2
    (.of_not_blank hblank hslash) (hlex previous rest hrest) fuel pos
  rw [htext]
  refine ⟨t, ?_, hscan⟩
  rw [ht, ← htext, String.ofList_toList, ← hnewline]

/-- The scanner from a piece on. -/
theorem scanFrom_led (h : Spelled b ps b') (fuel : Nat) (previous : Option Token) (pos : Nat)
    (hfuel : ps.length < fuel) : ∃ ts e, scanFrom fuel b previous pos (led ps) = ⟨ts ++ [e], []⟩ ∧
      ts.map Token.piece = ps ∧ e.isEnd = true := by
  induction h generalizing fuel previous pos with
  | nil b =>
    obtain ⟨fuel, rfl⟩ := Nat.exists_eq_succ_of_ne_zero (Nat.ne_of_gt hfuel)
    exact ⟨[], _, rfl, rfl, rfl⟩
  | @cons b b' b'' p ps hp _ ih =>
    obtain ⟨fuel, rfl⟩ := Nat.exists_eq_succ_of_ne_zero (Nat.ne_zero_of_lt hfuel)
    obtain ⟨t, ht, hscan⟩ := scanFrom_piece hp (apart_led ps) (.inr rfl) fuel previous pos
    obtain ⟨ts, e, hlater, hts, he⟩ :=
      ih fuel (some t) t.span.stop (Nat.lt_of_succ_lt_succ hfuel)
    refine ⟨t :: ts, e, ?_, ?_, he⟩
    · change scanFrom (fuel + 1) b previous pos ([' '] ++ (p.text.toList ++ led ps)) = _
      rw [hscan, hlater]
      rfl
    · rw [List.map_cons, ht, hts]

theorem Spelled.length_le (h : Spelled b ps b') : ps.length ≤ (led ps).length := by
  induction h with
  | nil => exact Nat.le_refl 0
  | cons _ _ ih =>
    simp only [led, List.flatMap_cons, List.length_append, List.length_cons] at ih ⊢
    omega

theorem Spelled.kind_ne (h : Spelled b ps b') : ∀ q ∈ ps, q.kind ≠ .endOfFile := by
  induction h with
  | nil => simp
  | cons hp _ ih =>
    obtain ⟨_, _, -, -, -, hkind, -⟩ := hp
    simpa using ⟨hkind, ih⟩

end Scanner

open Scanner Piece

/-- The tokens of a spaced text are the pieces that were written, and the end. -/
theorem tokenize_spaced {ps : List Piece} {b : List Nat} (h : Spelled [] ps b) :
    ∃ ts e, tokenize (spaced ps) = ⟨ts ++ [e], []⟩ ∧ ts.map Token.piece = ps ∧
      e.isEnd = true ∧ ∀ t ∈ ts, t.isEnd = false := by
  have hall : ∃ ts e, tokenize (spaced ps) = ⟨ts ++ [e], []⟩ ∧ ts.map Token.piece = ps ∧
      e.isEnd = true := by
    cases h with
    | nil => exact ⟨[], _, rfl, rfl, rfl⟩
    | @cons _ b' _ p ps hp hps =>
      have hlength := hps.length_le
      have hfuel : ps.length < (spaced (p :: ps)).length := by
        obtain ⟨c, cs, htext, -⟩ := hp
        simp only [spaced, htext, List.length_append, List.length_cons]
        omega
      obtain ⟨t, ht, hscan⟩ :=
        scanFrom_piece hp (apart_led ps) (.inl rfl) (spaced (p :: ps)).length none 0
      obtain ⟨ts, e, hlater, hts, he⟩ := scanFrom_led hps _ (some t) t.span.stop hfuel
      refine ⟨t :: ts, e, ?_, ?_, he⟩
      · change scanFrom _ _ _ _ ([] ++ (p.text.toList ++ led ps)) = _
        rw [hscan, hlater]
        rfl
      · rw [List.map_cons, ht, hts]
  obtain ⟨ts, e, htokens, hts, he⟩ := hall
  refine ⟨ts, e, htokens, hts, he, fun t ht => ?_⟩
  have hkind := h.kind_ne t.piece (hts ▸ List.mem_map_of_mem ht)
  exact beq_eq_false_iff_ne.mpr hkind

namespace Scanner

open Text Piece

variable {b : List Nat} {c : Char} {cs : List Char}

def blankCodes : List Nat :=
  List.range' 9 5 ++ [0x20, 0x85, 0xA0, 0x1680] ++ List.range' 0x2000 11 ++
    [0x2028, 0x2029, 0x202F, 0x205F, 0x3000]

theorem toNat_mem_blankCodes (h : isBlank c = true) : c.toNat ∈ blankCodes := by
  simp only [isBlank, Bool.or_eq_true, Bool.and_eq_true, decide_eq_true_eq, beq_iff_eq] at h
  simpa only [blankCodes, List.mem_append, List.mem_range'_1, Nat.reduceAdd, Nat.lt_succ_iff,
    List.mem_cons, List.not_mem_nil, or_false, or_assoc] using h

/-- A class without the blanks holds none. -/
theorem isBlank_of_class {q : Char → Bool} (hnone : ∀ n ∈ blankCodes, q (Char.ofNat n) = false)
    (h : q c = true) : isBlank c = false := by
  rw [Bool.eq_false_iff]
  intro hc
  have hclass := hnone c.toNat (toNat_mem_blankCodes hc)
  rw [Char.ofNat_toNat, h] at hclass
  cases hclass

theorem isBlank_of_isWordPart (h : isWordPart c = true) : isBlank c = false :=
  isBlank_of_class (by decide +kernel) h

theorem isBlank_of_isNumberPart (h : isNumberPart c = true) : isBlank c = false :=
  isBlank_of_class (by decide) h

theorem isWordPart_of_isWordStart (h : isWordStart c = true) : isWordPart c = true := by
  rw [isWordStart, Bool.or_eq_true] at h
  rw [isWordPart, Bool.or_eq_true]
  exact h.imp_right isAlphanumeric_of_isAlphabetic

theorem isBlank_of_starts (h : (isWordStart c || c == '#') = true) : isBlank c = false := by
  rw [Bool.or_eq_true] at h
  rcases h with h | h
  · exact isBlank_of_isWordPart (isWordPart_of_isWordStart h)
  · rw [eq_of_beq h]
    decide

theorem scans_word (hc : (isWordStart c || c == '#') = true) (hcs : cs.all isWordPart = true) :
    Scans b (word (String.ofList (c :: cs))) b := by
  have hslash : c ≠ '/' := by
    rintro rfl
    exact absurd hc (by decide)
  refine ⟨c, cs, String.toList_ofList, isBlank_of_starts hc, hslash, nofun, rfl, ?_⟩
  intro previous rest hrest
  have hblank : [' ', ';'].all (!isWordPart ·) = true := by decide
  unfold lexeme
  rw [if_pos hc, takeWhile_append_stop hcs (hrest.head hblank),
    dropWhile_append_stop hcs (hrest.head hblank)]
  rfl

theorem digit_start (hc : c.isDigit = true) : (isWordStart c || c == '#') = false ∧
    isBlank c = false ∧ c ≠ '/' ∧ c ≠ '.' := by
  have hten : ∀ n < 58, 48 ≤ n → (isWordStart (Char.ofNat n) || Char.ofNat n == '#') = false ∧
      isBlank (Char.ofNat n) = false ∧ Char.ofNat n ≠ '/' ∧ Char.ofNat n ≠ '.' := by decide
  simp only [Char.isDigit, Bool.and_eq_true, decide_eq_true_eq, ge_iff_le,
    UInt32.le_iff_toNat_le] at hc
  obtain ⟨hlow, hhigh⟩ := hc
  have hdigit := hten c.toNat (Nat.lt_succ_of_le hhigh) hlow
  rwa [Char.ofNat_toNat] at hdigit

theorem startsNumber_of_ne (hc : c ≠ '.') : startsNumber (c :: cs) = c.isDigit := by
  rw [startsNumber]
  intro d _ heq
  exact absurd heq hc

theorem isNumberPart_of_isDigit (hc : c.isDigit = true) : isNumberPart c = true := by
  simp [isNumberPart, isAsciiAlphanumeric, Char.isAlphanum, hc]

theorem scans_number (hc : c.isDigit = true) (hcs : cs.all Char.isDigit = true) :
    Scans b ⟨.number, String.ofList (c :: cs), false⟩ b := by
  obtain ⟨hword, hnotBlank, hslash, hdot⟩ := digit_start hc
  refine ⟨c, cs, String.toList_ofList, hnotBlank, hslash, nofun, rfl, ?_⟩
  intro previous rest hrest
  have hblank : [' ', ';'].all (!isNumberPart ·) = true := by decide
  have hparts : cs.all isNumberPart = true := by
    refine List.all_eq_true.mpr fun d hd => ?_
    exact isNumberPart_of_isDigit (List.all_eq_true.mp hcs d hd)
  have hstarts : startsNumber (c :: (cs ++ rest)) = true := by
    rw [startsNumber_of_ne hdot]
    exact hc
  unfold lexeme
  rw [hword, if_neg Bool.false_ne_true, if_pos hstarts,
    takeWhile_append_stop hparts (hrest.head hblank),
    dropWhile_append_stop hparts (hrest.head hblank)]

/-- Letters and digits in a template stand for themselves. -/
theorem cutTemplate_letters (hcs : cs.all isAlphanumeric = true) (rest : List Char) :
    cutTemplate (cs ++ rest) =
      ⟨cs ++ (cutTemplate rest).taken, (cutTemplate rest).rest, (cutTemplate rest).ending⟩ := by
  induction cs with
  | nil => rfl
  | cons d ds ih =>
    rw [List.all_cons, Bool.and_eq_true] at hcs
    obtain ⟨hd, hds⟩ := hcs
    have hbackslash : d ≠ '\\' := by
      rintro rfl
      exact absurd hd (by decide)
    have hdollar : d ≠ '$' := by
      rintro rfl
      exact absurd hd (by decide)
    have hquote : d ≠ '\x60' := by
      rintro rfl
      exact absurd hd (by decide)
    have hstep : cutTemplate (d :: (ds ++ rest)) = (cutTemplate (ds ++ rest)).push d := by
      simp [cutTemplate, hbackslash, hdollar, hquote]
    rw [List.cons_append, hstep, ih hds]
    rfl

theorem cutTemplate_substitution (hcs : cs.all isAlphanumeric = true) (rest : List Char) :
    cutTemplate (cs ++ ['$', '{'] ++ rest) = ⟨cs ++ ['$', '{'], rest, .substitution⟩ := by
  rw [List.append_assoc, cutTemplate_letters hcs]
  simp [cutTemplate]

theorem cutTemplate_closed (hcs : cs.all isAlphanumeric = true) (rest : List Char) :
    cutTemplate (cs ++ ['\x60'] ++ rest) = ⟨cs ++ ['\x60'], rest, .closed⟩ := by
  rw [List.append_assoc, cutTemplate_letters hcs]
  simp [cutTemplate]

theorem scans_templateHead (hcs : cs.all isAlphanumeric = true) :
    Scans b (templateHead cs) (0 :: b) := by
  refine ⟨_, _, String.toList_ofList, by decide, by decide, nofun, rfl, ?_⟩
  intro previous rest _
  have hlex : lexeme b previous '\x60' (cs ++ ['$', '{'] ++ rest) =
      templateLexeme b '\x60' (cs ++ ['$', '{'] ++ rest) := rfl
  rw [hlex, templateLexeme, cutTemplate_substitution hcs]
  rfl

theorem scans_templateMiddle (hcs : cs.all isAlphanumeric = true) :
    Scans (0 :: b) (templateMiddle cs) (0 :: b) := by
  refine ⟨_, _, String.toList_ofList, by decide, by decide, nofun, rfl, ?_⟩
  intro previous rest _
  have hlex : lexeme (0 :: b) previous '}' (cs ++ ['$', '{'] ++ rest) =
      templateRestLexeme b '}' (cs ++ ['$', '{'] ++ rest) := rfl
  rw [hlex, templateRestLexeme, cutTemplate_substitution hcs]
  rfl

theorem scans_templateTail (hcs : cs.all isAlphanumeric = true) :
    Scans (0 :: b) (templateTail cs) b := by
  refine ⟨_, _, String.toList_ofList, by decide, by decide, nofun, rfl, ?_⟩
  intro previous rest _
  have hlex : lexeme (0 :: b) previous '}' (cs ++ ['\x60'] ++ rest) =
      templateRestLexeme b '}' (cs ++ ['\x60'] ++ rest) := rfl
  rw [hlex, templateRestLexeme, cutTemplate_closed hcs]
  rfl

def plainPuncts : List String := ["(", ")", "[", "]", ",", ";", ":", "=", "=>", ".", "?"]

theorem scans_punct {p : String} (hp : p ∈ plainPuncts) : Scans b (punct p) b := by
  simp only [plainPuncts, List.mem_cons, List.not_mem_nil, or_false] at hp
  rcases hp with rfl | rfl | rfl | rfl | rfl | rfl | rfl | rfl | rfl | rfl | rfl
  all_goals
    refine ⟨_, _, rfl, by decide, by decide, nofun, rfl, ?_⟩
    intro previous rest hrest
    rcases hrest with rfl | ⟨ds, rfl | rfl⟩ <;> rfl

theorem scans_openBrace : Scans b (punct "\x7b") (openBrace b) := by
  refine ⟨_, _, rfl, by decide, by decide, nofun, rfl, ?_⟩
  intro previous rest hrest
  rcases hrest with rfl | ⟨ds, rfl | rfl⟩ <;> rfl

/-- A brace that closes one of the same substitution. -/
theorem scans_closeBrace : Scans (openBrace b) (punct "\x7d") b := by
  refine ⟨_, _, rfl, by decide, by decide, nofun, rfl, ?_⟩
  intro previous rest hrest
  cases b with
  | nil => rcases hrest with rfl | ⟨ds, rfl | rfl⟩ <;> rfl
  | cons n ns => rcases hrest with rfl | ⟨ds, rfl | rfl⟩ <;> rfl

end Scanner

end Subscriptions
