import Subscriptions.Proofs.Syntax.Gaps
import Subscriptions.Proofs.Syntax.Rescanning
import Subscriptions.Proofs.Syntax.Spelling

namespace Subscriptions

/-- A piece with the blanks before it. -/
structure Ink where
  lead : String
  piece : Piece
deriving Repr, DecidableEq, Inhabited

def Token.ink (t : Token) : Ink := ⟨t.lead, t.piece⟩

namespace Ink

def chars (is : List Ink) : List Char := is.flatMap fun i => i.lead.toList ++ i.piece.text.toList

def behind (lead : List Char) (p : Piece) : Ink := ⟨String.ofList lead, p⟩

@[simp] theorem chars_nil : chars [] = [] := rfl

@[simp] theorem chars_cons (i : Ink) (is : List Ink) :
    chars (i :: is) = i.lead.toList ++ (i.piece.text.toList ++ chars is) := by
  simp [chars]

@[simp] theorem chars_append (is js : List Ink) : chars (is ++ js) = chars is ++ chars js :=
  List.flatMap_append

end Ink

namespace Scanner

open Text Piece Ink

variable {b b' b'' : List Nat} {p : Piece} {is js : List Ink} {c : Char} {cs rest : List Char}

/-- In front of a text a piece is scanned as it is, and takes the open braces from `b` to `b'`. -/
def ScansAt (b : List Nat) (p : Piece) (b' : List Nat) (rest : List Char) : Prop :=
  ∃ c cs, p.text.toList = c :: cs ∧ isBlank c = false ∧ c ≠ '/' ∧ p.kind ≠ .endOfFile ∧
    p.newlineBefore = false ∧
      ∀ previous, lexeme b previous c (cs ++ rest) = ⟨p.kind, c :: cs, rest, b', none⟩

theorem Scans.scansAt (h : Scans b p b') (hrest : Apart rest) : ScansAt b p b' rest := by
  obtain ⟨c, cs, htext, hblank, hslash, hkind, hnewline, hlex⟩ := h
  exact ⟨c, cs, htext, hblank, hslash, hkind, hnewline, fun previous => hlex previous rest hrest⟩

theorem scansAt_word (hc : (isWordStart c || c == '#') = true) (hcs : cs.all isWordPart = true)
    (hrest : ∀ d ∈ rest.head?, isWordPart d = false) :
    ScansAt b (word (String.ofList (c :: cs))) b rest := by
  have hslash : c ≠ '/' := by
    rintro rfl
    exact absurd hc (by decide)
  refine ⟨c, cs, String.toList_ofList, isBlank_of_starts hc, hslash, nofun, rfl, ?_⟩
  intro previous
  unfold lexeme
  rw [if_pos hc, takeWhile_append_stop hcs hrest, dropWhile_append_stop hcs hrest]
  rfl

/-- The characters with which some longer punctuator goes on. -/
def extensions (p : String) : List Char :=
  punctuators.filterMap fun q =>
    if p.toList.isPrefixOf q.toList then q.toList[p.toList.length]? else none

theorem mem_extensions {p q : String} {d : Char} {ds : List Char} (hq : q ∈ punctuators)
    (h : q.toList = p.toList ++ d :: ds) : d ∈ extensions p := by
  refine List.mem_filterMap.mpr ⟨q, hq, ?_⟩
  have hprefix : p.toList.isPrefixOf q.toList = true := by simp [h]
  rw [if_pos hprefix, h]
  simp

theorem punctuator?_self : ∀ p ∈ punctuators, punctuator? p.toList = some (p.toList, []) := by
  decide

/-- A punctuator is found where the text behind it goes on with no longer one. -/
theorem punctuator?_touching {p : String} (hp : p ∈ punctuators)
    (hrest : ∀ d ∈ rest.head?, d ∉ extensions p) :
    punctuator? (p.toList ++ rest) = some (p.toList, rest) := by
  obtain ⟨before, q, after, hsplit, hq, hnone⟩ :=
    List.findSome?_eq_some_iff.mp (punctuator?_self p hp)
  obtain ⟨tail, htail, heq⟩ := Option.map_eq_some_iff.mp hq
  obtain ⟨hqp, -⟩ := Prod.mk.inj heq
  refine List.findSome?_eq_some_iff.mpr ⟨before, q, after, hsplit, ?_, fun r hr => ?_⟩
  · rw [hqp, afterStart?_append]
    rfl
  · rw [Option.map_eq_none_iff]
    cases hfound : afterStart? r.toList (p.toList ++ rest) with
    | none => rfl
    | some beyond =>
      rcases List.append_eq_append_iff.mp (append_of_afterStart? hfound) with
        ⟨others, hpr, -⟩ | ⟨others, hrp, hbeyond⟩
      · -- one that begins `p` would have been found in `p` alone
        have hbegins := hnone r hr
        rw [hpr, afterStart?_append] at hbegins
        cases hbegins
      · cases others with
        | nil =>
          have hself := hnone r hr
          rw [hrp, List.append_nil, show afterStart? p.toList p.toList = some [] by
            simpa using @afterStart?_append [] p.toList] at hself
          cases hself
        | cons d ds =>
          have hmem : r ∈ punctuators := hsplit ▸ List.mem_append_left _ hr
          exact absurd (mem_extensions hmem hrp) (hrest d (by simp [hbeyond]))

/-- Punctuators that are met touching, those that count braces left out. -/
def touchingPuncts : List String := [
  "(", ")", "[", "]", ",", ";", ":", "=", "=>", ".", "|", "<", ">", ">>", ">>>", ">=", ">>=",
  ">>>="]

/-- The text behind a punctuator does not go on with it, nor makes a dot a number. -/
def Stops (p : String) (rest : List Char) : Prop :=
  ∀ d ∈ rest.head?, d ∉ extensions p ∧ (p = "." → d.isDigit = false)

theorem stops_of_extensions_eq_nil {p : String} (hp : extensions p = []) (hdot : p ≠ ".") :
    Stops p rest := by
  intro d _
  rw [hp]
  exact ⟨List.not_mem_nil, fun h => absurd h hdot⟩

/-- A character with which nothing but a punctuator starts. -/
def startsPunct (c : Char) : Bool :=
  !(isWordStart c || c == '#') && !c.isDigit &&
    !(['"', '\'', '\x60', '{', '}', '/'].contains c) && !isBlank c

theorem lexeme_punct (hc : startsPunct c = true)
    (hdot : c = '.' → ∀ d ∈ cs.head?, d.isDigit = false) (previous : Option Token) :
    lexeme b previous c cs = punctLexeme b c cs := by
  simp only [startsPunct, Bool.and_eq_true, Bool.not_eq_true', List.contains_eq_mem,
    decide_eq_false_iff_not, List.mem_cons, not_or, List.not_mem_nil, not_false_eq_true,
    and_true] at hc
  obtain ⟨⟨⟨hword, hdigit⟩, hquote, hapostrophe, hback, hopen, hclose, hslash⟩, -⟩ := hc
  have hnumber : startsNumber (c :: cs) = false := by
    by_cases hc : c = '.'
    · subst hc
      cases cs with
      | nil => rfl
      | cons d ds => exact hdot rfl d rfl
    · rw [startsNumber_of_ne hc, hdigit]
  simp [lexeme, hword, hnumber, hquote, hapostrophe, hback, hopen, hclose, hslash]

theorem scansAt_punct {p : String} (hp : p ∈ touchingPuncts) (hrest : Stops p rest) :
    ScansAt b (punct p) b rest := by
  have hchars : ∀ p ∈ touchingPuncts, p ∈ punctuators ∧ p.toList.head?.any startsPunct = true ∧
      (p.toList.head? = some '.' → p = ".") := by decide
  obtain ⟨hmem, hfirst, hdot⟩ := hchars p hp
  have hfound := punctuator?_touching hmem fun d hd => (hrest d hd).1
  cases htext : p.toList with
  | nil =>
    rw [htext] at hfirst
    cases hfirst
  | cons c cs =>
    rw [htext] at hfirst hdot hfound
    have hfirst : startsPunct c = true := hfirst
    have hblank : isBlank c = false := by
      simp only [startsPunct, Bool.and_eq_true, Bool.not_eq_true'] at hfirst
      exact hfirst.2
    have hslash : c ≠ '/' := by
      rintro rfl
      cases hfirst
    refine ⟨c, cs, htext, hblank, hslash, nofun, rfl, fun previous => ?_⟩
    rw [lexeme_punct hfirst ?_ previous, punctLexeme]
    · rw [← List.cons_append, hfound]
      rfl
    · rintro rfl
      have hone : p = "." := hdot rfl
      have hchars : ".".toList = '.' :: cs := hone ▸ htext
      obtain rfl : [] = cs := (List.cons.inj hchars).2
      exact fun d hd => (hrest d hd).2 hone

/-- Outside of substitutions braces are punctuators like others. -/
theorem scansAt_brace {p : String} (hp : p ∈ ["\x7b", "\x7d"]) : ScansAt [] (punct p) [] rest := by
  have hchars : ∀ p ∈ ["\x7b", "\x7d"], p ∈ punctuators ∧ extensions p = [] := by decide
  obtain ⟨hmem, hnone⟩ := hchars p hp
  have hfound : punctuator? (p.toList ++ rest) = _ := punctuator?_touching hmem fun d _ => by
    rw [hnone]
    exact List.not_mem_nil
  have hlex (c : Char) (hc : c = '{' ∨ c = '}') (previous : Option Token) :
      lexeme [] previous c rest = punctLexeme [] c rest := by
    rcases hc with rfl | rfl <;> rfl
  simp only [List.mem_cons, List.not_mem_nil, or_false] at hp
  rcases hp with rfl | rfl
  · refine ⟨'{', [], rfl, by decide, by decide, by decide, rfl, fun previous => ?_⟩
    rw [List.nil_append, hlex _ (.inl rfl), punctLexeme,
      show punctuator? ('{' :: rest) = some (['{'], rest) from hfound]
    rfl
  · refine ⟨'}', [], rfl, by decide, by decide, by decide, rfl, fun previous => ?_⟩
    rw [List.nil_append, hlex _ (.inr rfl), punctLexeme,
      show punctuator? ('}' :: rest) = some (['}'], rest) from hfound]
    rfl

/-- Inks are scanned as they are in front of a text, one after another. -/
inductive Written : List Nat → List Ink → List Nat → List Char → Prop
  | nil (b : List Nat) (rest : List Char) : Written b [] b rest
  | cons {b b' b'' : List Nat} {lead : List Char} {p : Piece} {is : List Ink} {rest : List Char} :
    lead.all isBlank = true → lead.contains '\n' = false → ScansAt b p b' (chars is ++ rest) →
      Written b' is b'' rest → Written b (behind lead p :: is) b'' rest

theorem Written.append (h : Written b is b' (chars js ++ rest)) (h' : Written b' js b'' rest) :
    Written b (is ++ js) b'' rest := by
  generalize hrest : chars js ++ rest = between at h
  induction h with
  | nil => exact h'
  | cons hblank hline hp _ ih =>
    subst hrest
    refine .cons hblank hline ?_ (ih h' rfl)
    rw [List.append_eq, chars_append, List.append_assoc]
    exact hp

/-- Pieces with a blank before each are scanned as they are, where the text behind is apart. -/
theorem Spelled.written {ps : List Piece} (h : Spelled b ps b') (hrest : Apart rest) :
    Written b (ps.map (behind [' '])) b' rest := by
  induction h with
  | nil => exact .nil _ _
  | @cons b b' b'' p ps hp _ ih =>
    refine .cons rfl rfl (hp.scansAt ?_) ih
    cases ps with
    | nil => exact hrest
    | cons q qs => exact .inr ⟨_, .inl (by simp [behind]; rfl)⟩

/-- The scanner at inks in front of a text. -/
theorem scanFrom_written (h : Written b is b' rest) (fuel : Nat) (previous : Option Token)
    (pos : Nat) : ∃ ts : List Token, ts.map Token.ink = is ∧
      scanFrom (is.length + fuel) b previous pos (chars is ++ rest) =
        let later := scanFrom fuel b' (ts.getLast?.or previous) (pos + byteLength (chars is)) rest
        ⟨ts ++ later.tokens, later.faults⟩ := by
  induction h generalizing previous pos with
  | nil => exact ⟨[], rfl, by simp⟩
  | @cons b b' b'' lead p is rest hblank hline hp _ ih =>
    obtain ⟨c, cs, htext, hsolid, hslash, -, hnewline, hlex⟩ := hp
    have hchars : chars (behind lead p :: is) ++ rest =
        lead ++ c :: (cs ++ (chars is ++ rest)) := by
      simp [behind, htext]
    obtain ⟨t, hlead, ht, hstop, hstep⟩ := scanFrom_lexeme hblank hline
      (.of_not_blank hsolid hslash) (hlex previous) (is.length + fuel) pos
    have hpiece : t.piece = p := by rw [ht, ← htext, String.ofList_toList, ← hnewline]
    obtain ⟨ts, hts, hscan⟩ := ih (some t) t.span.stop
    have hpos : pos + byteLength (chars (behind lead p :: is)) =
        t.span.stop + byteLength (chars is) := by
      simp only [hstop, chars_cons, behind, htext, byteLength_append, String.toList_ofList]
      omega
    have hlast : (t :: ts).getLast?.or previous = ts.getLast?.or (some t) := by
      cases ts with
      | nil => rfl
      | cons u us => simp [List.getLast?_cons]
    refine ⟨t :: ts, ?_, ?_⟩
    · rw [List.map_cons, hts, Token.ink, hlead, hpiece]
      rfl
    · rw [List.length_cons, Nat.add_right_comm, hchars, hstep, hpos, hlast, hscan]
      rfl

theorem Written.length_le (h : Written b is b' rest) : is.length ≤ (chars is).length := by
  induction h with
  | nil => exact Nat.le_refl 0
  | cons _ _ hp _ ih =>
    obtain ⟨c, cs, htext, -⟩ := hp
    simp only [chars_cons, behind, htext, List.length_append, List.length_cons] at ih ⊢
    omega

theorem Written.kind_ne (h : Written b is b' rest) : ∀ i ∈ is, i.piece.kind ≠ .endOfFile := by
  induction h with
  | nil => simp
  | cons _ _ hp _ ih =>
    obtain ⟨_, _, -, -, -, hkind, -⟩ := hp
    simpa [behind] using ⟨hkind, ih⟩

end Scanner

open Scanner Ink

/-- The tokens of inks in front of a text are those that were written, and then those of the text
as they are scanned from there on. -/
theorem tokenize_written {is : List Ink} {b : List Nat} {rest : List Char}
    (h : Written [] is b rest) : ∃ ts : List Token, ts.map Token.ink = is ∧
      (∀ t ∈ ts, t.isEnd = false) ∧ tokenize (chars is ++ rest) =
        let later := scanFrom (rest.length + 1) b ts.getLast? (byteLength (chars is)) rest
        ⟨ts ++ later.tokens, later.faults⟩ := by
  have hlength := h.length_le
  have hfuel : (chars is ++ rest).length + 1 =
      is.length + ((chars is).length - is.length + rest.length + 1) := by
    rw [List.length_append]
    omega
  obtain ⟨ts, hts, hscan⟩ :=
    scanFrom_written h ((chars is).length - is.length + rest.length + 1) none 0
  refine ⟨ts, hts, fun t ht => ?_, ?_⟩
  · have hkind := h.kind_ne t.ink (hts ▸ List.mem_map_of_mem ht)
    exact beq_eq_false_iff_ne.mpr hkind
  · rw [tokenize, hfuel, hscan, Option.or_none, Nat.zero_add,
      scanFrom_fuel _ (rest.length + 1) _ _ _ _ (by omega) (by omega)]

end Subscriptions
