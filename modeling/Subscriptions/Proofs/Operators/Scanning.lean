import Subscriptions.Proofs.Types.Reading

namespace Subscriptions

namespace Operators

open Grammar Piece Scanner Text Subscriptions.Types

/-- The binary operators without the casts, and without the one that type arguments start with. -/
def binaryTexts : List String := [
  "??", "||", "&&", "|", "^", "&", "==", "!=", "===", "!==", ">", "<=", ">=", "instanceof", "in",
  "<<", ">>", ">>>", "+", "-", "*", "/", "%", "**"]

structure Operator where
  text : String
  binds : (precedence? text).isSome = true
  free : text ∉ ["<", "as", "satisfies"]

theorem binds_of_mem : ∀ p ∈ binaryTexts,
    (precedence? p).isSome = true ∧ p ∉ ["<", "as", "satisfies"] := by decide

def Operator.all : List Operator :=
  binaryTexts.pmap (fun p hp => ⟨p, (binds_of_mem p hp).1, (binds_of_mem p hp).2⟩) fun _ hp => hp

/-- A name that an operand may be: a slash behind it is a division. -/
structure Leaf extends Identifier where
  divides : toIdent.text ∉ wordsBeforeRegex

theorem sampleName_plain :
    Ident.sampleName.text ∉ reserved ∧ Ident.sampleName.text ∉ wordsBeforeRegex := by decide

/-- `x`, as it stands in examples. -/
def Leaf.sample : Leaf := ⟨⟨.sampleName, sampleName_plain.1⟩, sampleName_plain.2⟩

namespace Operator

def precedence (o : Operator) : Nat := (precedence? o.text).get o.binds

def groupsRight (o : Operator) : Bool := o.text == "**"

def piece (o : Operator) : Piece :=
  if ["instanceof", "in"].contains o.text then word o.text else punct o.text

variable (o : Operator)

theorem precedence?_text : precedence? o.text = some o.precedence :=
  (Option.some_get o.binds).symm

@[simp] theorem piece_text : o.piece.text = o.text := by
  rw [piece]
  split <;> rfl

theorem mem_binaryTexts : o.text ∈ binaryTexts := by
  obtain ⟨text, hbinds, hfree⟩ := o
  simp only [List.mem_cons, List.not_mem_nil, or_false, not_or] at hfree
  by_contra hnone
  simp only [binaryTexts, List.mem_cons, List.not_mem_nil, or_false, not_or] at hnone
  simp [precedence?, hfree, hnone] at hbinds

/-- No other operator binds as tightly. -/
theorem groupsRight_iff : o.groupsRight = true ↔ o.precedence = 12 := by
  have htable : ∀ p ∈ binaryTexts, p == "**" ↔ precedence? p = some 12 := by decide
  rw [groupsRight, htable _ o.mem_binaryTexts, precedence?_text, Option.some_inj]

end Operator

/-- A way to put the operators between names into a tree. -/
inductive Grouping
  | leaf (x : Leaf)
  | node (left : Grouping) (o : Operator) (right : Grouping)

namespace Grouping

def leaves : Grouping → List Leaf
  | leaf x => [x]
  | node left _ right => left.leaves ++ right.leaves

def operators : Grouping → List Operator
  | leaf _ => []
  | node left o right => left.operators ++ o :: right.operators

def shape : Grouping → Shape
  | leaf x => x.shape
  | node left _ right => .node .binary none none [left.shape, right.shape]

/-- All operators bind at least as tightly as the one to the right of them, and more tightly than one
that groups to the right. -/
def FitsLeft (g : Grouping) (o : Operator) : Prop := ∀ q ∈ g.operators,
  o.precedence ≤ q.precedence ∧ (o.groupsRight = true → o.precedence < q.precedence)

/-- All operators bind more tightly than the one to the left of them, or as tightly if that groups to
the right. -/
def FitsRight (g : Grouping) (o : Operator) : Prop := ∀ q ∈ g.operators,
  o.precedence ≤ q.precedence ∧ (o.groupsRight = false → o.precedence < q.precedence)

/-- Precedence and associativity are kept at each operator of the tree. -/
def WellGrouped : Grouping → Prop
  | leaf _ => True
  | node left o right =>
    left.FitsLeft o ∧ right.FitsRight o ∧ left.WellGrouped ∧ right.WellGrouped

end Grouping

abbrev Tail := List (Operator × Leaf)

/-- A tree of a name and the operators behind it, in their order, which keeps how they bind. -/
structure Grouping.Arranges (g : Grouping) (x : Leaf) (ops : Tail) : Prop where
  leaves : g.leaves = x :: ops.map Prod.snd
  operators : g.operators = ops.map Prod.fst
  wellGrouped : g.WellGrouped

/-- The text `const v = x0 op1 x1 ... opn xn;`. -/
def chainText (v : Identifier) (x : Leaf) (rest : Tail) : String :=
  String.join (["const ", v.text, " = ", x.text] ++
    rest.flatMap (fun r => [" ", r.1.text, " ", r.2.text]) ++ [";"])

def tailChars (ops : Tail) : List Char :=
  ops.flatMap fun op => ' ' :: (op.1.text.toList ++ ' ' :: op.2.chars)

def tailPieces (ops : Tail) : List Piece := ops.flatMap fun op => [op.1.piece, word op.2.text]

section
variable (o : Operator) (x : Leaf) (ops : Tail)

@[simp] theorem tailChars_cons : tailChars ((o, x) :: ops) =
    ' ' :: (o.text.toList ++ ' ' :: (x.chars ++ tailChars ops)) := by
  simp [tailChars]

@[simp] theorem tailPieces_cons :
    tailPieces ((o, x) :: ops) = o.piece :: word x.text :: tailPieces ops := by
  simp [tailPieces]

theorem length_le_tailChars : 2 * ops.length ≤ (tailChars ops).length := by
  induction ops with
  | nil => exact Nat.le_refl 0
  | cons op ops ih =>
    rw [tailChars_cons, List.length_cons, List.length_cons, List.length_append, List.length_cons,
      List.length_append]
    omega

end

section
variable {b : List Nat} {previous : Option Token} {c : Char} {cs rest : List Char}

theorem lexeme_word (hc : isWordStart c = true) (hcs : cs.all isWordPart = true)
    (hrest : ∀ d ∈ rest.head?, isWordPart d = false) :
    lexeme b previous c (cs ++ rest) = ⟨.word, c :: cs, rest, b, none⟩ := by
  unfold lexeme
  rw [if_pos (by rw [hc, Bool.true_or]), takeWhile_append_stop hcs hrest,
    dropWhile_append_stop hcs hrest]

theorem solid_word (hc : isWordStart c = true) : Solid (c :: cs) := by
  have hstarts : (isWordStart c || c == '#') = true := by rw [hc, Bool.true_or]
  refine .of_not_blank (isBlank_of_starts hstarts) ?_
  rintro rfl
  exact absurd hc (by decide)

theorem solid_punct (hc : startsPunct c = true) : Solid (c :: cs) := by
  refine .of_not_blank ?_ ?_
  · simp only [startsPunct, Bool.and_eq_true, Bool.not_eq_true'] at hc
    exact hc.2
  · rintro rfl
    cases hc

/-- Behind a name a slash is a division. -/
theorem lexeme_division (hprevious : regexAllowed previous = false) :
    lexeme b previous '/' (' ' :: rest) = ⟨.punct, ['/'], ' ' :: rest, b, none⟩ := by
  have hfound := @punctuator?_touching (' ' :: rest) "/" (by decide) (by simp; decide)
  have hlexeme : lexeme b previous '/' (' ' :: rest) = punctLexeme b '/' (' ' :: rest) := by
    have hstart : isWordStart '/' = false := by decide
    have hnumber : startsNumber ('/' :: ' ' :: rest) = false := rfl
    unfold lexeme
    simp [hprevious, hstart, hnumber]
  rw [hlexeme, punctLexeme, show punctuator? ('/' :: ' ' :: rest) = _ from hfound]
  rfl

/-- Behind a name an operator with blanks around it is scanned as it is. -/
theorem Operator.lexeme (o : Operator) (hprevious : regexAllowed previous = false) :
    ∃ c cs, o.text.toList = c :: cs ∧ Solid (c :: (cs ++ ' ' :: rest)) ∧
      Scanner.lexeme b previous c (cs ++ ' ' :: rest) =
        ⟨o.piece.kind, c :: cs, ' ' :: rest, b, none⟩ := by
  have htable : ∀ p ∈ binaryTexts, p = "/" ∨
      (["instanceof", "in"].contains p = true ∧ p.toList.head?.any isWordStart = true ∧
        p.toList.tail.all isWordPart = true) ∨
      (["instanceof", "in"].contains p = false ∧ p ∈ punctuators ∧
        p.toList.head?.any startsPunct = true ∧ p.toList.head? ≠ some '.' ∧
        ' ' ∉ extensions p) := by decide
  have happly := htable o.text o.mem_binaryTexts
  cases htext : o.text.toList with
  | nil =>
    have hempty : o.text = "" := String.toList_eq_nil_iff.mp htext
    have hnone : "" ∉ binaryTexts := by decide
    exact absurd (hempty ▸ o.mem_binaryTexts) hnone
  | cons c cs =>
    refine ⟨c, cs, rfl, ?_⟩
    rw [htext] at happly
    rw [Operator.piece]
    rcases happly with hslash | ⟨hword, hstart, hgoes⟩ | ⟨hpunct, hmem, hstart, hdot, hends⟩
    · rw [hslash] at htext ⊢
      obtain ⟨rfl, rfl⟩ := List.cons.inj htext
      refine ⟨?_, lexeme_division hprevious⟩
      rintro _ _ ⟨⟩
      exact ⟨by decide, fun _ d hd => by simp at hd; subst hd; decide⟩
    · rw [if_pos hword]
      refine ⟨solid_word hstart, lexeme_word hstart hgoes ?_⟩
      simp
      decide
    · rw [if_neg (by rw [hpunct]; exact Bool.false_ne_true)]
      have hstart : startsPunct c = true := hstart
      have hdot : c ≠ '.' := fun hc => hdot (congrArg some hc)
      have hfound := @punctuator?_touching (' ' :: rest) o.text hmem (by simpa using hends)
      rw [htext, List.cons_append] at hfound
      refine ⟨solid_punct hstart, ?_⟩
      rw [lexeme_punct hstart (fun hc => absurd hc hdot), punctLexeme, hfound]
      rfl

theorem Leaf.regexAllowed (x : Leaf) {t : Token} (ht : t.piece = word x.text) :
    Scanner.regexAllowed (some t) = false := by
  have hkind : t.kind = .word := congrArg Piece.kind ht
  have htext : t.text = x.text := congrArg Piece.text ht
  rw [Scanner.regexAllowed, hkind, htext, ← Bool.not_eq_true, List.contains_iff_mem]
  exact x.divides

/-- The end of a chain. -/
theorem scanFrom_semicolon (fuel pos : Nat) : ∃ ts e,
    scanFrom (fuel + 2) b previous pos [';'] = ⟨ts ++ [e], []⟩ ∧
      ts.map Token.piece = [punct ";"] := by
  have hlexeme : lexeme b previous ';' [] = ⟨.punct, [';'], [], b, none⟩ := by
    rw [lexeme_punct (by decide) (by decide), punctLexeme]
    rfl
  obtain ⟨t, -, ht, -, hscan⟩ := @scanFrom_lexeme b b ';' [] [] previous .punct [] [';'] rfl rfl
    (solid_punct (by decide)) hlexeme (fuel + 1) pos
  exact ⟨[t], _, hscan, by rw [List.map_singleton, ht]; rfl⟩

/-- Operators and names are scanned as they are, behind a name and up to the end of the chain. -/
theorem scanFrom_tail (ops : Tail) (fuel pos : Nat) (hprevious : regexAllowed previous = false)
    (hfuel : 2 * ops.length + 1 < fuel) : ∃ ts e,
      scanFrom fuel b previous pos (tailChars ops ++ [';']) = ⟨ts ++ [e], []⟩ ∧
        ts.map Token.piece = tailPieces ops ++ [punct ";"] := by
  induction ops generalizing previous pos fuel with
  | nil =>
    obtain ⟨fuel, rfl⟩ := Nat.exists_eq_add_of_le' (show 2 ≤ fuel from hfuel)
    exact scanFrom_semicolon fuel pos
  | cons op ops ih =>
    obtain ⟨fuel, rfl⟩ := Nat.exists_eq_add_of_le' (show 2 ≤ fuel by omega)
    obtain ⟨o, x⟩ := op
    have hstop : ∀ d ∈ (tailChars ops ++ [';']).head?, isWordPart d = false := by
      cases ops <;> simp [tailChars] <;> decide
    obtain ⟨c, cs, htext, hsolid, hoperator⟩ := @Operator.lexeme b previous
      (x.chars ++ (tailChars ops ++ [';'])) o hprevious
    obtain ⟨t, -, ht, -, hfirst⟩ := @scanFrom_lexeme b b c _ _ previous _ [' '] _ rfl rfl hsolid
      hoperator (fuel + 1) pos
    obtain ⟨u, -, hu, -, hsecond⟩ := @scanFrom_lexeme b b x.first _ _ (some t) _ [' '] _ rfl rfl
      (solid_word x.starts) (lexeme_word x.starts x.goesOn hstop) fuel t.span.stop
    have hsign : t.piece = o.piece := by
      rw [ht, ← htext, String.ofList_toList, Operator.piece]
      split <;> rfl
    have hname : u.piece = word x.text := hu
    obtain ⟨ts, e, hrest, hts⟩ := ih fuel u.span.stop (x.regexAllowed hname)
      (by rw [List.length_cons] at hfuel; omega)
    refine ⟨t :: u :: ts, e, ?_, ?_⟩
    · have hchars : tailChars ((o, x) :: ops) ++ [';'] = [' '] ++ c :: (cs ++ ' ' ::
          (x.chars ++ (tailChars ops ++ [';']))) := by
        simp [htext]
      rw [hchars, hfirst]
      have hsecond' : scanFrom (fuel + 1) b (some t) t.span.stop
          (' ' :: (x.chars ++ (tailChars ops ++ [';']))) = _ := hsecond
      rw [hsecond', hrest]
      rfl
    · rw [List.map_cons, List.map_cons, hsign, hname, hts, tailPieces_cons]
      rfl

end

/-- The text of a chain is scanned as its tokens, without a fault. -/
theorem tokenize_chainText (v : Identifier) (x : Leaf) (ops : Tail) : ∃ ts e,
    tokenize (chainText v x ops).toList = ⟨ts ++ [e], []⟩ ∧
      ts.map Token.piece = word "const" :: word v.text :: punct "=" :: word x.text ::
        (tailPieces ops ++ [punct ";"]) := by
  have hchars : (chainText v x ops).toList =
      Ink.chars [key 0 "const", v.ink 1, mark 1 "=", x.ink 1] ++ (tailChars ops ++ [';']) := by
    simp [chainText, tailChars, String.toList_join, List.flatMap_assoc, Types.blanks]
  have hwritten : Written [] [key 0 "const", v.ink 1, mark 1 "=", x.ink 1] []
      (tailChars ops ++ [';']) := by
    have hlast : ∀ d ∈ (Ink.chars [] ++ (tailChars ops ++ [';'])).head?, isWordPart d = false := by
      cases ops <;> simp [tailChars] <;> decide
    refine written_key (by decide) ?_ (v.written ?_ (written_mark (by decide) ?_
      (x.written hlast (.nil _ _))))
    · simp [Types.blanks]
      decide
    · simp [Types.blanks]
      decide
    · intro d hd
      obtain rfl : ' ' = d := by simpa [Types.blanks] using hd
      decide
  obtain ⟨ts, hts, -, htokens⟩ := tokenize_written hwritten
  have hpieces : ts.map Token.piece =
      [word "const", word v.text, punct "=", word x.text] := map_piece_of_ink hts
  have hprevious : regexAllowed ts.getLast? = false := by
    have hlast := congrArg List.getLast? hpieces
    rw [List.getLast?_map] at hlast
    obtain ⟨t, ht, hpiece⟩ := Option.map_eq_some_iff.mp hlast
    rw [ht]
    exact x.regexAllowed hpiece
  have hfuel : 2 * ops.length + 1 < (tailChars ops ++ [';']).length + 1 := by
    have hlength := length_le_tailChars ops
    rw [List.length_append, List.length_singleton]
    omega
  obtain ⟨us, e, hscan, hus⟩ := @scanFrom_tail [] ts.getLast? ops _
    (byteLength (Ink.chars [key 0 "const", v.ink 1, mark 1 "=", x.ink 1])) hprevious hfuel
  refine ⟨ts ++ us, e, ?_, by rw [List.map_append, hpieces, hus]; rfl⟩
  rw [hchars, htokens, hscan]
  simp

end Operators

end Subscriptions
