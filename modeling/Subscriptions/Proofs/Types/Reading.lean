import Subscriptions.Proofs.Core.Statements
import Subscriptions.Proofs.Types.Skipping

namespace Subscriptions.Types

open Grammar Piece Scanner Ink

variable {gap lead n depth : Nat} {stops : List String} {p : String}

theorem chars_ink (t : Token) (ts : List Token) : Ink.chars ((t :: ts).map Token.ink) =
    t.lead.toList ++ (textOfTokens (t :: ts)).toList := by
  simp [textOfTokens, Token.ink, Token.piece, Ink.chars, String.toList_join, List.flatMap_map]

theorem map_piece_of_ink {ts : List Token} {is : List Ink} (hts : ts.map Token.ink = is) :
    ts.map Token.piece = is.map Ink.piece := by
  rw [← hts, List.map_map]
  rfl

/-- The tokens of a type start with a token behind the blanks. -/
theorem Path.inks_eq_cons (d : Path) :
    ∃ i is, d.inks lead = i :: is ∧ i.lead.toList = blanks lead := by
  induction d with
  | word x => exact ⟨_, _, rfl, x.ink_lead lead⟩
  | member d x ih =>
    obtain ⟨i, is, heq, hi⟩ := ih
    exact ⟨i, _, by rw [Path.inks, heq, List.cons_append], hi⟩

theorem Ty.front_eq_cons : ∀ t : Ty,
    ∃ i is, t.front gap lead = i :: is ∧ i.lead.toList = blanks lead
  | .name d => d.inks_eq_cons
  | .generic d args => by
    obtain ⟨i, is, heq, hi⟩ := @d.inks_eq_cons lead
    exact ⟨i, _, by rw [Ty.front, heq, List.cons_append], hi⟩
  | .array t => by
    obtain ⟨i, is, heq, hi⟩ := t.front_eq_cons
    exact ⟨i, _, by rw [Ty.front, t.inks_eq_front, heq, List.cons_append, List.cons_append], hi⟩
  | .union a b => by
    obtain ⟨i, is, heq, hi⟩ := a.front_eq_cons
    exact ⟨i, _, by rw [Ty.front, a.inks_eq_front, heq, List.cons_append, List.cons_append], hi⟩
  | .function params result => ⟨_, _, rfl, mark_lead lead _⟩
  | .object fields => ⟨_, _, rfl, mark_lead lead _⟩
  | .paren t => ⟨_, _, rfl, mark_lead lead _⟩

theorem Ty.inks_eq_cons (t : Ty) (n : Nat) :
    ∃ i is, t.inks gap lead n = i :: is ∧ i.lead.toList = blanks lead := by
  obtain ⟨i, is, heq, hi⟩ := @t.front_eq_cons gap lead
  exact ⟨i, _, by rw [t.inks_eq_front, heq, List.cons_append], hi⟩

/-- A type ends with no blank. -/
theorem Path.getLast_chars (d : Path) :
    ∃ c, d.chars.getLast? = some c ∧ Text.isBlank c = false := by
  have hword (x : Ident) : ∃ c, x.chars.getLast? = some c ∧ Text.isBlank c = false := by
    refine ⟨_, List.getLast?_eq_some_getLast (List.cons_ne_nil _ _), ?_⟩
    have hparts : x.chars.all isWordPart = true := by
      rw [Ident.chars, List.all_cons, isWordPart_of_isWordStart x.starts, x.goesOn]
      rfl
    exact isBlank_of_isWordPart (List.all_eq_true.mp hparts _ (List.getLast_mem _))
  cases d with
  | word x => exact hword x
  | member d x =>
    obtain ⟨c, hc, hblank⟩ := hword x
    exact ⟨c, by simp [Path.chars, List.getLast?_append, List.getLast?_cons, hc], hblank⟩

theorem Ty.getLast_chars : ∀ t : Ty,
    ∃ c, (t.chars gap).getLast? = some c ∧ Text.isBlank c = false
  | .name d => d.getLast_chars
  | .generic d args =>
    ⟨'>', by simp [Ty.chars, List.getLast?_append, List.getLast?_cons], by decide⟩
  | .array t => ⟨']', by simp [Ty.chars, List.getLast?_append], by decide⟩
  | .union a b => by
    obtain ⟨c, hc, hblank⟩ := b.getLast_chars
    exact ⟨c, by simp [Ty.chars, List.getLast?_append, List.getLast?_cons, hc], hblank⟩
  | .function params result => by
    obtain ⟨c, hc, hblank⟩ := result.getLast_chars
    exact ⟨c, by simp [Ty.chars, List.getLast?_append, List.getLast?_cons, hc], hblank⟩
  | .object fields => ⟨'}', by simp [Ty.chars, List.getLast?_append, List.getLast?_cons], by decide⟩
  | .paren t => ⟨')', by simp [Ty.chars, List.getLast?_append, List.getLast?_cons], by decide⟩

theorem Opens.isBlank_head {cs : List Char} (h : Opens cs) :
    ∀ c ∈ cs.head?, Text.isBlank c = false := by
  have hbrackets : (['(', '{'].all fun c => !Text.isBlank c) = true := by decide
  obtain ⟨c, ds, rfl, hc⟩ := h
  intro d hd
  obtain rfl : c = d := Option.some.inj hd
  rw [Types.opens, Bool.or_eq_true] at hc
  rcases hc with hc | hc
  · exact isBlank_of_isWordPart (isWordPart_of_isWordStart hc)
  · simpa using List.all_eq_true.mp hbrackets c (List.contains_iff_mem.mp hc)

/-- What is kept of tokens is their text without the blanks before it. -/
theorem typeText_of_inks {ts : List Token} {i : Ink} {is : List Ink} {cs : List Char}
    (hts : ts.map Token.ink = i :: is) (hi : i.lead.toList = blanks lead)
    (hchars : Ink.chars (i :: is) = blanks lead ++ cs) (hopens : Opens cs)
    (hlast : ∃ c, cs.getLast? = some c ∧ Text.isBlank c = false) :
    Grammar.typeText ts = some (String.ofList cs) := by
  obtain ⟨u, us, rfl, hu, -⟩ := List.map_eq_cons_iff.mp hts
  have hlead : u.lead.toList = blanks lead := by
    rw [← hi, ← hu]
    rfl
  have hkept := chars_ink u us
  rw [hts, hchars, hlead, List.append_cancel_left_eq] at hkept
  have htext : textOfTokens (u :: us) = String.ofList cs := by rw [hkept, String.ofList_toList]
  have hnonempty : (String.ofList cs).isEmpty = false := by
    obtain ⟨c, ds, rfl, -⟩ := hopens
    simp [← String.toList_eq_nil_iff]
  have htrim : Text.trim (String.ofList cs) = String.ofList cs := by
    rw [Text.trim, String.toList_ofList, Text.strip_eq_self hopens.isBlank_head]
    obtain ⟨c, hc, hblank⟩ := hlast
    rintro _ hd
    obtain rfl : c = _ := Option.some.inj (hc.symm.trans hd)
    exact hblank
  rw [Grammar.typeText, htext, htrim, hnonempty]
  rfl

theorem Ty.typeText (t : Ty) {ts : List Token} (hts : ts.map Token.ink = t.inks gap lead 0) :
    Grammar.typeText ts = some (t.text gap) := by
  obtain ⟨i, is, heq, hi⟩ := @t.inks_eq_cons gap lead 0
  refine typeText_of_inks (hts.trans heq) hi ?_ t.opens t.getLast_chars
  rw [← heq, t.chars_inks, List.replicate_zero, List.append_nil]

/-- A type is read whole where no stop stands in it outside of all brackets. -/
theorem typeTokens_type (t : Ty) {ts us : List Token} {u : Token}
    (hts : ts.map Token.ink = t.inks gap lead 0) (ht : (Permit.upTo stops).Passes true t.outer)
    (hu : u.piece = punct p) (hp : p ∈ stops) :
    typeTokens stops none 0 (ts ++ u :: us) = (ts, u :: us) := by
  have hnested : typeTokens stops none (0 + 0) (ts ++ u :: us) = _ :=
    typeTokens_nested (t.nested lead 0 0 _ true fun _ => ht) (map_piece_of_ink hts)
      (fun _ _ _ h => h rfl) rfl
  have hprevious : ∃ v, ts.getLast?.or none = some v := by
    obtain ⟨i, is, heq, -⟩ := @t.inks_eq_cons gap lead 0
    obtain ⟨w, ws, rfl, -⟩ := List.map_eq_cons_iff.mp (hts.trans heq)
    exact ⟨_, by rw [List.getLast?_eq_some_getLast (List.cons_ne_nil _ _)]; rfl⟩
  obtain ⟨v, hv⟩ := hprevious
  have hends : endsType stops (some v) u = true := by
    have hkind : u.kind = .punct := congrArg Piece.kind hu
    have htext : u.text = p := congrArg Piece.text hu
    simp [endsType, Token.isPunctOf, hkind, htext, hp]
  rw [hv] at hnested
  rw [Nat.add_zero] at hnested
  rw [hnested, typeTokens, hends]
  simp [takeAll]

theorem reads_typeUpTo (t : Ty) {u : Ink} {us : List Ink} (hu : u.piece = punct p) (hp : p ∈ stops)
    (ht : (Permit.upTo stops).Passes true t.outer) :
    Reads (typeUpTo stops) depth (t.inks gap lead 0 ++ u :: us) (u :: us)
      (· = some (t.text gap)) := by
  have hskip : Reads (skip (typeTokens stops none 0)) depth (t.inks gap lead 0 ++ u :: us) (u :: us)
      (Grammar.typeText · = some (t.text gap)) := by
    refine reads_skip fun tokens htokens => ?_
    obtain ⟨ts, ts', rfl, hts, hts'⟩ := List.map_eq_append_iff.mp htokens
    obtain ⟨v, vs, rfl, hv, hvs⟩ := List.map_eq_cons_iff.mp hts'
    have hpiece : v.piece = punct p := by
      rw [← hu, ← hv]
      rfl
    exact ⟨ts, v :: vs, typeTokens_type t hts ht hpiece hp, List.suffix_append _ _, hts',
      t.typeText hts⟩
  exact hskip.bind fun tokens htext => reads_pure htext

/-- Nested pieces that come to the end are read as one type. -/
theorem reads_typeUpTo_end {i : Ink} {is : List Ink} {cs : List Char}
    (hnested : Nested (.upTo stops) true 0 ((i :: is).map Ink.piece) n)
    (hi : i.lead.toList = blanks lead) (hchars : Ink.chars (i :: is) = blanks lead ++ cs)
    (hopens : Opens cs) (hlast : ∃ c, cs.getLast? = some c ∧ Text.isBlank c = false) :
    Reads (typeUpTo stops) depth (i :: is) [] (· = some (String.ofList cs)) := by
  have hskip : Reads (skip (typeTokens stops none 0)) depth (i :: is) []
      (Grammar.typeText · = some (String.ofList cs)) := by
    refine reads_skip fun ts hts => ⟨ts, [], ?_, List.nil_suffix, rfl, ?_⟩
    · have hskipped : typeTokens stops none (0 + 0) (ts ++ []) = _ :=
        typeTokens_nested hnested (map_piece_of_ink hts) (fun _ _ _ h => h rfl) rfl
      rw [List.append_nil, typeTokens] at hskipped
      rw [hskipped, takeAll, List.append_nil]
    · exact typeText_of_inks hts hi hchars hopens hlast
  exact hskip.bind fun tokens htext => reads_pure htext

/-- The brackets and marks of a type outside of all brackets. -/
def outerPuncts : List String := [".", "<", "[", "|", "(", "=>", "\x7b"]

theorem Path.mem_outer (d : Path) : ∀ q ∈ d.outer,
    (∃ x : Ident, q = Piece.word x.text) ∨ ∃ p ∈ outerPuncts, q = punct p := by
  induction d with
  | word x =>
    intro q hq
    exact .inl ⟨x, List.mem_singleton.mp hq⟩
  | member d x ih =>
    intro q hq
    rcases List.mem_append.mp hq with hq | hq
    · exact ih q hq
    · simp only [List.mem_cons, List.not_mem_nil, or_false] at hq
      rcases hq with rfl | rfl
      · exact .inr ⟨_, by decide, rfl⟩
      · exact .inl ⟨x, rfl⟩

theorem Ty.mem_outer : ∀ (t : Ty), ∀ q ∈ t.outer,
    (∃ x : Ident, q = Piece.word x.text) ∨ ∃ p ∈ outerPuncts, q = punct p
  | .name d, q, hq => d.mem_outer q hq
  | .generic d _, q, hq => by
    rcases List.mem_append.mp hq with hq | hq
    · exact d.mem_outer q hq
    · exact .inr ⟨_, by decide, List.mem_singleton.mp hq⟩
  | .array t, q, hq => by
    rcases List.mem_append.mp hq with hq | hq
    · exact t.mem_outer q hq
    · exact .inr ⟨_, by decide, List.mem_singleton.mp hq⟩
  | .union a b, q, hq => by
    rcases List.mem_append.mp hq with hq | hq
    · exact a.mem_outer q hq
    · rcases List.mem_cons.mp hq with hq | hq
      · exact .inr ⟨_, by decide, hq⟩
      · exact b.mem_outer q hq
  | .function _ result, q, hq => by
    rcases List.mem_cons.mp hq with hq | hq
    · exact .inr ⟨_, by decide, hq⟩
    · rcases List.mem_cons.mp hq with hq | hq
      · exact .inr ⟨_, by decide, hq⟩
      · exact result.mem_outer q hq
  | .object _, q, hq => .inr ⟨_, by decide, List.mem_singleton.mp hq⟩
  | .paren _, q, hq => .inr ⟨_, by decide, List.mem_singleton.mp hq⟩

/-- A text of a type outside of all brackets that starts no word is a mark. -/
theorem Ty.eq_punct_of_text (t : Ty) {q : Piece} (hq : q ∈ t.outer) (htext : q.text = p)
    (hp : startsWord p = false) : q = punct p ∧ p ∈ outerPuncts := by
  rcases t.mem_outer q hq with ⟨x, rfl⟩ | ⟨p', hp', rfl⟩
  · exact absurd htext (x.text_ne hp)
  · obtain rfl : p' = p := htext
    exact ⟨rfl, hp'⟩

/-- A type is read whole up to stops of which none is met in it outside of all brackets, but perhaps
a brace at its start. -/
theorem Ty.passes (t : Ty) (hfirst : ∀ q ∈ t.outer.head?, q.text ∈ stops → q.text = "\x7b")
    (hlater : ∀ q ∈ t.outer.tail, q.text ∉ stops) : (Permit.upTo stops).Passes true t.outer where
  head q hq _ := or_iff_not_imp_left.mpr fun hmem => ⟨rfl,
    (t.eq_punct_of_text (List.mem_of_head? hq) (hfirst q hq (not_not.mp hmem)) (by decide)).1⟩
  tail q hq _ := .inl (hlater q hq)

/-- Marks that end no type. -/
theorem Ty.passes_of_marks (t : Ty)
    (hstops : ∀ p ∈ stops, p ∉ outerPuncts ∧ startsWord p = false) :
    (Permit.upTo stops).Passes true t.outer := by
  have hnone : ∀ q ∈ t.outer, q.text ∉ stops := by
    intro q hq hmem
    obtain ⟨hnot, hword⟩ := hstops _ hmem
    exact hnot (t.eq_punct_of_text hq rfl hword).2
  exact t.passes (fun q hq hmem => absurd hmem (hnone q (List.mem_of_head? hq)))
    fun q hq => hnone q (List.mem_of_mem_tail hq)

def annotated (gap : Nat) : Option Ty → List Ink
  | none => []
  | some t => mark 0 ":" :: t.inks gap 1 0

theorem reads_annotated (t : Option Ty) {u : Ink} {us : List Ink} (hu : u.piece = punct p)
    (hp : p ∈ stops) (hcolon : p ≠ ":")
    (ht : ∀ t' ∈ t, (Permit.upTo stops).Passes true t'.outer) :
    Reads ( annotation stops) depth (annotated gap t ++ u :: us) (u :: us)
      (· = t.map (Ty.text gap)) := by
  cases t with
  | none =>
    refine .stay (reads_untyped stops ?_)
    rw [show Seen.piece u = punct p from hu]
    simpa [Piece.isPunct, punct] using hcolon
  | some t =>
    refine Reads.bind (.step reads_accept) ?_
    rintro _ rfl
    exact reads_typeUpTo t hu hp (ht t rfl)

/-- The words in the texts below that are no names. -/
def keyWords : List String := ["async", "const", "extends", "function", "return"]

def key (lead : Nat) (w : String) : Ink := behind (blanks lead) (word w)

@[simp] theorem key_piece (lead : Nat) (w : String) : (key lead w).piece = word w := rfl

@[simp] theorem key_lead (lead : Nat) (w : String) : (key lead w).lead.toList = blanks lead := by
  simp [key, behind]

theorem written_key {w : String} (hw : w ∈ keyWords) {is : List Ink} {rest : List Char}
    (hrest : ∀ d ∈ (Ink.chars is ++ rest).head?, isWordPart d = false)
    (h : Written [] is [] rest) : Written [] (key lead w :: is) [] rest := by
  have hword : ∀ w ∈ keyWords,
      (w.toList.head?.any isWordStart && w.toList.tail.all isWordPart) = true := by decide
  have hparts := hword w hw
  cases htext : w.toList with
  | nil =>
    rw [htext] at hparts
    cases hparts
  | cons c cs =>
    rw [htext, Bool.and_eq_true] at hparts
    obtain ⟨hstart, hgoes⟩ := hparts
    obtain rfl : String.ofList (c :: cs) = w := by rw [← htext, String.ofList_toList]
    refine written_behind (scansAt_word ?_ hgoes hrest) h
    rw [show isWordStart c = true from hstart, Bool.true_or]

theorem Identifier.ne_reserved (x : Identifier) {w : String} (hw : w ∈ reserved) : x.text ≠ w := by
  rintro rfl
  exact x.free hw

def Identifier.shape (x : Identifier) : Shape := .node .identifier (some x.text) none []

section
variable {go : Recur} {fuel : Nat} {u : Ink} {us : List Ink} {s : State}

/-- Punctuators behind a name that stands for itself. -/
def nameEnds : List String := [";", ")", "?"]

theorem closes_of_mem (hp : p ∈ nameEnds) : Core.Closes (punct p) := by
  have hnone : ∀ p ∈ nameEnds, p ∉ [".", "?.", "[", "(", "<", "!", "++", "--"] ∧
      precedence? p = none := by decide
  obtain ⟨hmark, hprecedence⟩ := hnone p hp
  exact Core.closes_punct hmark hprecedence

theorem wordForm_identifier (x : Identifier) {qs : List Piece} (hp : p ∈ nameEnds)
    (hs : s.pieces = word x.text :: punct p :: qs) : wordForm s = .identifier := by
  have hnone : ∀ p ∈ nameEnds, p ≠ "=>" ∧ p ≠ "(" ∧ p ≠ "function" := by decide
  have htext : s.current.text = x.text := State.text_current hs
  have hnext : (s.ahead 1).piece = punct p := State.piece_ahead_one hs
  have hkind : (s.ahead 1).kind = .punct := congrArg Piece.kind hnext
  have hmark : (s.ahead 1).text = p := congrArg Piece.text hnext
  have hfree : x.text ∉ reserved := x.free
  simp only [reserved, List.mem_cons, not_or] at hfree
  simp [wordForm, htext, hkind, hmark, hfree, hnone p hp, Token.isWord, Token.isPunct]

theorem Identifier.operand (x : Identifier) : Core.Operand (word x.text) where
  punct := rfl
  word w hw := by
    have hwords : ∀ w ∈ Core.operatorWords, w ∈ reserved := by decide
    simpa [Piece.isTheWord, Piece.word] using x.ne_reserved (hwords w hw)

/-- An identifier is read as itself. -/
theorem reads_name {V : Type} [Seen V] {v u : V} {us : List V} (x : Identifier)
    (hv : Seen.piece v = word x.text) (hu : Seen.piece u = punct p) (hp : p ∈ nameEnds) :
    Reads (access (rule fuel)) depth (v :: u :: us) (u :: us) (·.shape = x.shape) := by
  have hprimary : Reads (primary (rule fuel)) depth (v :: u :: us) (u :: us)
      (·.shape = x.shape) := by
    refine .step ?_
    rw [List.map_cons, hv, hu]
    apply Core.reads_primary_of_word rfl
    apply reads_here
    intro start
    apply reads_look
    intro s hs
    rw [wordForm_identifier x hp hs]
    refine reads_takeName.bind fun name hname => ?_
    refine reads_build.imp fun node hnode => ?_
    rw [hnode, Option.map_some, hname]
    rfl
  have hnew : (Seen.piece v).isTheWord "new" = false := by
    rw [hv]
    simpa [Piece.isTheWord, Piece.word] using x.ne_reserved (by decide)
  have hcloses : Core.Closes (Seen.piece u) := hu ▸ closes_of_mem hp
  exact Core.reads_access hnew hprimary (Core.climbs_stay hcloses)

/-- An identifier before a semicolon is an assignment. -/
theorem reads_identifier (x : Identifier) (hu : u.piece = punct ";")
    (hdepth : depth + 3 ≤ maxNesting) : Reads (rule (fuel + 4) .assignment) depth
      (x.ink lead :: u :: us) (u :: us) (·.shape = x.shape) := by
  have hu : Seen.piece u = punct ";" := hu
  have hcloses : Core.Closes (Seen.piece u) := hu ▸ closes_of_mem (by decide)
  exact Core.reads_assignment x.operand hcloses (by rw [hu]; decide) hdepth
    (reads_name x rfl hu (by decide))

end

structure Param where
  name : Identifier
  type : Option Ty

def annotatedChars (gap : Nat) : Option Ty → List Char
  | none => []
  | some t => ':' :: ' ' :: t.chars gap

def Param.chars (gap : Nat) (x : Param) : List Char := x.name.chars ++ annotatedChars gap x.type

def Param.inks (gap lead : Nat) (x : Param) : List Ink := x.name.ink lead :: annotated gap x.type

def Param.shape (gap : Nat) (x : Param) : Shape :=
  .node .parameter (some x.name.text) (x.type.map (Ty.text gap)) []

@[simp] theorem chars_annotated (t : Option Ty) :
    Ink.chars (annotated gap t) = annotatedChars gap t := by
  cases t with
  | none => rfl
  | some t => simp [annotated, annotatedChars, blanks]

@[simp] theorem Param.chars_inks (x : Param) :
    Ink.chars (x.inks gap lead) = blanks lead ++ x.chars gap := by
  simp [Param.inks, Param.chars]

def paramEnds : List String := [",", ")"]

theorem Param.written (x : Param) {c : Char} {rest : List Char}
    (hc : isWordPart c = false ∧ c ∉ ['>', '=']) :
    Written [] (x.inks gap lead) [] (c :: rest) := by
  refine x.name.written ?_ ?_
  · cases x.type with
    | none => simpa [annotated] using hc.1
    | some t =>
      intro d hd
      obtain rfl : ':' = d := by simpa [annotated] using hd
      decide
  · cases x.type with
    | none => exact .nil _ _
    | some t => exact written_single (by decide) (t.written 1 0 (free_mark hc))

theorem Param.reads (x : Param) {go : Recur} {u : Ink} {us : List Ink} (hu : u.piece = punct p)
    (hp : p ∈ paramEnds) : Reads (parameter go) depth (x.inks gap lead ++ u :: us) (u :: us)
      (·.shape = x.shape gap) := by
  have hends : ∀ p ∈ paramEnds, p ∈ [",", ")", "="] ∧ p ≠ ":" ∧ p ∈ Core.parameterPuncts ∧
      (punct p).isPunct "=" = false := by decide
  obtain ⟨hstop, hcolon, hmember, hequals⟩ := hends p hp
  refine Core.reads_namedParameter rfl ?_ ?_
    (reads_annotated x.type hu hstop hcolon fun t _ => t.passes_of_marks (by decide))
  · cases x.type with
    | none => exact ⟨u, us, p, rfl, hu, hmember⟩
    | some t => exact ⟨_, _, ":", rfl, rfl, by decide⟩
  · rw [show Seen.piece u = punct p from hu]
    exact hequals

namespace Param

variable {x : Param} {xs : List Param} {c : Char} {rest : List Char}

/-- Parameters with a comma and a blank between each two. -/
def listChars (gap : Nat) : List Param → List Char
  | [] => []
  | x :: xs => x.chars gap ++ xs.flatMap fun y => ',' :: ' ' :: y.chars gap

def listInks (gap : Nat) : List Param → List Ink
  | [] => []
  | x :: xs => x.inks gap 0 ++ xs.flatMap fun y => mark 0 "," :: y.inks gap 1

@[simp] theorem chars_listInks (xs : List Param) :
    Ink.chars (listInks gap xs) = listChars gap xs := by
  cases xs with
  | nil => rfl
  | cons x xs =>
    simp only [listInks, listChars, Ink.chars_append, chars_inks, blanks_zero, List.nil_append]
    congr 1
    induction xs with
    | nil => rfl
    | cons y ys ih => simp [ih, blanks]

theorem written_list (xs : List Param) (rest : List Char) :
    Written [] (listInks gap xs) [] (')' :: rest) := by
  cases xs with
  | nil => exact .nil _ _
  | cons x xs =>
    have hlater : Written [] (xs.flatMap fun y => mark 0 "," :: y.inks gap 1) [] (')' :: rest) := by
      induction xs with
      | nil => exact .nil _ _
      | cons y ys ih =>
        rw [List.flatMap_cons, List.cons_append]
        refine written_single (by decide) (Written.append ?_ ih)
        cases ys with
        | nil => exact y.written (by decide)
        | cons z zs => simpa using y.written (c := ',') (by decide)
    refine Written.append ?_ hlater
    cases xs with
    | nil => exact x.written (by decide)
    | cons y ys => simpa using x.written (c := ',') (by decide)

/-- Parameters in parentheses are read one by one. -/
theorem reads_list (xs : List Param) {go : Recur} {lead : Nat} {is : List Ink} :
    Reads (parameters go) depth (mark lead "(" :: (listInks gap xs ++ mark 0 ")" :: is)) is
      (Node.shapes · = xs.map (shape gap)) := by
  let items : List (List Ink × Shape) := match xs with
    | [] => []
    | x :: xs => (x.inks gap 0, x.shape gap) :: xs.map fun y => (y.inks gap 1, y.shape gap)
  have hinks : listInks gap xs = Core.separatedBy (mark 0 ",") (items.map Prod.fst) := by
    cases xs with
    | nil => rfl
    | cons x xs => simp [items, listInks, Core.separatedBy_cons, List.flatMap_map]
  have hshapes : xs.map (shape gap) = items.map Prod.snd := by
    cases xs with
    | nil => rfl
    | cons x xs => simp [items]
  have hitems : ∀ y ∈ items, ∃ x lead, y = (Param.inks gap lead x, x.shape gap) := by
    cases xs with
    | nil =>
      intro y hy
      exact absurd hy List.not_mem_nil
    | cons x xs =>
      intro y hy
      rcases List.mem_cons.mp hy with rfl | hy
      · exact ⟨x, 0, rfl⟩
      · obtain ⟨z, -, rfl⟩ := List.mem_map.mp hy
        exact ⟨z, 1, rfl⟩
  rw [hinks, hshapes]
  refine Core.reads_separatedParameters rfl rfl rfl items ?_ ?_
  · intro y hy
    obtain ⟨x, lead, rfl⟩ := hitems y hy
    exact ⟨_, _, rfl, rfl⟩
  · intro y hy u us hu
    obtain ⟨x, lead, rfl⟩ := hitems y hy
    rcases hu with rfl | rfl
    · exact x.reads rfl (by decide)
    · exact x.reads rfl (by decide)

end Param

end Subscriptions.Types
