import Subscriptions.Proofs.Core.Language

namespace Subscriptions

namespace Grammar

open Piece

/-- Brackets that a piece neither opens nor closes. -/
def Flat (q : Piece) : Prop := q.isPunctOf openers = false ∧ q.isPunctOf closers = false

/-- The brackets among the pieces close one another, so that a search for the end of a bracket
passes over them. -/
def Closed (ps : List Piece) : Prop := ∀ (depth : Nat) (ts rest : List Token),
  ts.map Token.piece = ps → (balanced (depth + 1) (ts ++ rest)).2 = (balanced (depth + 1) rest).2

variable {ps qs : List Piece} {q : Piece}

theorem Closed.nil : Closed [] := by
  intro depth ts rest hts
  rw [List.map_eq_nil_iff.mp hts, List.nil_append]

theorem Closed.append (hp : Closed ps) (hq : Closed qs) : Closed (ps ++ qs) := by
  intro depth ts rest hts
  obtain ⟨ts₁, ts₂, rfl, h₁, h₂⟩ := List.map_eq_append_iff.mp hts
  rw [List.append_assoc, hp depth ts₁ (ts₂ ++ rest) h₁, hq depth ts₂ rest h₂]

theorem Closed.flat (h : Flat q) : Closed [q] := by
  intro depth ts rest hts
  obtain ⟨t, ts', rfl, ht, hts'⟩ := List.map_eq_cons_iff.mp hts
  rw [List.map_eq_nil_iff.mp hts']
  have hopen : t.isPunctOf openers = false := by
    rw [← h.1, ← ht]
    rfl
  have hclose : t.isPunctOf closers = false := by
    rw [← h.2, ← ht]
    rfl
  simp [balanced, hopen, hclose, take]

theorem Closed.cons (h : Flat q) (hp : Closed ps) : Closed (q :: ps) := (Closed.flat h).append hp

theorem balanced_open {depth : Nat} {t : Token} {ts : List Token} {o : String}
    (ht : t.piece = punct o) (ho : o ∈ openers) :
    (balanced depth (t :: ts)).2 = (balanced (depth + 1) ts).2 := by
  have hkind : t.kind = .punct := congrArg Piece.kind ht
  have htext : t.text = o := congrArg Piece.text ht
  have hopen : t.isPunctOf openers = true := by
    rw [Token.isPunctOf, hkind, htext, List.contains_iff_mem.mpr ho]
    rfl
  rw [balanced, if_pos hopen]
  rfl

theorem balanced_close {depth : Nat} {t : Token} {ts : List Token} {c : String}
    (ht : t.piece = punct c) (hc : c ∈ closers) :
    (balanced depth (t :: ts)).2 = if depth ≤ 1 then ts else (balanced (depth - 1) ts).2 := by
  have hkind : t.kind = .punct := congrArg Piece.kind ht
  have htext : t.text = c := congrArg Piece.text ht
  have hclose : t.isPunctOf closers = true := by
    rw [Token.isPunctOf, hkind, htext, List.contains_iff_mem.mpr hc]
    rfl
  have hopen : ¬ t.isPunctOf openers = true := by
    have hdisjoint : ∀ c ∈ closers, c ∉ openers := by decide
    rw [Token.isPunctOf, htext, Bool.and_eq_true, List.contains_iff_mem]
    exact fun h => hdisjoint c hc h.2
  rw [balanced, if_neg hopen, if_pos hclose]
  split <;> rfl

theorem Closed.bracket {o c : String} (ho : o ∈ openers) (hc : c ∈ closers) (hp : Closed ps) :
    Closed (punct o :: (ps ++ [punct c])) := by
  intro depth ts rest hts
  obtain ⟨t, ts', rfl, ht, hts'⟩ := List.map_eq_cons_iff.mp hts
  obtain ⟨inner, ts'', rfl, hinner, hts''⟩ := List.map_eq_append_iff.mp hts'
  obtain ⟨u, us, rfl, hu, hus⟩ := List.map_eq_cons_iff.mp hts''
  rw [List.map_eq_nil_iff.mp hus, List.cons_append, balanced_open ht ho, List.append_assoc,
    hp (depth + 1) inner _ hinner, List.cons_append, balanced_close hu hc]
  simp

/-- The bracket that opens at the front ends at the first one that is not closed. -/
theorem balanced_of_closed {o c : String} (ho : o ∈ openers) (hc : c ∈ closers) (hp : Closed ps)
    {ts : List Token} (hts : ts.map Token.piece = punct o :: (ps ++ punct c :: qs)) :
    ((balanced 0 ts).2).map Token.piece = qs := by
  obtain ⟨t, ts', rfl, ht, hts'⟩ := List.map_eq_cons_iff.mp hts
  obtain ⟨inner, ts'', rfl, hinner, hts''⟩ := List.map_eq_append_iff.mp hts'
  obtain ⟨u, us, rfl, hu, hus⟩ := List.map_eq_cons_iff.mp hts''
  rw [balanced_open ht ho, hp 0 inner _ hinner, balanced_close hu hc]
  exact hus

/-- Parentheses before an arrow are parameters. -/
theorem opensArrow_of_arrow (hp : Closed ps) {ts : List Token}
    (hts : ts.map Token.piece = punct "(" :: (ps ++ punct ")" :: punct "=>" :: qs)) :
    opensArrow ts = true := by
  have hrest := balanced_of_closed (by decide) (by decide) hp hts
  obtain ⟨t, rest, heq, ht, -⟩ := List.map_eq_cons_iff.mp hrest
  have harrow : t.isPunct "=>" = true := by
    change t.piece.isPunct "=>" = true
    rw [ht]
    rfl
  rw [opensArrow, heq]
  simp [harrow]

/-- Parentheses before something else than an arrow or a type are none. -/
theorem opensArrow_of_not (hp : Closed ps) (harrow : q.isPunct "=>" = false)
    (hcolon : q.isPunct ":" = false) {ts : List Token}
    (hts : ts.map Token.piece = punct "(" :: (ps ++ punct ")" :: q :: qs)) :
    opensArrow ts = false := by
  have hrest := balanced_of_closed (by decide) (by decide) hp hts
  obtain ⟨t, rest, heq, rfl, -⟩ := List.map_eq_cons_iff.mp hrest
  have harrow : t.isPunct "=>" = false := harrow
  have hcolon : t.isPunct ":" = false := hcolon
  rw [opensArrow, heq]
  simp [harrow, hcolon]

end Grammar

namespace Core

open Grammar Piece Scanner

variable {b : List Nat}

theorem flat_word (w : String) : Flat (word w) := ⟨rfl, rfl⟩

theorem closed_word (w : String) : Closed [word w] := .flat (flat_word w)

theorem flat_punct {p : String} (hp : p ∉ openers ++ closers) : Flat (punct p) := by
  rw [List.mem_append, not_or] at hp
  constructor
  · simpa [Piece.isPunctOf, punct] using hp.1
  · simpa [Piece.isPunctOf, punct] using hp.2

theorem closed_separated {pss : List (List Piece)} (h : ∀ ps ∈ pss, Closed ps) :
    Closed (separated pss) := by
  fun_induction separated pss with
  | case1 => exact .nil
  | case2 ps => exact h ps List.mem_cons_self
  | case3 ps qs rest ih =>
    have hrest := ih fun rs hrs => h rs (List.mem_cons_of_mem ps hrs)
    exact (h ps List.mem_cons_self).append (.cons (flat_punct (by decide)) hrest)

theorem spelled_separated {pss : List (List Piece)} (h : ∀ ps ∈ pss, Spelled b ps b) :
    Spelled b (separated pss) b := by
  fun_induction separated pss with
  | case1 => exact .nil b
  | case2 ps => exact h ps List.mem_cons_self
  | case3 ps qs rest ih =>
    have hrest := ih fun rs hrs => h rs (List.mem_cons_of_mem ps hrs)
    exact (h ps List.mem_cons_self).append (.cons (scans_punct (by decide)) hrest)

theorem Word.scans (w : Word) : Scans b (Piece.word w.text) b := scans_word w.starts w.goesOn

/-- A keyword is scanned as a word. -/
theorem scans_keyword {w : String} (hw : w ∈ keywords) : Scans b (Piece.word w) b := by
  have hchars : ∀ w ∈ keywords, w.toList.head?.any (fun c => isWordStart c || c == '#') = true ∧
      w.toList.tail.all isWordPart = true := by decide
  obtain ⟨hfirst, hcs⟩ := hchars w hw
  cases htext : w.toList with
  | nil =>
    rw [htext] at hfirst
    cases hfirst
  | cons c cs =>
    rw [htext] at hfirst hcs
    have hofList : w = String.ofList (c :: cs) := by rw [← htext, String.ofList_toList]
    rw [hofList]
    exact scans_word hfirst hcs

theorem spelled_bracket {o c : String} {ps : List Piece} (ho : o ∈ plainPuncts)
    (hc : c ∈ plainPuncts) (h : Spelled b ps b) :
    Spelled b (punct o :: (ps ++ [punct c])) b :=
  .cons (scans_punct ho) (h.append (.single (scans_punct hc)))

theorem spelled_typed (type : Option Word) : Spelled b (typed type) b := by
  cases type with
  | none => exact .nil b
  | some t => exact .cons (scans_punct (by decide)) (.single t.scans)

theorem closed_typed (type : Option Word) : Closed (typed type) := by
  cases type with
  | none => exact .nil
  | some t => exact .cons (flat_punct (by decide)) (closed_word t.text)

theorem Param.spelled (x : Param) : Spelled b x.pieces b :=
  .cons x.name.scans (spelled_typed x.type)

theorem Param.closed (x : Param) : Closed x.pieces :=
  .cons (flat_word x.name.text) (closed_typed x.type)

theorem closed_params (xs : List Param) : Closed (separated (xs.map Param.pieces)) := by
  apply closed_separated
  intro ps hps
  obtain ⟨x, -, rfl⟩ := List.mem_map.mp hps
  exact x.closed

theorem Params.spelled (params : Params) : Spelled b params.pieces b := by
  cases params with
  | bare x => exact .single x.scans
  | listed xs =>
    apply spelled_bracket (by decide) (by decide)
    apply spelled_separated
    intro ps hps
    obtain ⟨x, -, rfl⟩ := List.mem_map.mp hps
    exact x.spelled

theorem Params.closed (params : Params) : Closed params.pieces := by
  cases params with
  | bare x => exact closed_word x.text
  | listed xs => exact .bracket (by decide) (by decide) (closed_params xs)

theorem Path.spelled (d : Path) : Spelled b d.pieces b := by
  induction d with
  | word x => exact .single x.scans
  | member d x ih => exact ih.append (.cons (scans_punct (by decide)) (.single x.scans))

theorem Path.closed (d : Path) : Closed d.pieces := by
  induction d with
  | word x => exact closed_word x.text
  | member d x ih => exact ih.append (.cons (flat_punct (by decide)) (closed_word x.text))

mutual
theorem Expr.spelled (b : List Nat) : ∀ a : Expr, Spelled b a.pieces b
  | .member m => m.spelled b
  | .arrow params body =>
    params.spelled.append (.cons (scans_punct (by decide)) (body.spelled b))
  | .arrowBlock params body => by
    have hbody := Stmt.spelledAll (openBrace b) body
    have hblock := Spelled.cons scans_openBrace (hbody.append (.single scans_closeBrace))
    exact params.spelled.append (.cons (scans_punct (by decide)) hblock)

theorem Member.spelled (b : List Nat) : ∀ m : Member, Spelled b m.pieces b
  | .word x => .single x.scans
  | .this => .single (scans_keyword (by decide))
  | .number n => .single (scans_number n.starts n.goesOn)
  | .paren a => spelled_bracket (by decide) (by decide) (a.spelled b)
  | .template head parts => .cons (scans_templateHead head.plain) (parts.spelled b)
  | .property m x => (m.spelled b).append (.cons (scans_punct (by decide)) (.single x.scans))
  | .index m a => (m.spelled b).append (spelled_bracket (by decide) (by decide) (a.spelled b))
  | .call m args => by
    have hargs := spelled_separated (Expr.spelledEach b args)
    exact (m.spelled b).append (spelled_bracket (by decide) (by decide) hargs)
  | .construct d args => by
    have hargs := spelled_separated (Expr.spelledEach b args)
    have hlist := spelled_bracket (o := "(") (c := ")") (by decide) (by decide) hargs
    exact .cons (scans_keyword (by decide)) (d.spelled.append hlist)

theorem Parts.spelled (b : List Nat) : ∀ parts : Parts, Spelled (0 :: b) parts.pieces b
  | .last a tail => (a.spelled (0 :: b)).append (.single (scans_templateTail tail.plain))
  | .more a middle parts =>
    (a.spelled (0 :: b)).append (.cons (scans_templateMiddle middle.plain) (parts.spelled b))

theorem Expr.spelledEach (b : List Nat) : ∀ as : List Expr, ∀ ps ∈ Expr.piecesEach as,
    Spelled b ps b
  | [], _, hps => absurd hps List.not_mem_nil
  | a :: as, ps, hps => by
    rcases List.mem_cons.mp hps with rfl | hps
    · exact a.spelled b
    · exact Expr.spelledEach b as ps hps

theorem Stmt.spelled (b : List Nat) : ∀ s : Stmt, Spelled b s.pieces b
  | .const x type a => by
    have hvalue := (a.spelled b).append (.single (scans_punct (p := ";") (by decide)))
    have hrest := (spelled_typed type).append (.cons (scans_punct (p := "=") (by decide)) hvalue)
    exact .cons (scans_keyword (by decide)) (.cons x.scans hrest)
  | .ret a =>
    .cons (scans_keyword (by decide)) ((a.spelled b).append (.single (scans_punct (by decide))))
  | .expr a => (a.spelled b).append (.single (scans_punct (by decide)))

theorem Stmt.spelledAll (b : List Nat) : ∀ ss : List Stmt, Spelled b (Stmt.piecesAll ss) b
  | [] => .nil b
  | s :: ss => (s.spelled b).append (Stmt.spelledAll b ss)
end

mutual
theorem Expr.closed : ∀ a : Expr, Closed a.pieces
  | .member m => m.closed
  | .arrow params body => params.closed.append (.cons (flat_punct (by decide)) body.closed)
  | .arrowBlock params body => by
    have hblock := (Stmt.closedAll body).bracket (o := "\x7b") (c := "\x7d") (by decide) (by decide)
    exact params.closed.append (.cons (flat_punct (by decide)) hblock)

theorem Member.closed : ∀ m : Member, Closed m.pieces
  | .word x => closed_word x.text
  | .this => closed_word "this"
  | .number _ => .flat ⟨rfl, rfl⟩
  | .paren a => a.closed.bracket (by decide) (by decide)
  | .template _ parts => .cons ⟨rfl, rfl⟩ parts.closed
  | .property m x => m.closed.append (.cons (flat_punct (by decide)) (closed_word x.text))
  | .index m a => m.closed.append (a.closed.bracket (by decide) (by decide))
  | .call m args =>
    m.closed.append ((closed_separated (Expr.closedEach args)).bracket (by decide) (by decide))
  | .construct d args => .cons (flat_word "new") (d.closed.append
    ((closed_separated (Expr.closedEach args)).bracket (by decide) (by decide)))

theorem Parts.closed : ∀ parts : Parts, Closed parts.pieces
  | .last a _ => a.closed.append (.flat ⟨rfl, rfl⟩)
  | .more a _ parts => a.closed.append (.cons ⟨rfl, rfl⟩ parts.closed)

theorem Expr.closedEach : ∀ as : List Expr, ∀ ps ∈ Expr.piecesEach as, Closed ps
  | [], _, hps => absurd hps List.not_mem_nil
  | a :: as, ps, hps => by
    rcases List.mem_cons.mp hps with rfl | hps
    · exact a.closed
    · exact Expr.closedEach as ps hps

theorem Stmt.closed : ∀ s : Stmt, Closed s.pieces
  | .const x type a => by
    have hvalue := a.closed.append (.flat (flat_punct (p := ";") (by decide)))
    have hrest := (closed_typed type).append (.cons (flat_punct (p := "=") (by decide)) hvalue)
    exact .cons (flat_word "const") (.cons (flat_word x.text) hrest)
  | .ret a => .cons (flat_word "return") (a.closed.append (.flat (flat_punct (by decide))))
  | .expr a => a.closed.append (.flat (flat_punct (by decide)))

theorem Stmt.closedAll : ∀ ss : List Stmt, Closed (Stmt.piecesAll ss)
  | [] => .nil
  | s :: ss => s.closed.append (Stmt.closedAll ss)
end

/-- The pieces that an expression starts with. -/
inductive Starts : Piece → Prop
  | word (x : Word) : Starts (Piece.word x.text)
  | this : Starts (Piece.word "this")
  | new : Starts (Piece.word "new")
  | number (n : Numeral) : Starts ⟨.number, n.text, false⟩
  | paren : Starts (punct "(")
  | template (head : Letters) : Starts (templateHead head.chars)

theorem Member.starts (m : Member) : ∃ q qs, m.pieces = q :: qs ∧ Starts q := by
  match m with
  | .word x => exact ⟨_, _, rfl, .word x⟩
  | .this => exact ⟨_, _, rfl, .this⟩
  | .number n => exact ⟨_, _, rfl, .number n⟩
  | .paren a => exact ⟨_, _, rfl, .paren⟩
  | .template head parts => exact ⟨_, _, rfl, .template head⟩
  | .construct d args => exact ⟨_, _, rfl, .new⟩
  | .property m x =>
    obtain ⟨q, qs, heq, hq⟩ := m.starts
    exact ⟨q, _, by rw [Member.pieces, heq, List.cons_append], hq⟩
  | .index m a =>
    obtain ⟨q, qs, heq, hq⟩ := m.starts
    exact ⟨q, _, by rw [Member.pieces, heq, List.cons_append], hq⟩
  | .call m args =>
    obtain ⟨q, qs, heq, hq⟩ := m.starts
    exact ⟨q, _, by rw [Member.pieces, heq, List.cons_append], hq⟩

theorem Expr.starts (a : Expr) : ∃ q qs, a.pieces = q :: qs ∧ Starts q := by
  cases a with
  | member m => exact m.starts
  | arrow params body =>
    cases params with
    | bare x => exact ⟨_, _, rfl, .word x⟩
    | listed xs => exact ⟨_, _, rfl, .paren⟩
  | arrowBlock params body =>
    cases params with
    | bare x => exact ⟨_, _, rfl, .word x⟩
    | listed xs => exact ⟨_, _, rfl, .paren⟩

end Core

end Subscriptions
