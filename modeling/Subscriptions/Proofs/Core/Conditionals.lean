import Subscriptions.Proofs.Core.RoundTrip
import Subscriptions.Proofs.Lockstep.Following
import Subscriptions.Proofs.Types.Statements

namespace Subscriptions

namespace Grammar

open Piece

section
variable {shown shown' : Bool} {ps qs rs : List Piece} {q : Piece}

/-- Within brackets the search for an arrow passes over the pieces. -/
def Passed (ps : List Piece) : Prop := ∀ (depth : Nat) (ts rest : List Token),
  ts.map Token.piece = ps → typeThenArrow (depth + 1) (ts ++ rest) = typeThenArrow (depth + 1) rest

/-- Outside of brackets, too, unless an arrow is shown there. -/
structure Sought (shown : Bool) (ps : List Piece) : Prop where
  within : Passed ps
  without : ∀ ts rest : List Token, ts.map Token.piece = ps →
    typeThenArrow 0 (ts ++ rest) = (shown || typeThenArrow 0 rest)

theorem Passed.nil : Passed [] := by
  intro depth ts rest hts
  rw [List.map_eq_nil_iff.mp hts, List.nil_append]

theorem Passed.append (hp : Passed ps) (hq : Passed qs) : Passed (ps ++ qs) := by
  intro depth ts rest hts
  obtain ⟨ts₁, ts₂, rfl, h₁, h₂⟩ := List.map_eq_append_iff.mp hts
  rw [List.append_assoc, hp depth ts₁ (ts₂ ++ rest) h₁, hq depth ts₂ rest h₂]

theorem Passed.flat (h : Flat q) (hangle : q.isPunctOf ["<", ">"] = false) : Passed [q] := by
  intro depth ts rest hts
  obtain ⟨t, ts', rfl, ht, hts'⟩ := List.map_eq_cons_iff.mp hts
  rw [List.map_eq_nil_iff.mp hts']
  exact typeThenArrow_flat ht h hangle fun hdepth => absurd hdepth (Nat.succ_ne_zero _)

theorem Passed.cons (h : Flat q) (hangle : q.isPunctOf ["<", ">"] = false) (hp : Passed ps) :
    Passed (q :: ps) := (Passed.flat h hangle).append hp

theorem Sought.nil : Sought false [] where
  within := .nil
  without ts rest hts := by rw [List.map_eq_nil_iff.mp hts, List.nil_append, Bool.false_or]

theorem Sought.append (hp : Sought shown ps) (hq : Sought shown' qs) :
    Sought (shown || shown') (ps ++ qs) where
  within := hp.within.append hq.within
  without ts rest hts := by
    obtain ⟨ts₁, ts₂, rfl, h₁, h₂⟩ := List.map_eq_append_iff.mp hts
    rw [List.append_assoc, hp.without ts₁ (ts₂ ++ rest) h₁, hq.without ts₂ rest h₂, Bool.or_assoc]

/-- What shows no arrow may stand behind. -/
theorem Sought.behind (hp : Sought shown ps) (hq : Sought false qs) : Sought shown (ps ++ qs) := by
  simpa using hp.append hq

theorem Sought.flat (h : Flat q)
    (hmark : q.isPunctOf ["<", ">", "=>", ";", ",", "="] = false) : Sought false [q] where
  within := .flat h (isPunctOf_of_subset hmark (by decide))
  without ts rest hts := by
    obtain ⟨t, ts', rfl, ht, hts'⟩ := List.map_eq_cons_iff.mp hts
    rw [List.map_eq_nil_iff.mp hts', Bool.false_or]
    exact typeThenArrow_flat ht h (isPunctOf_of_subset hmark (by decide))
      fun _ => isPunctOf_of_subset hmark (by decide)

theorem Sought.cons (h : Flat q) (hmark : q.isPunctOf ["<", ">", "=>", ";", ",", "="] = false)
    (hp : Sought shown ps) : Sought shown (q :: ps) := by
  simpa using (Sought.flat h hmark).append hp

/-- Brackets hide the arrows in them. -/
theorem Sought.bracket {o c : String} (ho : o ∈ openers) (hc : c ∈ closers) (hp : Passed ps) :
    Sought false (punct o :: (ps ++ [punct c])) := by
  have hsame (depth : Nat) (ts rest : List Token)
      (hts : ts.map Token.piece = punct o :: (ps ++ [punct c])) :
      typeThenArrow depth (ts ++ rest) = typeThenArrow depth rest := by
    obtain ⟨t, us, u, vs, rfl, ht, hus, hu, hvs⟩ := exists_of_map_bracket hts
    rw [List.map_eq_nil_iff.mp hvs, List.cons_append, List.append_assoc,
      typeThenArrow_open ht (List.mem_cons_of_mem _ ho), hp depth us _ hus, List.singleton_append,
      typeThenArrow_close hu (List.mem_cons_of_mem _ hc)]
  refine ⟨fun depth => hsame (depth + 1), fun ts rest hts => ?_⟩
  rw [hsame 0 ts rest hts, Bool.false_or]

theorem Sought.arrow (hp : Sought false ps) (hq : Passed qs) :
    Sought true (ps ++ punct "=>" :: qs) where
  within := hp.within.append (.cons ⟨rfl, rfl⟩ rfl hq)
  without ts rest hts := by
    obtain ⟨ts₁, ts₂, rfl, h₁, h₂⟩ := List.map_eq_append_iff.mp hts
    obtain ⟨t, ts₃, rfl, ht, -⟩ := List.map_eq_cons_iff.mp h₂
    rw [List.append_assoc, hp.without ts₁ _ h₁, List.cons_append, typeThenArrow_arrow ht]
    rfl

/-- Parentheses before a colon are parameters where an arrow is shown up to the next semicolon. -/
theorem opensArrow_of_colon (hp : Closed ps) (hq : Sought shown qs) {ts : List Token}
    (hts : ts.map Token.piece =
      punct "(" :: (ps ++ punct ")" :: punct ":" :: (qs ++ punct ";" :: rs))) :
    opensArrow ts = shown := by
  have hrest := balanced_of_closed (by decide) (by decide) hp hts
  obtain ⟨t, rest, heq, ht, hrest'⟩ := List.map_eq_cons_iff.mp hrest
  obtain ⟨us, vs, rfl, hus, hvs⟩ := List.map_eq_append_iff.mp hrest'
  obtain ⟨v, vs, rfl, hv, -⟩ := List.map_eq_cons_iff.mp hvs
  have hcolon : t.isPunct "=>" = false ∧ t.isPunct ":" = true := by
    rw [isPunct_of_piece ht, isPunct_of_piece ht]
    exact ⟨rfl, rfl⟩
  rw [opensArrow, heq]
  simp only [hcolon, hq.without us _ hus, typeThenArrow_stop hv (by decide), Bool.false_or,
    Bool.true_and, Bool.or_false]

end

end Grammar

namespace Core

open Grammar Piece

mutual
/-- An arrow stands in the expression outside of all brackets. The substitutions of a template are
in none. -/
def Expr.showsArrow : Expr → Bool
  | .member m => m.showsArrow
  | .arrow _ _ => true
  | .arrowBlock _ _ => true

def Member.showsArrow : Member → Bool
  | .word _ => false
  | .this => false
  | .number _ => false
  | .paren _ => false
  | .template _ parts => parts.showsArrow
  | .property m _ => m.showsArrow
  | .index m _ => m.showsArrow
  | .call m _ => m.showsArrow
  | .construct _ _ => false

def Parts.showsArrow : Parts → Bool
  | .last a _ => a.showsArrow
  | .more a _ parts => a.showsArrow || parts.showsArrow
end

theorem sought_word (w : String) : Sought false [word w] := .flat (flat_word w) rfl

theorem passed_separated {pss : List (List Piece)} (h : ∀ ps ∈ pss, Passed ps) :
    Passed (separated pss) := by
  fun_induction separated pss with
  | case1 => exact .nil
  | case2 ps => exact h ps List.mem_cons_self
  | case3 ps qs rest ih =>
    have hrest := ih fun rs hrs => h rs (List.mem_cons_of_mem ps hrs)
    exact (h ps List.mem_cons_self).append (.cons (flat_punct (by decide)) rfl hrest)

theorem sought_typed (type : Option Word) : Sought false (typed type) := by
  cases type with
  | none => exact .nil
  | some t => exact .cons (flat_punct (by decide)) rfl (sought_word t.text)

theorem Params.sought (params : Params) : Sought false params.pieces := by
  cases params with
  | bare x => exact sought_word x.text
  | listed xs =>
    apply Sought.bracket (by decide) (by decide)
    apply passed_separated
    intro ps hps
    obtain ⟨x, -, rfl⟩ := List.mem_map.mp hps
    exact (Sought.cons (flat_word x.name.text) rfl (sought_typed x.type)).within

theorem Path.sought (d : Path) : Sought false d.pieces := by
  induction d with
  | word x => exact sought_word x.text
  | member d x ih => exact ih.append (.cons (flat_punct (by decide)) rfl (sought_word x.text))

mutual
/-- The search for an arrow finds the ones that an expression shows. -/
theorem Expr.sought : ∀ a : Expr, Sought a.showsArrow a.pieces
  | .member m => m.sought
  | .arrow params body => params.sought.arrow body.sought.within
  | .arrowBlock params body => by
    have hblock := Sought.bracket (o := "\x7b") (c := "\x7d") (by decide) (by decide)
      (Stmt.passedAll body)
    exact params.sought.arrow hblock.within

theorem Member.sought : ∀ m : Member, Sought m.showsArrow m.pieces
  | .word x => sought_word x.text
  | .this => sought_word "this"
  | .number _ => .flat ⟨rfl, rfl⟩ rfl
  | .paren a => .bracket (by decide) (by decide) a.sought.within
  | .template _ parts => .cons ⟨rfl, rfl⟩ rfl parts.sought
  | .property m x => m.sought.behind (.cons (flat_punct (by decide)) rfl (sought_word x.text))
  | .index m a => m.sought.behind (.bracket (by decide) (by decide) a.sought.within)
  | .call m args =>
    m.sought.behind (.bracket (by decide) (by decide) (passed_separated (Expr.passedEach args)))
  | .construct d args => .cons (flat_word "new") rfl (d.sought.behind
    (.bracket (by decide) (by decide) (passed_separated (Expr.passedEach args))))

theorem Parts.sought : ∀ parts : Parts, Sought parts.showsArrow parts.pieces
  | .last a _ => a.sought.behind (.flat ⟨rfl, rfl⟩ rfl)
  | .more a _ parts => a.sought.append (.cons ⟨rfl, rfl⟩ rfl parts.sought)

theorem Expr.passedEach : ∀ as : List Expr, ∀ ps ∈ Expr.piecesEach as, Passed ps
  | [], _, hps => absurd hps List.not_mem_nil
  | a :: as, ps, hps => by
    rcases List.mem_cons.mp hps with rfl | hps
    · exact a.sought.within
    · exact Expr.passedEach as ps hps

theorem Stmt.passed : ∀ s : Stmt, Passed s.pieces
  | .const x type a => by
    have hvalue := a.sought.within.append (.flat (flat_punct (p := ";") (by decide)) rfl)
    have hrest := (sought_typed type).within.append
      (.cons (flat_punct (p := "=") (by decide)) rfl hvalue)
    exact .cons (flat_word "const") rfl (.cons (flat_word x.text) rfl hrest)
  | .ret a => .cons (flat_word "return") rfl
    (a.sought.within.append (.flat (flat_punct (by decide)) rfl))
  | .expr a => a.sought.within.append (.flat (flat_punct (by decide)) rfl)

theorem Stmt.passedAll : ∀ ss : List Stmt, Passed (Stmt.piecesAll ss)
  | [] => .nil
  | s :: ss => s.passed.append (Stmt.passedAll ss)
end

open Subscriptions.Types Scanner

variable {fuel depth : Nat} {e : Expr} {rest : List Piece} (r c t : Identifier)

theorem reads_conditional (hshown : e.showsArrow = false) (hroom : Room e.levels (fuel + 8) depth)
    (hdepth : depth + 6 ≤ maxNesting) :
    Reads (conditional (rule (fuel + 8))) depth (word c.text :: punct "?" :: punct "(" ::
      word t.text :: punct ")" :: punct ":" :: (e.pieces ++ punct ";" :: rest)) (punct ";" :: rest)
      (·.shape = .node .conditional none none
        [c.shape, .node .parenthesized none none [t.shape], e.shape]) := by
  have hopens : ∀ ts : List Token, ts.map Token.piece = punct "(" :: word t.text :: punct ")" ::
      punct ":" :: (e.pieces ++ punct ";" :: rest) → opensArrow ts = false :=
    fun ts hts => (opensArrow_of_colon (closed_word t.text) e.sought hts).trans hshown
  have hcolon : Closes (punct ":") := closes_punct (by decide) (by decide)
  have hinner : Reads (rule (fuel + 4) .assignment) (depth + 3) (word t.text :: punct ")" ::
      punct ":" :: (e.pieces ++ punct ";" :: rest)) _ (·.shape = t.shape) :=
    reads_assignment t.operand (closes_of_mem (by decide)) rfl hdepth
      (reads_name t rfl rfl (by decide))
  have hgrouped : Reads (primary (rule (fuel + 4))) (depth + 3) (punct "(" :: word t.text ::
      punct ")" :: punct ":" :: (e.pieces ++ punct ";" :: rest)) _
      (·.shape = .node .parenthesized none none [t.shape]) :=
    reads_parenthesized hopens (reads_uncommaed rfl hinner)
  have hcondition : Reads (rule (fuel + 8) (.binary 0)) depth (word c.text :: punct "?" ::
      punct "(" :: word t.text :: punct ")" :: punct ":" :: (e.pieces ++ punct ";" :: rest)) _
      (·.shape = c.shape) :=
    reads_binary c.operand (closes_of_mem (by decide)) (by omega) 0
      (reads_name c rfl rfl (by decide))
  have htrue : Reads (rule (fuel + 8) .assignment) depth (punct "(" :: word t.text :: punct ")" ::
      punct ":" :: (e.pieces ++ punct ";" :: rest)) _
      (·.shape = .node .parenthesized none none [t.shape]) :=
    reads_assignment Starts.paren.operand hcolon rfl (by omega)
      (reads_access rfl hgrouped (climbs_stay hcolon))
  have hfalse := e.readable _ (Nat.le_refl _) (fuel + 8) depth (punct ";") rest (.punct (by decide))
    hroom
  apply reads_here
  intro start
  refine hcondition.bind fun condition hcondition => ?_
  refine reads_accept.bind ?_
  rintro _ rfl
  refine htrue.bind fun whenTrue htrue => ?_
  refine reads_expect.bind fun _ _ => ?_
  refine hfalse.bind fun whenFalse hfalse => ?_
  refine reads_build.imp fun node hnode => ?_
  rw [hnode, Node.shapes, Node.shapes, Node.shapes, hcondition, htrue, hfalse]
  rfl

def conditionalPieces (e : Expr) : List Piece :=
  word "const" :: word r.text :: punct "=" :: word c.text :: punct "?" :: punct "(" ::
    word t.text :: punct ")" :: punct ":" :: (e.pieces ++ [punct ";"])

/-- The same as a text, with a blank between each two tokens of the third operand. -/
def conditionalText (e : Expr) : String :=
  String.join ["const ", r.text, " = ", c.text, " ? (", t.text, ") : ",
    String.ofList (spaced e.pieces), ";"]

/-- What it stands for, with the shape of the third operand. -/
def conditionalShape (S : Shape) : Shape :=
  .node .variableStatement none none [.node .variableDeclaration (some r.text) none
    [.node .conditional none none [c.shape, .node .parenthesized none none [t.shape], S]]]

theorem reads_conditionalPieces (hshown : e.showsArrow = false) (hlevels : e.levels ≤ 50) :
    Reads (rule (5 * e.levels + 10) .statement) 0 (conditionalPieces r c t e) []
      (·.shape = conditionalShape r c t e.shape) := by
  have hlimit : maxNesting = 256 := rfl
  have hroom : Room e.levels (5 * e.levels + 8) 2 := by constructor <;> omega
  let value : List Piece := word c.text :: punct "?" :: punct "(" :: word t.text :: punct ")" ::
    punct ":" :: e.pieces
  have hvalue : Reads (rule (5 * e.levels + 9) .assignment) 1 (value ++ [punct ";"]) [punct ";"] _ :=
    reads_unassigned c.operand rfl (by decide) (reads_conditional c t hshown hroom (by decide))
  change Reads _ 0 (word "const" :: word r.text :: ([] ++ punct "=" :: (value ++ [punct ";"]))) [] _
  exact reads_constant rfl rfl rfl rfl (r.ne_reserved (by decide)) (by decide) ⟨_, _, rfl, rfl⟩
    (reads_untyped _ rfl) hvalue

/-- Up to the third operand the tokens of a conditional are written as they stand in its text. -/
def conditionalInks (e : Expr) : List Ink :=
  [key 0 "const", r.ink 1, mark 1 "=", c.ink 1, mark 1 "?", mark 1 "(", t.ink 0, mark 0 ")",
    mark 1 ":"] ++ (e.pieces.map (Ink.behind [' ']) ++ [mark 0 ";"])

theorem led_eq_chars (ps : List Piece) : led ps = Ink.chars (ps.map (Ink.behind [' '])) := by
  simp [led, Ink.chars, Ink.behind, List.flatMap_map]

theorem chars_conditionalInks (e : Expr) :
    Ink.chars (conditionalInks r c t e) = (conditionalText r c t e).toList := by
  obtain ⟨q, qs, heq, -⟩ := e.starts
  simp [conditionalInks, conditionalText, heq, spaced, led_eq_chars, Ink.behind, blanks]

theorem written_conditionalInks (e : Expr) : Written [] (conditionalInks r c t e) [] [] := by
  have hend : Written [] [mark 0 ";"] [] [] := written_single (by decide) (.nil _ _)
  have hthird : Written [] (e.pieces.map (Ink.behind [' ']) ++ [mark 0 ";"]) [] [] :=
    ((e.spelled []).written (.inr ⟨_, .inr rfl⟩)).append hend
  have hquestion {is : List Ink} (h : Written [] (mark 1 "(" :: is) [] []) :
      Written [] (mark 1 "?" :: mark 1 "(" :: is) [] [] :=
    written_behind ((scans_punct (by decide)).scansAt (.inr ⟨_, .inl rfl⟩)) h
  refine written_key (by decide) ?_ (r.written ?_ (written_mark (by decide) ?_ (c.written ?_
    (hquestion (written_single (by decide) (t.written ?_ (written_single (by decide)
      (written_single (by decide) hthird))))))))
  · simp [blanks]
    decide
  · simp [blanks]
    decide
  · intro d hd
    obtain rfl : ' ' = d := by simpa [blanks] using hd
    decide
  · simp [blanks]
    decide
  · simp [blanks]
    decide

end Core

namespace Parsed

open Subscriptions.Core Grammar Piece Subscriptions.Types

/-- A conditional whose second operand is a name in parentheses stands for its three operands, the
third one for what it is read as by itself, however they are laid out in a line. No arrow may stand
in the third operand outside of brackets. -/
theorem ofSource_conditional (r c t : Identifier) (e : Expr) (hshown : e.showsArrow = false)
    (hlevels : e.levels ≤ 50) :
    Consists (conditionalText r c t e).toList (conditionalPieces r c t e) ∧
    (∀ source, Consists source (e.pieces ++ [punct ";"]) → (ofSource source).faults = [] ∧
      (ofSource source).root.shape =
        .node .sourceFile none none [.node .expressionStatement none none [e.shape]]) ∧
    ∀ source, Consists source (conditionalPieces r c t e) → (ofSource source).faults = [] ∧
      (ofSource source).root.shape =
        .node .sourceFile none none [conditionalShape r c t e.shape] := by
  refine ⟨?_, fun source hsource => ?_, fun source hsource => ?_⟩
  · have hpieces : (conditionalInks r c t e).map Ink.piece = conditionalPieces r c t e := by
      simp [conditionalInks, conditionalPieces, Function.comp_def, Ink.behind]
    rw [← chars_conditionalInks, ← hpieces]
    exact consists_written (written_conditionalInks r c t e)
  · have hroom : Room (Stmt.levelsAll [.expr e]) 250 1 := by
      have hlimit : maxNesting = 256 := rfl
      have hsame : Stmt.levelsAll [.expr e] = e.levels := Nat.max_zero _
      constructor <;> omega
    have hpieces : e.pieces ++ [punct ";"] = Stmt.piecesAll [.expr e] := (List.append_nil _).symm
    rw [hpieces] at hsource
    exact hsource.reads (Parsed.reads_statements hroom)
  · exact hsource.reads (Types.reads_statements (List.cons_ne_nil _ _)
      (reads_conditionalPieces r c t hshown hlevels))

/-- An arrow in a call is in brackets: `const r = c ? (t) : f(x => x);`. -/
theorem ofSource_conditional_call :
    let r : Identifier := ⟨⟨'r', [], by decide, by decide⟩, by decide⟩
    let c : Identifier := ⟨⟨'c', [], by decide, by decide⟩, by decide⟩
    let t : Identifier := ⟨⟨'t', [], by decide, by decide⟩, by decide⟩
    let f : Word := ⟨'f', [], by decide, by decide, by decide⟩
    let x : Word := ⟨'x', [], by decide, by decide, by decide⟩
    let e : Expr := .member (.call (.word f) [.arrow (.bare x) (.member (.word x))])
    let source := "const r = c ? (t) : f(x => x);".toList
    e.showsArrow = false ∧ e.levels ≤ 50 ∧ Consists source (conditionalPieces r c t e) ∧
      (ofSource source).faults = [] ∧ (ofSource source).root.shape =
        .node .sourceFile none none [conditionalShape r c t e.shape] := by
  intro r c t f x e source
  have hsource : Consists source (conditionalPieces r c t e) :=
    ⟨by decide, by decide⟩
  have hlevels : e.levels ≤ 50 := by decide
  exact ⟨rfl, hlevels, hsource, (ofSource_conditional r c t e rfl hlevels).2.2 source hsource⟩

/-- An arrow outside of brackets makes parameters of the name: `const r = c ? (t) : x => x;`. -/
theorem ofSource_conditional_arrow : ∃ (r c t : Identifier) (e : Expr),
    conditionalText r c t e = "const r = c ? (t) : x => x;" ∧ e.levels ≤ 50 ∧
    (ofSource (conditionalText r c t e).toList).faults ≠ [] ∧
    (ofSource (conditionalText r c t e).toList).root.shape ≠
      .node .sourceFile none none [conditionalShape r c t e.shape] := by
  let x : Word := ⟨'x', [], by decide, by decide, by decide⟩
  exact ⟨⟨⟨'r', [], by decide, by decide⟩, by decide⟩, ⟨⟨'c', [], by decide, by decide⟩, by decide⟩,
    ⟨⟨'t', [], by decide, by decide⟩, by decide⟩, .arrow (.bare x) (.member (.word x)),
    by decide +kernel, by decide, by decide +kernel, by decide +kernel⟩

end Parsed

end Subscriptions
