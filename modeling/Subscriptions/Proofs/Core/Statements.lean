import Subscriptions.Proofs.Core.Members

namespace Subscriptions.Core

open Grammar Piece Scanner

variable {go : Recur} {fuel depth start n : Nat} {q r : Piece} {qs rs rest after : List Piece}
  {S T : Shape} {s : State} {a : Expr} {ss : List Stmt}

theorem Starts.not_colon (h : Starts q) : q.isPunct ":" = false := h.isPunct_eq_false (by decide)

/-- No colon comes after the first piece of a member access. -/
theorem Member.second : ∀ (m : Member) {r : Piece} {rs : List Piece}, r.isPunct ":" = false →
    ∃ q r' rs', m.pieces ++ r :: rs = q :: r' :: rs' ∧ Starts q ∧ r'.isPunct ":" = false
  | .word x, r, rs, hr => ⟨_, r, rs, rfl, .word x, hr⟩
  | .this, r, rs, hr => ⟨_, r, rs, rfl, .this, hr⟩
  | .number n, r, rs, hr => ⟨_, r, rs, rfl, .number n, hr⟩
  | .paren a, r, rs, _ => by
    obtain ⟨q, qs, heq, hq⟩ := a.starts
    refine ⟨punct "(", q, qs ++ [punct ")"] ++ r :: rs, ?_, .paren, hq.not_colon⟩
    rw [Member.pieces, heq]
    rfl
  | .template head parts, r, rs, _ => by
    have hparts : ∃ q qs, parts.pieces = q :: qs ∧ Starts q := by
      cases parts with
      | last a tail =>
        obtain ⟨q, qs, heq, hq⟩ := a.starts
        exact ⟨q, _, by rw [Parts.pieces, heq, List.cons_append], hq⟩
      | more a middle parts =>
        obtain ⟨q, qs, heq, hq⟩ := a.starts
        exact ⟨q, _, by rw [Parts.pieces, heq, List.cons_append], hq⟩
    obtain ⟨q, qs, heq, hq⟩ := hparts
    refine ⟨templateHead head.chars, q, qs ++ r :: rs, ?_, .template head, hq.not_colon⟩
    rw [Member.pieces, heq]
    rfl
  | .property m x, r, rs, _ => by
    rw [Member.pieces, List.append_assoc]
    exact m.second rfl
  | .index m a, r, rs, _ => by
    rw [Member.pieces, List.append_assoc]
    exact m.second rfl
  | .call m args, r, rs, _ => by
    rw [Member.pieces, List.append_assoc]
    exact m.second rfl
  | .construct d args, r, rs, _ => by
    obtain ⟨x, qs, heq⟩ := d.starts
    rw [Member.pieces, heq]
    exact ⟨_, _, _, rfl, .new, rfl⟩

theorem Params.second (params : Params) : ∃ q r' rs',
    params.pieces ++ punct "=>" :: rs = q :: r' :: rs' ∧ Starts q ∧ r'.isPunct ":" = false := by
  cases params with
  | bare x => exact ⟨_, _, _, rfl, .word x, rfl⟩
  | listed xs =>
    cases xs with
    | nil => exact ⟨_, _, _, rfl, .paren, rfl⟩
    | cons x xs =>
      have hfirst : ∃ qs, separated ((x :: xs).map Param.pieces) = Piece.word x.name.text :: qs := by
        cases xs with
        | nil => exact ⟨_, rfl⟩
        | cons y ys => exact ⟨_, rfl⟩
      obtain ⟨qs, heq⟩ := hfirst
      rw [Params.pieces, heq]
      exact ⟨_, _, _, rfl, .paren, rfl⟩

theorem Expr.second (a : Expr) (rs : List Piece) (hr : r.isPunct ":" = false) : ∃ q r' rs',
    a.pieces ++ r :: rs = q :: r' :: rs' ∧ Starts q ∧ r'.isPunct ":" = false := by
  cases a with
  | member m => exact m.second hr
  | arrow params body =>
    rw [Expr.pieces, List.append_assoc]
    exact params.second
  | arrowBlock params body =>
    rw [Expr.pieces, List.append_assoc]
    exact params.second

theorem statementForm_expression (hs : s.pieces = q :: r :: rs) (hq : Starts q)
    (hr : r.isPunct ":" = false) : statementForm s = .expression := by
  have hnext : (s.ahead 1).isPunct ":" = false := by
    rw [← hr, ← State.piece_ahead_one hs]
    rfl
  have hkind := State.kind_current hs
  have htext := State.text_current hs
  cases hq with
  | word x =>
    have hplain : x.text ∉ keywords := x.plain
    simp only [keywords, List.mem_cons, not_or] at hplain
    simp [statementForm, wordStatementForm, hkind, htext, Piece.word, hplain, hnext]
  | this => simp [statementForm, wordStatementForm, hkind, htext, Piece.word, hnext]
  | new => simp [statementForm, wordStatementForm, hkind, htext, Piece.word, hnext]
  | number n => simp [statementForm, hkind]
  | paren => simp [statementForm, punctForm, hkind, htext, punct]
  | template head => simp [statementForm, hkind, templateHead]

theorem statementForm_const {x : String} (hx : x ≠ "enum")
    (hs : s.pieces = word "const" :: word x :: rs) : statementForm s = .variables := by
  have hkind := State.kind_current hs
  have htext := State.text_current hs
  have hnext := State.piece_ahead_one hs
  have hword : (s.ahead 1).isWord = true := by
    change (s.ahead 1).piece.isWord = true
    rw [hnext]
    rfl
  have henum : (s.ahead 1).text ≠ "enum" := by
    rwa [show (s.ahead 1).text = x from congrArg Piece.text hnext]
  simp [statementForm, wordStatementForm, hkind, htext, Piece.word, hword, henum]

theorem statementForm_return (hs : s.pieces = word "return" :: rs) :
    statementForm s = .returning := by
  have hkind := State.kind_current hs
  have htext := State.text_current hs
  simp [statementForm, wordStatementForm, hkind, htext, Piece.word]

/-- The grammar reads the text of a statement as what it stands for, whatever comes next. -/
def ReadableStmt (t : Stmt) : Prop := ∀ fuel depth rest, Room t.levels fuel (depth + 1) →
  Reads (rule (fuel + 1) .statement) depth (t.pieces ++ rest) rest (·.shape = t.shape)

/-- A declaration, and whether a comma asks for another one. -/
def declarationTurn (go : Recur) : Parse (List Node × Bool) := do
  let node ← variableDeclaration go
  return ([node], ← accept ",")

def variableStops : List String := ["=", ",", ";", ")", "\x7d", "of", "in"]

theorem reads_variableName {V : Type} [Seen V] {name : V} {vs : List V} {x : String}
    (hname : Seen.piece name = word x) :
    Reads variableName depth (name :: vs) vs (·.map Name.text = some x) := by
  refine .step ?_
  rw [hname]
  apply reads_look
  intro s hs
  rw [State.isWord_eq hs]
  exact reads_takeName.bind fun name hname => reads_pure (congrArg some hname)

/-- A constant, around what is read as its type and its value, if it has one. No comma comes behind
it, and a semicolon or none. -/
theorem reads_declaring {V : Type} [Seen V] {keyword name : V} {is js ks ls : List V} {x : String}
    {declared : Option String} {values : List Shape}
    (hkeyword : Seen.piece keyword = word "const") (hname : Seen.piece name = word x)
    (hx : x ≠ "enum") (hdepth : depth < maxNesting)
    (hbang : Reads (optional "!") (depth + 1) is is fun _ => True)
    (htype : Reads ( annotation variableStops) (depth + 1) is js (· = declared))
    (hvalue : Reads (initializer (rule fuel)) (depth + 1) js ks (Node.shapes · = values))
    (hcomma : Reads (accept ",") (depth + 1) ks ks (· = false))
    (hsemicolon : Reads (optional ";") (depth + 1) ks ls fun _ => True) :
    Reads (rule (fuel + 1) .statement) depth (keyword :: name :: is) ls
      (·.shape = .node .variableStatement none none
        [.node .variableDeclaration (some x) declared values]) := by
  have hdeclaration : Reads (variableDeclaration (rule fuel)) (depth + 1) (name :: is) ks
      (·.shape = .node .variableDeclaration (some x) declared values) := by
    apply reads_here
    intro start
    refine (reads_variableName hname).bind fun name hname => ?_
    refine hbang.bind fun _ _ => ?_
    refine htype.bind ?_
    rintro _ rfl
    refine hvalue.bind fun nodes hnodes => ?_
    refine reads_build.imp fun node hnode => ?_
    rw [hnode, hnodes, hname]
  have hdeclarations : Reads (gather (declarationTurn (rule fuel))) (depth + 1) (name :: is) ks
      (Node.shapes · = [.node .variableDeclaration (some x) declared values]) := by
    apply Loops.gather
    apply Loops.last
    refine hdeclaration.bind fun node hnode => hcomma.bind ?_
    rintro _ rfl
    refine reads_pure ⟨rfl, ?_⟩
    rw [Node.shapes, hnode]
    rfl
  have hstatement : Reads (variableStatement (rule fuel)) (depth + 1) (keyword :: name :: is) ks
      (·.shape = .node .variableStatement none none
        [.node .variableDeclaration (some x) declared values]) := by
    apply reads_here
    intro start
    refine Reads.bind (.step reads_advance) fun _ _ => ?_
    refine hdeclarations.bind fun nodes hnodes => ?_
    refine reads_build.imp fun node hnode => ?_
    rw [hnode, hnodes]
    rfl
  apply reads_nested hdepth
  apply reads_here
  intro start
  apply reads_look
  intro s hs
  have hform : statementForm s = .variables := by
    have hs := State.pieces_of_seen hs
    rw [List.map_cons, List.map_cons, hkeyword, hname] at hs
    exact statementForm_const hx hs
  rw [hform]
  refine hstatement.bind fun node hnode => ?_
  exact hsemicolon.bind fun _ _ => reads_pure hnode

/-- The same with a value and a semicolon. -/
theorem reads_constant {V : Type} [Seen V] {keyword name equals semicolon : V}
    {type value vs : List V} {x : String} {declared : Option String}
    (hkeyword : Seen.piece keyword = word "const") (hname : Seen.piece name = word x)
    (hequals : Seen.piece equals = punct "=") (hsemicolon : Seen.piece semicolon = punct ";")
    (hx : x ≠ "enum") (hdepth : depth < maxNesting)
    (hfirst : ∃ u us, type ++ equals :: (value ++ semicolon :: vs) = u :: us ∧
      (Seen.piece u).isPunct "!" = false)
    (htype : Reads ( annotation variableStops) (depth + 1)
      (type ++ equals :: (value ++ semicolon :: vs)) (equals :: (value ++ semicolon :: vs))
      (· = declared))
    (hvalue : Reads (rule fuel .assignment) (depth + 1) (value ++ semicolon :: vs)
      (semicolon :: vs) (·.shape = S)) :
    Reads (rule (fuel + 1) .statement) depth
      (keyword :: name :: (type ++ equals :: (value ++ semicolon :: vs))) vs
      (·.shape = .node .variableStatement none none
        [.node .variableDeclaration (some x) declared [S]]) := by
  have hbang : Reads (optional "!") (depth + 1) (type ++ equals :: (value ++ semicolon :: vs))
      (type ++ equals :: (value ++ semicolon :: vs)) fun _ => True := by
    obtain ⟨u, us, heq, hu⟩ := hfirst
    rw [heq]
    exact .stay (reads_optional_not hu)
  have hinitializer : Reads (initializer (rule fuel)) (depth + 1)
      (equals :: (value ++ semicolon :: vs)) (semicolon :: vs) (Node.shapes · = [S]) := by
    have haccept : Reads (accept "=") (depth + 1) (equals :: (value ++ semicolon :: vs))
        (value ++ semicolon :: vs) (· = true) := .step (by rw [hequals]; exact reads_accept)
    refine haccept.bind ?_
    rintro _ rfl
    refine hvalue.bind fun node hnode => reads_pure ?_
    rw [Node.shapes, hnode]
    rfl
  refine reads_declaring hkeyword hname hx hdepth hbang htype hinitializer (.stay ?_) (.step ?_)
  · apply reads_accept_not
    rw [hsemicolon]
    rfl
  · rw [hsemicolon]
    exact reads_optional

theorem reads_const (x : Word) (type : Option Word) (ha : Readable a) :
    ReadableStmt (.const x type a) := by
  intro fuel depth rest hroom
  have heq : (Stmt.const x type a).pieces ++ rest = word "const" ::
      word x.text :: (typed type ++ punct "=" :: (a.pieces ++ punct ";" :: rest)) := by
    simp [Stmt.pieces]
  rw [heq]
  refine reads_constant rfl rfl rfl rfl (x.ne_keyword (by decide)) hroom.depth_lt ?_
    (reads_typed type (by decide) (by decide) (by decide))
    (ha fuel (depth + 1) _ _ (.punct (by decide)) hroom)
  cases type with
  | none => exact ⟨_, _, rfl, rfl⟩
  | some t => exact ⟨_, _, rfl, rfl⟩

/-- A return in one line, around what is read as its value. -/
theorem reads_returned {V : Type} [Seen V] {keyword v semicolon : V} {vs is js : List V}
    (hkeyword : Seen.piece keyword = word "return") (hsemicolon : Seen.piece semicolon = punct ";")
    (hv : (Seen.piece v).isPunct ";" = false ∧ (Seen.piece v).isPunct "\x7d" = false ∧
      (Seen.piece v).newlineBefore = false) (his : is = v :: vs) (hdepth : depth < maxNesting)
    (hvalue : Reads (expression (rule fuel)) (depth + 1) is (semicolon :: js) (·.shape = S)) :
    Reads (rule (fuel + 1) .statement) depth (keyword :: is) js
      (·.shape = .node .returnStatement none none [S]) := by
  subst his
  apply reads_nested hdepth
  apply reads_here
  intro start
  apply reads_look
  intro s hs
  have hform : statementForm s = .returning := by
    have hs := State.pieces_of_seen hs
    rw [List.map_cons, hkeyword] at hs
    exact statementForm_return hs
  rw [hform]
  apply reads_here
  intro start
  refine Reads.bind (.step reads_advance) fun _ _ => ?_
  apply reads_look
  intro s hs
  have hs := State.pieces_of_seen hs
  have hgoes : (s.isAt ";" || s.isAt "\x7d" || s.atEnd || s.current.newlineBefore) = false := by
    obtain ⟨hsemi, hbrace, hline⟩ := hv
    rw [State.isAt_eq hs, State.isAt_eq hs, State.atEnd_eq hs, State.newline_current hs, hsemi,
      hbrace, hline]
    rfl
  rw [hgoes, if_neg Bool.false_ne_true]
  refine hvalue.bind fun node hnode => ?_
  refine (reads_pure (Q := (· = [node])) rfl).bind ?_
  rintro _ rfl
  refine Reads.bind (.step (by rw [hsemicolon]; exact reads_optional)) fun _ _ => ?_
  refine reads_build.imp fun node' hnode' => ?_
  rw [hnode', Node.shapes, hnode]
  rfl

theorem reads_return (ha : Readable a) : ReadableStmt (.ret a) := by
  intro fuel depth rest hroom
  obtain ⟨q, qs, heq, hq⟩ := a.starts
  have hread : Reads (expression (rule fuel)) (depth + 1) (a.pieces ++ punct ";" :: rest)
      (punct ";" :: rest) (·.shape = a.shape) :=
    reads_expression ha hroom (.punct (by decide)) rfl
  have hline : q.newlineBefore = false := by
    cases hq <;> rfl
  have hfirst : a.pieces ++ punct ";" :: rest = q :: (qs ++ punct ";" :: rest) := by
    rw [heq, List.cons_append]
  rw [Stmt.pieces, List.cons_append, List.append_assoc]
  exact reads_returned rfl rfl ⟨hq.isPunct_eq_false (by decide), hq.isPunct_eq_false (by decide),
    hline⟩ hfirst hroom.depth_lt hread

theorem optional_stay {p : String} (h : s.isAt p = false) :
    optional p depth s = some ((), s) := by
  simp only [Grammar.optional, accept, look, Parse.bind_run, Option.bind_some, h, Bool.false_eq_true,
    if_false, Parse.pure_run]

/-- An expression is a statement, with a semicolon or none. -/
theorem expressionStatement_run {node : Node} {s₁ s₂ : State} (hform : statementForm s = .expression)
    (hdepth : depth < maxNesting) (h : expression (rule fuel) (depth + 1) s = some (node, s₁))
    (hsemicolon : optional ";" (depth + 1) s₁ = some ((), s₂)) :
    rule (fuel + 1) .statement depth s =
      build .expressionStatement s.current.span.start [node] (depth + 1) s₂ := by
  change nested (statement (rule fuel)) depth s = _
  rw [nested_run hdepth]
  simp only [statement, expressionStatement, here, look, Parse.bind_run, Option.bind_some, hform, h,
    hsemicolon]

theorem reads_expressionStatement (ha : Readable a) : ReadableStmt (.expr a) := by
  intro fuel depth rest hroom
  obtain ⟨q, r, rs, heq, hq, hr⟩ := a.second rest (show (punct ";").isPunct ":" = false from rfl)
  have hread : Reads (expression (rule fuel)) (depth + 1) (a.pieces ++ punct ";" :: rest)
      (punct ";" :: rest) (·.shape = a.shape) :=
    reads_expression ha hroom (.punct (by decide)) rfl
  rw [Stmt.pieces, List.append_assoc]
  apply reads_nested hroom.depth_lt
  apply reads_here
  intro start
  apply reads_look
  intro s hs
  rw [statementForm_expression (hs.trans heq) hq hr]
  refine hread.bind fun node hnode => ?_
  refine reads_optional.bind fun _ _ => ?_
  refine reads_build.imp fun node' hnode' => ?_
  rw [hnode', Node.shapes, hnode]
  rfl

theorem Stmt.readable (hin : ∀ a : Expr, a.levels ≤ n → Readable a) (t : Stmt)
    (ht : t.levels ≤ n) : ReadableStmt t := by
  cases t with
  | const x type a => exact reads_const x type (hin a ht)
  | ret a => exact reads_return (hin a ht)
  | expr a => exact reads_expressionStatement (hin a ht)

/-- A statement starts with no closing brace. -/
theorem Stmt.first (t : Stmt) : ∃ q qs, t.pieces = q :: qs ∧ q.isPunct "\x7d" = false := by
  cases t with
  | const x type a => exact ⟨_, _, rfl, rfl⟩
  | ret a => exact ⟨_, _, rfl, rfl⟩
  | expr a =>
    obtain ⟨q, qs, heq, hq⟩ := a.starts
    exact ⟨q, _, by rw [Stmt.pieces, heq, List.cons_append], hq.isPunct_eq_false (by decide)⟩

theorem Stmt.levels_le_levelsAll {t : Stmt} (ht : t ∈ ss) : t.levels ≤ Stmt.levelsAll ss := by
  induction ss with
  | nil => cases ht
  | cons u us ih =>
    rw [Stmt.levelsAll]
    rcases List.mem_cons.mp ht with rfl | ht
    · exact Nat.le_max_left ..
    · exact Nat.le_trans (ih ht) (Nat.le_max_right ..)

def statementTurn (go : Recur) : Parse (List Node × Bool) := do
  let (node, progress) ← moved (go .statement)
  if !progress then
    report .statement
    advance
  return ([node], true)

theorem reads_statementTurn {V : Type} [Seen V] {is js : List V} (hshorter : js.length < is.length)
    (h : Reads (go .statement) depth is js (·.shape = S)) :
    Reads (statementTurn go) depth is js fun r => r.2 = true ∧ Node.shapes r.1 = [S] := by
  refine (reads_moved hshorter h).bind ?_
  rintro ⟨node, progress⟩ ⟨rfl, hnode⟩
  refine reads_pure ⟨rfl, ?_⟩
  rw [Node.shapes, hnode]
  rfl

def blockTurn (go : Recur) : Parse (List Node × Bool) := do
  let s ← look
  if s.isAt "\x7d" || s.atEnd then return ([], false)
  else statementTurn go

def sourceTurn (go : Recur) : Parse (List Node × Bool) := do
  if (← look).atEnd then return ([], false)
  else statementTurn go

section
variable {V : Type} [Seen V] {v o c : V} {vs is js : List V} {shapes : List Shape}

theorem reads_blockTurn (hv : (Seen.piece v).isPunct "\x7d" = false)
    (hshorter : js.length < (v :: vs).length)
    (h : Reads (go .statement) depth (v :: vs) js (·.shape = S)) :
    Reads (blockTurn go) depth (v :: vs) js fun r => r.2 = true ∧ Node.shapes r.1 = [S] := by
  apply reads_look
  intro s hs
  have hs := State.pieces_of_seen hs
  rw [State.isAt_eq hs, hv, State.atEnd_eq hs, Bool.or_false, if_neg Bool.false_ne_true]
  exact reads_statementTurn hshorter h

theorem reads_blockTurn_stop (hc : Seen.piece c = punct "\x7d") : Reads (blockTurn go) depth
    (c :: js) (c :: js) fun r => r.2 = false ∧ Node.shapes r.1 = [] := by
  apply reads_look
  intro s hs
  have hs := State.pieces_of_seen hs
  rw [List.map_cons, hc] at hs
  rw [State.isAt_punct hs]
  exact reads_pure ⟨rfl, rfl⟩

/-- A block, around what is read as its statements. -/
theorem reads_braced (ho : Seen.piece o = punct "\x7b") (hc : Seen.piece c = punct "\x7d")
    (h : Loops (blockTurn go) depth is (c :: js) shapes) :
    Reads (block go) depth (o :: is) js (·.shape = .node .block none none shapes) := by
  have hstatements : Reads (statementsToBrace go) depth is (c :: js) (Node.shapes · = shapes) :=
    h.gather
  apply reads_here
  intro start
  refine Reads.bind (.step (by rw [ho]; exact reads_expect)) fun _ _ => ?_
  refine hstatements.bind fun nodes hnodes => ?_
  refine Reads.bind (.step (by rw [hc]; exact reads_expect)) fun _ _ => ?_
  refine reads_build.imp fun node hnode => ?_
  rw [hnode, hnodes]
  rfl

theorem reads_sourceTurn (hshorter : js.length < is.length)
    (h : Reads (go .statement) depth is js (·.shape = S)) :
    Reads (sourceTurn go) depth is js fun r => r.2 = true ∧ Node.shapes r.1 = [S] := by
  obtain ⟨v, vs, rfl⟩ := List.exists_cons_of_length_pos (Nat.zero_lt_of_lt hshorter)
  apply reads_look
  intro s hs
  rw [State.atEnd_eq (State.pieces_of_seen hs), if_neg Bool.false_ne_true]
  exact reads_statementTurn hshorter h

theorem reads_sourceTurn_stop : Reads (sourceTurn go) depth ([] : List V) [] fun r =>
    r.2 = false ∧ Node.shapes r.1 = [] := by
  apply reads_look
  intro s hs
  rw [State.atEnd_nil (State.pieces_of_seen hs)]
  exact reads_pure ⟨rfl, rfl⟩

end

theorem Stmt.length_lt (t : Stmt) (rest : List Piece) :
    rest.length < (t.pieces ++ rest).length := by
  obtain ⟨q, qs, heq, -⟩ := t.first
  rw [heq, List.length_append, List.length_cons]
  omega

theorem loops_statements {turn : Parse (List Node × Bool)}
    (hturn : ∀ t ∈ ss, ∀ rest, Reads turn depth (t.pieces ++ rest) rest
      fun r => r.2 = true ∧ Node.shapes r.1 = [t.shape])
    (hstop : Reads turn depth rest rest fun r => r.2 = false ∧ Node.shapes r.1 = []) :
    Loops turn depth (Stmt.piecesAll ss ++ rest) rest (Stmt.shapes ss) := by
  induction ss with
  | nil => exact Loops.last hstop
  | cons t ts ih =>
    have hlater := ih fun u hu => hturn u (List.mem_cons_of_mem t hu)
    have hnow := hturn t List.mem_cons_self (Stmt.piecesAll ts ++ rest)
    rw [Stmt.piecesAll, List.append_assoc]
    exact Loops.more hnow (t.length_lt _) hlater

theorem reads_block (hss : ∀ t ∈ ss, ReadableStmt t)
    (hroom : Room (Stmt.levelsAll ss) fuel (depth + 1)) (rest : List Piece) :
    Reads (block (rule (fuel + 1))) depth
      (punct "\x7b" :: (Stmt.piecesAll ss ++ punct "\x7d" :: rest)) rest
      (·.shape = .node .block none none (Stmt.shapes ss)) := by
  have hloop : Loops (blockTurn (rule (fuel + 1))) depth (Stmt.piecesAll ss ++ punct "\x7d" :: rest)
      (punct "\x7d" :: rest) (Stmt.shapes ss) := by
    apply loops_statements
    · intro t ht rest
      have hshorter := t.length_lt rest
      have hstatement := hss t ht fuel depth rest (hroom.mono (Stmt.levels_le_levelsAll ht))
      obtain ⟨q, qs, heq, hq⟩ := t.first
      rw [heq] at hshorter hstatement ⊢
      exact reads_blockTurn hq hshorter hstatement
    · exact reads_blockTurn_stop rfl
  exact reads_braced rfl rfl hloop

end Subscriptions.Core
