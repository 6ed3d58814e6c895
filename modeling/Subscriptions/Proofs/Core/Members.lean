import Subscriptions.Proofs.Core.Expressions

namespace Subscriptions.Core

open Grammar Piece Scanner

variable {go : Recur} {fuel depth start n : Nat} {q r : Piece} {qs rs rest after : List Piece}
  {S T : Shape} {s : State} {node : Node} {a : Expr} {as : List Expr}

section
variable {V : Type} [Seen V] {v : V} {vs ws : List V} {Q : Node → Prop}

theorem reads_primary_of_word {w : String} (hv : Seen.piece v = word w)
    (h : Reads (wordPrimary go) depth (v :: vs) ws Q) :
    Reads (primary go) depth (v :: vs) ws Q := by
  apply reads_here
  intro start
  apply reads_look
  intro s hs
  rw [State.kind_current (State.pieces_of_seen hs), hv]
  exact h

theorem reads_primary_of_punct {p : String} (hv : Seen.piece v = punct p)
    (h : ∀ start, Reads (punctPrimary go start) depth (v :: vs) ws Q) :
    Reads (primary go) depth (v :: vs) ws Q := by
  apply reads_here
  intro start
  apply reads_look
  intro s hs
  rw [State.kind_current (State.pieces_of_seen hs), hv]
  exact h start

theorem reads_primary_of_paren (hv : Seen.piece v = punct "(")
    (h : ∀ (start : Nat) (s : State), s.seen = v :: vs →
      Reads (if opensArrow s.rest then arrow go start else parenthesized go start) depth
        (v :: vs) ws Q) :
    Reads (primary go) depth (v :: vs) ws Q := by
  refine reads_primary_of_punct hv fun start => ?_
  apply reads_look
  intro s hs
  have hat : s.isAt "(" = true := by
    rw [State.isAt_eq (State.pieces_of_seen hs), hv]
    rfl
  rw [if_pos hat]
  exact h start s hs

end

theorem wordForm_plain (x : Word) (hs : s.pieces = word x.text :: r :: rs) :
    wordForm s = if r.isPunct "=>" && !r.newlineBefore then .arrow else .identifier := by
  have htext : s.current.text = x.text := State.text_current hs
  have hnext : (s.ahead 1).piece = r := State.piece_ahead_one hs
  have harrow : (s.ahead 1).isPunct "=>" = r.isPunct "=>" := by
    rw [← hnext]
    rfl
  have hnewline : (s.ahead 1).newlineBefore = r.newlineBefore := by
    rw [← hnext]
    rfl
  have hplain : x.text ∉ keywords := x.plain
  simp only [keywords, List.mem_cons, not_or] at hplain
  simp [wordForm, htext, hplain, harrow, hnewline]

theorem reads_primary_word (x : Word) (hr : r.isPunct "=>" = false) :
    Reads (primary go) depth (word x.text :: r :: rs) (r :: rs) (·.shape = identifier x) := by
  apply reads_primary_of_word rfl
  apply reads_here
  intro start
  apply reads_look
  intro s hs
  rw [wordForm_plain x hs, hr, Bool.false_and, if_neg Bool.false_ne_true]
  refine reads_takeName.bind fun name hname => ?_
  refine reads_build.imp fun node hnode => ?_
  rw [hnode, Option.map_some, hname]
  rfl

theorem reads_primary_this : Reads (primary go) depth (word "this" :: r :: rs) (r :: rs)
    (·.shape = .node .thisExpression none none []) := by
  apply reads_primary_of_word rfl
  apply reads_here
  intro start
  apply reads_look
  intro s hs
  have hform : wordForm s = .thisWord := by
    have htext : s.current.text = "this" := State.text_current hs
    simp [wordForm, htext]
  rw [hform]
  exact reads_advance.bind fun _ _ => reads_build

theorem reads_primary_number (text : String) : Reads (primary go) depth
    (⟨.number, text, false⟩ :: rest) rest (·.shape = .node .literal none none []) := by
  apply reads_here
  intro start
  apply reads_look
  intro s hs
  rw [State.kind_current hs]
  exact reads_advance.bind fun _ _ => reads_build

/-- Parentheses that are no parameters, around what is read as an expression. -/
theorem reads_parenthesized
    (hopens : ∀ ts : List Token, ts.map Token.piece = punct "(" :: qs → opensArrow ts = false)
    (h : Reads (expression go) depth qs (punct ")" :: rest) (·.shape = S)) :
    Reads (primary go) depth (punct "(" :: qs) rest
      (·.shape = .node .parenthesized none none [S]) := by
  apply reads_primary_of_paren rfl
  intro start s hs
  rw [hopens s.rest hs, if_neg Bool.false_ne_true]
  refine reads_advance.bind fun _ _ => ?_
  refine h.bind fun node hnode => ?_
  refine reads_expect.bind fun _ _ => ?_
  refine reads_build.imp fun node' hnode' => ?_
  rw [hnode', Node.shapes, hnode]
  rfl

theorem reads_primary_paren (ha : Readable a) (hroom : Room a.levels fuel depth) (rs : List Piece)
    (harrow : r.isPunct "=>" = false) (hcolon : r.isPunct ":" = false) :
    Reads (primary (rule fuel)) depth (punct "(" :: (a.pieces ++ punct ")" :: r :: rs)) (r :: rs)
      (·.shape = .node .parenthesized none none [a.shape]) :=
  reads_parenthesized (fun _ hts => opensArrow_of_not a.closed harrow hcolon hts)
    (reads_expression ha hroom (.punct (by decide)) rfl)

def substitutionTurn (go : Recur) : Parse (List Node × Bool) := do
  let node ← expression go
  match (← look).current.kind with
  | .templateMiddle =>
    advance
    return ([node], true)
  | .templateTail =>
    advance
    return ([node], false)
  | _ =>
    report .substitutionEnd
    return ([node], false)

theorem reads_substitution_last (ha : Readable a) (hroom : Room a.levels fuel depth)
    (tail : Letters) (rest : List Piece) : Reads (substitutionTurn (rule fuel)) depth
      (a.pieces ++ templateTail tail.chars :: rest) rest
      fun r => r.2 = false ∧ Node.shapes r.1 = [a.shape] := by
  refine (reads_expression ha hroom (.tail _) rfl).bind fun node hnode => ?_
  apply reads_look
  intro s hs
  rw [State.kind_current hs]
  refine reads_advance.bind fun _ _ => reads_pure ⟨rfl, ?_⟩
  rw [Node.shapes, hnode]
  rfl

theorem reads_substitution_more (ha : Readable a) (hroom : Room a.levels fuel depth)
    (middle : Letters) (rest : List Piece) : Reads (substitutionTurn (rule fuel)) depth
      (a.pieces ++ templateMiddle middle.chars :: rest) rest
      fun r => r.2 = true ∧ Node.shapes r.1 = [a.shape] := by
  refine (reads_expression ha hroom (.middle _) rfl).bind fun node hnode => ?_
  apply reads_look
  intro s hs
  rw [State.kind_current hs]
  refine reads_advance.bind fun _ _ => reads_pure ⟨rfl, ?_⟩
  rw [Node.shapes, hnode]
  rfl

theorem Parts.loops (hin : ∀ a : Expr, a.levels ≤ n → Readable a) (hroom : Room n fuel depth) :
    ∀ parts : Parts, parts.levels ≤ n →
      Loops (substitutionTurn (rule fuel)) depth (parts.pieces ++ rest) rest parts.shapes
  | .last a tail, h => by
    have hread := reads_substitution_last (hin a h) (hroom.mono h) tail rest
    rw [Parts.pieces, List.append_assoc]
    exact Loops.last hread
  | .more a middle parts, h => by
    obtain ⟨ha, hparts⟩ := Nat.max_le.mp h
    have hread := reads_substitution_more (hin a ha) (hroom.mono ha) middle (parts.pieces ++ rest)
    rw [Parts.pieces, List.append_assoc]
    refine Loops.more hread ?_ (Parts.loops hin hroom parts hparts)
    simp only [List.length_append, List.length_cons]
    omega

theorem reads_primary_template (hin : ∀ a : Expr, a.levels ≤ n → Readable a)
    (hroom : Room n fuel depth) (head : Letters) {parts : Parts} (h : parts.levels ≤ n)
    (rest : List Piece) :
    Reads (primary (rule fuel)) depth (templateHead head.chars :: (parts.pieces ++ rest)) rest
      (·.shape = .node .templateLiteral none none parts.shapes) := by
  apply reads_here
  intro start
  apply reads_look
  intro s hs
  rw [State.kind_current hs]
  apply reads_here
  intro start
  refine reads_advance.bind fun _ _ => ?_
  refine (Parts.loops hin hroom parts h).gather.bind fun nodes hnodes => ?_
  refine reads_build.imp fun node hnode => ?_
  rw [hnode, hnodes]
  rfl

/-- Nothing goes on with an access at these pieces. -/
theorem accessStep_stay (hs : s.pieces = q :: qs)
    (hpunct : q.isPunctOf [".", "?.", "[", "(", "<", "!"] = false)
    (htemplate : q.kind ≠ .template) (hhead : q.kind ≠ .templateHead) (node : Node) :
    accessStep go start node depth s = some ((node, false), s) := by
  have hnone (p : String) (hp : p ∈ [".", "?.", "[", "(", "<", "!"]) : s.isAt p = false := by
    rw [State.isAt_eq hs, isPunct_of_isPunctOf hpunct hp]
  have hkind := State.kind_current hs
  simp only [accessStep, look, Parse.bind_run, Option.bind_some, hnone "." (by decide),
    hnone "?." (by decide), hnone "[" (by decide), hnone "(" (by decide), hnone "<" (by decide),
    hnone "!" (by decide), hkind, Bool.false_and, Bool.false_eq_true, or_self, if_false, beq_iff_eq,
    Bool.or_eq_true, htemplate, hhead, Parse.pure_run]

theorem reads_accessStep_not (hpunct : q.isPunctOf [".", "?.", "[", "(", "<", "!"] = false)
    (htemplate : q.kind ≠ .template) (hhead : q.kind ≠ .templateHead) (node : Node) :
    Reads (accessStep go start node) depth (q :: qs) (q :: qs) (· = (node, false)) := by
  intro s hs _
  exact ⟨_, s, accessStep_stay hs hpunct htemplate hhead node, hs, List.suffix_rfl, rfl, rfl, rfl⟩

theorem climbs_property (x : Word)
    (h : Climbs (accessStep go start) depth rest after
      (.node .propertyAccess (some x.text) none [T]) S) :
    Climbs (accessStep go start) depth (punct "." :: word x.text :: rest) after T S := by
  refine Climbs.step (fun node hnode => ?_) (by simp only [List.length_cons]; omega) h
  apply reads_look
  intro s hs
  have hdot : (s.isAt "." || s.isAt "?.") = true := by
    rw [State.isAt_eq hs]
    rfl
  dsimp only
  rw [if_pos hdot]
  refine reads_advance.bind fun _ _ => ?_
  apply reads_look
  intro s hs
  rw [State.isAt_eq hs, State.isAt_eq hs, State.isWord_eq hs]
  refine reads_takeName.bind fun name hname => ?_
  refine reads_build.bind fun node' hnode' => ?_
  refine reads_pure ⟨rfl, ?_⟩
  rw [hnode', Option.map_some, hname, Node.shapes, hnode]
  rfl

theorem climbs_index (ha : Readable a) (hroom : Room a.levels fuel depth)
    (h : Climbs (accessStep (rule fuel) start) depth rest after
      (.node .elementAccess none none [T, a.shape]) S) :
    Climbs (accessStep (rule fuel) start) depth (punct "[" :: (a.pieces ++ punct "]" :: rest)) after
      T S := by
  refine Climbs.step (fun node hnode => ?_) (by simp; omega) h
  apply reads_look
  intro s hs
  have hdot : (s.isAt "." || s.isAt "?.") = false := by
    rw [State.isAt_eq hs, State.isAt_eq hs]
    rfl
  have hopen : (s.isAt "[" && !s.current.newlineBefore) = true := by
    rw [State.isAt_eq hs, State.newline_current hs]
    rfl
  dsimp only
  rw [hdot, if_neg Bool.false_ne_true, if_pos hopen]
  have hread : Reads (elementAccess (rule fuel) start node) depth
      (punct "[" :: (a.pieces ++ punct "]" :: rest)) rest
      (·.shape = .node .elementAccess none none [T, a.shape]) := by
    refine reads_expect.bind fun _ _ => ?_
    refine (reads_expression ha hroom (.punct (by decide)) rfl).bind fun index hindex => ?_
    refine reads_expect.bind fun _ _ => ?_
    refine reads_build.imp fun node' hnode' => ?_
    rw [hnode', Node.shapes, Node.shapes, hnode, hindex]
    rfl
  exact hread.bind fun node' hnode' => reads_pure ⟨rfl, hnode'⟩

theorem climbs_call (has : ∀ a ∈ as, Readable a) (hroom : Room (Expr.levelsAll as) fuel depth)
    (h : Climbs (accessStep (rule fuel) start) depth rest after
      (.node .call none none (T :: Expr.shapes as)) S) :
    Climbs (accessStep (rule fuel) start) depth
      (punct "(" :: (separated (Expr.piecesEach as) ++ punct ")" :: rest)) after T S := by
  refine Climbs.step (fun node hnode => ?_) (by simp; omega) h
  apply reads_look
  intro s hs
  have hdot : (s.isAt "." || s.isAt "?.") = false := by
    rw [State.isAt_eq hs, State.isAt_eq hs]
    rfl
  have hindex : (s.isAt "[" && !s.current.newlineBefore) = false := by
    rw [State.isAt_eq hs]
    rfl
  dsimp only
  rw [hdot, if_neg Bool.false_ne_true, hindex, if_neg Bool.false_ne_true,
    if_pos (State.isAt_punct hs)]
  have hread : Reads (callOf (rule fuel) start node) depth
      (punct "(" :: (separated (Expr.piecesEach as) ++ punct ")" :: rest)) rest
      (·.shape = .node .call none none (T :: Expr.shapes as)) := by
    refine (reads_arguments has hroom).bind fun nodes hnodes => ?_
    refine reads_build.imp fun node' hnode' => ?_
    rw [hnode', Node.shapes, hnode, hnodes]
    rfl
  exact hread.bind fun node' hnode' => reads_pure ⟨rfl, hnode'⟩

/-- The callee of a construction, from its first name on. -/
theorem Path.reads (d : Path) (hr : r.isPunct "=>" = false)
    (h : Climbs (calleeStep go start) depth (r :: rs) after d.shape S) :
    Reads (primary go >>= climb (calleeStep go start)) depth (d.pieces ++ r :: rs) after
      (·.shape = S) := by
  induction d generalizing r rs with
  | word x => exact (reads_primary_word x hr).bind fun node hnode => h.climb hnode
  | member d x ih =>
    have hstep : Climbs (calleeStep go start) depth
        (punct "." :: Piece.word x.text :: r :: rs) after d.shape S := by
      refine Climbs.step (fun node hnode => ?_) (by simp only [List.length_cons]; omega) h
      apply reads_look
      intro s hs
      rw [if_pos (State.isAt_punct hs)]
      refine reads_advance.bind fun _ _ => ?_
      apply reads_look
      intro s hs
      rw [State.isWord_eq hs]
      refine reads_takeName.bind fun name hname => ?_
      refine reads_build.bind fun node' hnode' => ?_
      refine reads_pure ⟨rfl, ?_⟩
      rw [hnode', Option.map_some, hname, Node.shapes, hnode]
      rfl
    rw [Path.pieces, List.append_assoc]
    exact ih rfl hstep

theorem Path.starts (d : Path) : ∃ (x : Word) (qs : List Piece), 
    d.pieces = Piece.word x.text :: qs := by
  induction d with
  | word x => exact ⟨x, [], rfl⟩
  | member d x ih =>
    obtain ⟨y, qs, heq⟩ := ih
    exact ⟨y, _, by rw [Path.pieces, heq, List.cons_append]⟩

theorem reads_construction (d : Path) (has : ∀ a ∈ as, Readable a)
    (hroom : Room (Expr.levelsAll as) fuel (depth + 1)) (rest : List Piece) :
    Reads (rule (fuel + 1) .construction) depth
      (word "new" :: (d.pieces ++ punct "(" :: (separated (Expr.piecesEach as) ++ punct ")" :: rest)))
      rest (·.shape = .node .construction none none (d.shape :: Expr.shapes as)) := by
  obtain ⟨x, qs, heq⟩ := d.starts
  apply reads_nested hroom.depth_lt
  apply reads_here
  intro start
  refine reads_advance.bind fun _ _ => ?_
  let list : List Piece := separated (Expr.piecesEach as) ++ punct ")" :: rest
  have hcallee (calleeStart : Nat) :
      Reads (primary (rule fuel) >>= climb (calleeStep (rule fuel) calleeStart)) (depth + 1)
        (d.pieces ++ punct "(" :: list) (punct "(" :: list) (·.shape = d.shape) := by
    refine d.reads rfl (Climbs.stay fun node => ?_)
    apply reads_look
    intro s hs
    rw [State.isAt_eq hs, State.isAt_eq hs]
    exact reads_pure rfl
  rw [heq] at hcallee ⊢
  refine (reads_accept_not rfl).bind ?_
  rintro _ rfl
  apply reads_here
  intro calleeStart
  apply reads_look
  intro s hs
  have hnew : ¬ s.isAtWord "new" = true := by
    rw [State.isAtWord_eq hs]
    simpa [Piece.isTheWord, word] using x.ne_keyword (by decide)
  rw [if_neg hnew]
  refine (hcallee calleeStart).bind_bind fun callee hshape => ?_
  refine (reads_skipAngles_not rfl).bind fun _ _ => ?_
  apply reads_look
  intro s hs
  rw [if_pos (State.isAt_punct hs)]
  refine (reads_arguments has hroom).bind fun nodes hnodes => ?_
  refine reads_build.imp fun node hnode => ?_
  rw [hnode, Node.shapes, hshape, hnodes]
  rfl

theorem reads_access {V : Type} [Seen V] {v : V} {vs rest after : List V}
    (hnew : (Seen.piece v).isTheWord "new" = false)
    (hfirst : Reads (primary go) depth (v :: vs) rest (·.shape = T))
    (hclimb : ∀ start, Climbs (accessStep go start) depth rest after T S) :
    Reads (access go) depth (v :: vs) after (·.shape = S) := by
  apply reads_here
  intro start
  apply reads_look
  intro s hs
  rw [State.isAtWord_eq (State.pieces_of_seen hs), hnew, if_neg Bool.false_ne_true]
  exact hfirst.bind fun node hnode => (hclimb start).climb hnode

/-- An access is its first part where nothing goes on with it. -/
theorem access_run {s' : State} (hs : s.pieces = q :: qs) (hnew : q.isTheWord "new" = false)
    (hs' : s'.pieces = r :: rs) (hr : Closes r) (h : primary go depth s = some (node, s')) :
    access go depth s = some (node, s') := by
  have hnew : s.isAtWord "new" = false := by rw [State.isAtWord_eq hs, hnew]
  have hstep (start : Nat) : accessStep go start node depth s' = some ((node, false), s') :=
    accessStep_stay hs' (isPunctOf_of_subset hr.punct (by decide)) hr.template.1 hr.template.2 node
  simp only [access, here, look, Parse.bind_run, Option.bind_some, hnew, Bool.false_eq_true,
    if_false, h, climb_stay (hstep _)]

/-- An access stays where nothing goes on with it. -/
theorem climbs_stay {V : Type} [Seen V] {u : V} {us : List V} (hu : Closes (Seen.piece u))
    (start : Nat) : Climbs (accessStep go start) depth (u :: us) (u :: us) S S :=
  Climbs.stay fun node => .stay (reads_accessStep_not
    (isPunctOf_of_subset hu.punct (by decide)) hu.template.1 hu.template.2 node)

theorem reads_access_new {go : Recur}
    (hfirst : Reads (go .construction) depth (word "new" :: qs) rest (·.shape = T))
    (hclimb : ∀ start, Climbs (accessStep go start) depth rest after T S) :
    Reads (access go) depth (word "new" :: qs) after (·.shape = S) := by
  apply reads_here
  intro start
  apply reads_look
  intro s hs
  rw [if_pos (State.isAtWord_word hs)]
  exact hfirst.bind fun node hnode => (hclimb start).climb hnode

/-- A member access is read piece by piece from its first one on, and what the climb comes to from
there is what the grammar comes to. -/
theorem Member.reads_access (hin : ∀ a : Expr, a.levels ≤ n → Readable a)
    (hroom : Room n fuel (depth + 1)) : ∀ m : Member, m.levels ≤ n →
    ∀ {r : Piece} {rs : List Piece}, r.isPunct "=>" = false → r.isPunct ":" = false →
      (∀ start, Climbs (accessStep (rule (fuel + 1)) start) depth (r :: rs) after m.shape S) →
      Reads (access (rule (fuel + 1))) depth (m.pieces ++ r :: rs) after (·.shape = S)
  | .word x, _, r, rs, harrow, _, hclimb => by
    have hnew : (Piece.word x.text).isTheWord "new" = false := by
      simpa [Piece.isTheWord, Piece.word] using x.ne_keyword (by decide)
    exact Core.reads_access hnew (reads_primary_word x harrow) hclimb
  | .this, _, r, rs, _, _, hclimb => Core.reads_access rfl reads_primary_this hclimb
  | .number m, _, r, rs, _, _, hclimb => Core.reads_access rfl (reads_primary_number m.text) hclimb
  | .paren a, h, r, rs, harrow, hcolon, hclimb => by
    have hread := reads_primary_paren (hin a h) (hroom.out.mono h) rs harrow hcolon
    rw [Member.pieces, List.cons_append, List.append_assoc]
    exact Core.reads_access rfl hread hclimb
  | .template head parts, h, r, rs, _, _, hclimb => by
    have hread := reads_primary_template hin hroom.out head h (r :: rs)
    exact Core.reads_access rfl hread hclimb
  | .property m x, h, r, rs, _, _, hclimb => by
    rw [Member.pieces, List.append_assoc]
    exact m.reads_access hin hroom h rfl rfl fun start => climbs_property x (hclimb start)
  | .index m a, h, r, rs, _, _, hclimb => by
    obtain ⟨hm, ha⟩ := Nat.max_le.mp h
    rw [Member.pieces, List.append_assoc, List.cons_append, List.append_assoc]
    exact m.reads_access hin hroom hm rfl rfl fun start =>
      climbs_index (hin a ha) (hroom.out.mono ha) (hclimb start)
  | .call m args, h, r, rs, _, _, hclimb => by
    obtain ⟨hm, hargs⟩ := Nat.max_le.mp h
    have has : ∀ a ∈ args, Readable a := fun a ha =>
      hin a (Nat.le_trans (Expr.levels_le_levelsAll ha) hargs)
    rw [Member.pieces, List.append_assoc, List.cons_append, List.append_assoc]
    exact m.reads_access hin hroom hm rfl rfl fun start =>
      climbs_call has (hroom.out.mono hargs) (hclimb start)
  | .construct d args, h, r, rs, _, _, hclimb => by
    have has : ∀ a ∈ args, Readable a := fun a ha =>
      hin a (Nat.le_trans (Expr.levels_le_levelsAll ha) h)
    have hread := reads_construction d has (hroom.mono h) (r :: rs)
    rw [Member.pieces, List.cons_append, List.append_assoc, List.cons_append, List.append_assoc]
    exact reads_access_new hread hclimb

end Subscriptions.Core
