import Subscriptions.Proofs.Core.Stopping
import Subscriptions.Proofs.Lockstep.Steps

namespace Subscriptions

/-- What may stand around an expression. -/
inductive Bracket
  | round
  | square
deriving Repr, DecidableEq

namespace Bracket

def opener : Bracket → Char
  | round => '('
  | square => '['

def closer : Bracket → Char
  | round => ')'
  | square => ']'

def kind : Bracket → Kind
  | round => .parenthesized
  | square => .arrayLiteral

end Bracket

/-- A name in brackets, the outermost one first. -/
def nest (w : List Bracket) : List Char :=
  w.map Bracket.opener ++ 'x' :: w.reverse.map Bracket.closer

namespace Grammar

open Subscriptions.Core Piece

def symbol (kind : TokenKind) (pos : Nat) (c : Char) : Token :=
  ⟨kind, "", c.toString, ⟨pos, pos + 1⟩, false⟩

@[simp] theorem kind_symbol (kind : TokenKind) (pos : Nat) (c : Char) :
    (symbol kind pos c).kind = kind := rfl

def nestTokens : Nat → List Bracket → List Token
  | pos, [] => [symbol .word pos 'x']
  | pos, b :: w => symbol .punct pos b.opener ::
    (nestTokens (pos + 1) w ++ [symbol .punct (pos + 2 * w.length + 2) b.closer])

/-- What they are read as where so many brackets are allowed for, with the number of nodes built
before. -/
def nestNode : Nat → Nat → Nat → List Bracket → Node
  | 0, built, pos, w => ⟨built, .unknown, ⟨pos, pos + 2 * w.length + 1⟩, none, none, []⟩
  | _ + 1, built, pos, [] =>
    ⟨built, .identifier, ⟨pos, pos + 1⟩, some ⟨"x", ⟨pos, pos + 1⟩⟩, none, []⟩
  | room + 1, built, pos, b :: w => ⟨built + min w.length room + 1, b.kind,
    ⟨pos, pos + 2 * w.length + 3⟩, none, none, [nestNode room built (pos + 1) w]⟩

theorem size_nestNode (room built pos : Nat) (w : List Bracket) :
    (nestNode room built pos w).size = min w.length room + 1 := by
  induction w generalizing room pos with
  | nil => cases room <;> simp [nestNode, Node.size, Node.sizes]
  | cons b w ih => cases room <;> simp [nestNode, Node.size, Node.sizes, ih]

def nestFaults (room pos : Nat) (w : List Bracket) : List Fault :=
  if w.length < room then [] else [.tooDeep maxNesting ⟨pos + room, pos + room + 1⟩]

theorem nestTokens_cons_append (pos : Nat) (b : Bracket) (w : List Bracket) (us : List Token) :
    nestTokens pos (b :: w) ++ us = symbol .punct pos b.opener ::
      (nestTokens (pos + 1) w ++ symbol .punct (pos + 2 * w.length + 2) b.closer :: us) := by
  simp [nestTokens]

theorem nestFaults_cons (room pos : Nat) (b : Bracket) (w : List Bracket) :
    nestFaults (room + 1) pos (b :: w) = nestFaults room (pos + 1) w := by
  simp only [nestFaults, List.length_cons, Nat.succ_lt_succ_iff, Nat.succ_add, Nat.add_succ]

section
variable {go : Recur} {depth start : Nat} {s s' : State} {node : Node}

@[simp] theorem readBy_cons (t : Token) (ts : List Token) (last : Token) (readTo : Nat)
    (arena : Arena) (faults : List Fault) : State.readBy ⟨t :: ts, last, readTo, arena, faults⟩ 1 =
      ⟨ts, last, t.span.stop, arena, faults⟩ := by
  rw [State.readBy, List.splitAt_eq]
  rfl

theorem accept_run {p : String} (h : s.isAt p = true) :
    accept p depth s = some (true, s.readBy 1) := by
  simp only [accept, look, Parse.bind_run, Option.bind_some, h, if_true, advance_run, Parse.pure_run]

theorem expect_run {p : String} (h : s.isAt p = true) :
    expect p depth s = some ((), s.readBy 1) := by
  simp only [expect, Parse.bind_run, Option.bind_some, accept_run h, Bool.not_true,
    Bool.false_eq_true, if_false, Parse.pure_run]

theorem parenthesized_run (h : expression go depth (s.readBy 1) = some (node, s'))
    (hclose : s'.isAt ")" = true) : parenthesized go start depth s =
      some ((s'.readBy 1).node .parenthesized start none none [node],
        (s'.readBy 1).put .parenthesized start none none [node]) := by
  simp only [parenthesized, Parse.bind_run, Option.bind_some, advance_run, h, expect_run hclose]
  rfl

theorem isAt_other {p q : String} (h : s.isAt p = true) (hpq : p ≠ q) : s.isAt q = false := by
  rw [State.isAt, Token.isPunct, Bool.and_eq_true] at h
  rw [State.isAt, Token.isPunct, eq_of_beq h.2, beq_eq_false_iff_ne.mpr hpq, Bool.and_false]

/-- One element that no comma comes behind. -/
theorem arrayLiteral_run (hopen : s.isAt "[" = true) (hend : (s.readBy 1).atEnd = false)
    (hnone : ∀ p ∈ ["]", ",", "..."], (s.readBy 1).isAt p = false)
    (h : go .assignment depth (s.readBy 1) = some (node, s')) (hclose : s'.isAt "]" = true) :
    arrayLiteral go depth s = some
      ((s'.readBy 1).node .arrayLiteral s.current.span.start none none [node],
        (s'.readBy 1).put .arrayLiteral s.current.span.start none none [node]) := by
  have hcomma : s'.isAt "," = false := isAt_other hclose (by decide)
  simp only [arrayLiteral, gather, turns, spreadOrAssignment, accept, here, look, Parse.bind_run,
    Option.bind_some, expect_run hopen, hnone "]" (by decide), hnone "," (by decide),
    hnone "..." (by decide), hend, Bool.or_self, Bool.false_eq_true, if_false, h, hcomma,
    expect_run hclose, Parse.pure_run]
  rfl

end

def nestStarts : List Piece := [word "x", punct "(", punct "["]

theorem exists_nestTokens (pos : Nat) (w : List Bracket) :
    ∃ t ts, nestTokens pos w = t :: ts ∧ t.span = ⟨pos, pos + 1⟩ ∧ t.piece ∈ nestStarts := by
  have hstarts : word "x" ∈ nestStarts ∧ ∀ b : Bracket, punct b.opener.toString ∈ nestStarts := by
    refine ⟨by decide, fun b => ?_⟩
    cases b <;> decide
  cases w with
  | nil => exact ⟨_, _, rfl, rfl, hstarts.1⟩
  | cons b w => exact ⟨_, _, rfl, rfl, hstarts.2 b⟩

theorem getLast_nestTokens (pos : Nat) (w : List Bracket) :
    (nestTokens pos w).getLast?.map (·.span.stop) = some (pos + 2 * w.length + 1) := by
  cases w with
  | nil => rfl
  | cons b w =>
    rw [nestTokens, ← List.cons_append, List.getLast?_concat, List.length_cons, Nat.mul_succ]
    rfl

theorem piece_opener (pos : Nat) (b : Bracket) :
    ∃ o ∈ openers, (symbol .punct pos b.opener).piece = punct o := by
  cases b
  · exact ⟨"(", by decide, rfl⟩
  · exact ⟨"[", by decide, rfl⟩

/-- What may come behind a nest: the bracket around it, or the end of the statement. -/
def nestEnds : List String := [")", "]", ";"]

theorem piece_closer (pos : Nat) (b : Bracket) :
    ∃ c ∈ closers, c ∈ nestEnds ∧ (symbol .punct pos b.closer).piece = punct c := by
  cases b
  · exact ⟨")", by decide, by decide, rfl⟩
  · exact ⟨"]", by decide, by decide, rfl⟩

/-- The brackets of a nest close one another. -/
theorem closed_nestTokens (pos : Nat) (w : List Bracket) :
    Closed ((nestTokens pos w).map Token.piece) := by
  induction w generalizing pos with
  | nil => exact closed_word "x"
  | cons b w ih =>
    obtain ⟨o, ho, hopen⟩ := piece_opener pos b
    obtain ⟨c, hc, -, hclose⟩ := piece_closer (pos + 2 * w.length + 2) b
    rw [nestTokens, List.map_cons, List.map_append, List.map_singleton, hopen, hclose]
    exact (ih (pos + 1)).bracket ho hc

/-- What is skipped inside of a bracket passes over a nest. -/
theorem enclosed_nestTokens (depth pos : Nat) (w : List Bracket) (rest : List Token) :
    enclosed depth (nestTokens pos w ++ rest) =
      (nestTokens pos w ++ (enclosed depth rest).1, (enclosed depth rest).2) := by
  induction w generalizing depth pos rest with
  | nil => simp [nestTokens, enclosed, symbol, Token.isPunctOf, take]
  | cons b w ih =>
    have hopen : (symbol .punct pos b.opener).isPunctOf openers = true := by cases b <;> rfl
    have hclose (pos : Nat) : (symbol .punct pos b.closer).isPunctOf openers = false ∧
        (symbol .punct pos b.closer).isPunctOf closers = true := by cases b <;> exact ⟨rfl, rfl⟩
    obtain ⟨hnot, hyes⟩ := hclose (pos + 2 * w.length + 2)
    have hbehind : enclosed (depth + 1) (symbol .punct (pos + 2 * w.length + 2) b.closer :: rest) =
        take (symbol .punct (pos + 2 * w.length + 2) b.closer) (enclosed depth rest) := by
      simp [enclosed, hnot, hyes]
    rw [nestTokens, List.cons_append, List.append_assoc, List.singleton_append, enclosed, hopen,
      Bool.true_or, if_pos rfl, ih, hbehind]
    simp [take]

section
variable {fuel depth room pos readTo : Nat} {w : List Bracket} {u last : Token}
  {us : List Token} {arena : Arena} {faults : List Fault} {p : String}

/-- At the limit all that stands inside of a bracket is one unknown node. -/
theorem nest_tooDeep (hdepth : maxNesting ≤ depth) (hu : u.piece = punct p) (hp : p ∈ closers) :
    rule (fuel + 1) .assignment depth ⟨nestTokens pos w ++ u :: us, last, readTo, arena, faults⟩ =
      some (nestNode 0 arena.size pos w, ⟨u :: us, last, pos + 2 * w.length + 1,
        arena.grow (nestNode 0 arena.size pos w), nestFaults 0 pos w ++ faults⟩) := by
  have hkind : u.kind = .punct := congrArg Piece.kind hu
  have htext : u.text = p := congrArg Piece.text hu
  have hnot : ∀ p ∈ closers, p ∉ openers := by decide
  have hstop : enclosed 0 (u :: us) = ([], u :: us) := by
    simp [enclosed, Token.isPunctOf, hkind, htext, hp, hnot p hp]
  have hskip : enclosed 0 (nestTokens pos w ++ u :: us) = (nestTokens pos w, u :: us) := by
    rw [enclosed_nestTokens, hstop, List.append_nil]
  have hlast := getLast_nestTokens pos w
  obtain ⟨t, ts, heq, hspan, -⟩ := exists_nestTokens pos w
  have hcurrent (faults : List Fault) : State.current
      ⟨nestTokens pos w ++ u :: us, last, readTo, arena, faults⟩ = t := by
    rw [State.current, heq]
    rfl
  have hmax : max (pos + 2 * w.length + 1) pos = pos + 2 * w.length + 1 := by omega
  change nested (assignment (rule fuel)) depth _ = _
  rw [nested, if_pos hdepth]
  simp only [skipTooDeep, here, update, skip, build, buildNamed, Parse.bind_run, Option.bind_some,
    State.report, State.read, hskip, hlast, Option.getD_some, hcurrent, hspan, hmax]
  rfl

theorem closes_nestEnd (hp : p ∈ nestEnds) : Closes (punct p) := by
  have hends : ∀ p ∈ nestEnds, p ∈ endPuncts := by decide
  exact (Ends.punct (hends p hp)).closes

/-- What is read as a primary expression is an assignment where a nest ends. -/
theorem assignment_primary {q : Piece} {qs rs : List Piece} {s s' : State} {node : Node}
    (hs : s.pieces = q :: qs) (hq : q ∈ nestStarts) (hs' : s'.pieces = punct p :: rs)
    (hp : p ∈ nestEnds) (hdepth : depth + 3 ≤ maxNesting)
    (h : primary (rule fuel) (depth + 3) s = some (node, s')) :
    rule (fuel + 4) .assignment depth s = some (node, s') := by
  have hstarts : ∀ q ∈ nestStarts, q.isPunctOf ["!", "-", "+", "~", "++", "--"] = false ∧
      (∀ w ∈ operatorWords, q.isTheWord w = false) ∧ q.isTheWord "new" = false := by decide
  have hends : ∀ p ∈ nestEnds, (punct p).isPunctOf ("?" :: assignmentOperators) = false := by decide
  obtain ⟨hpunct, hword, hnew⟩ := hstarts q hq
  have haccess := access_run hs hnew hs' (closes_nestEnd hp) h
  exact assignment_run hs ⟨hpunct, hword⟩ hs' (closes_nestEnd hp) (hends p hp) hdepth haccess

theorem primary_name {go : Recur} (hu : u.piece = punct p) (hp : p ∈ nestEnds) :
    primary go depth ⟨symbol .word pos 'x' :: u :: us, last, readTo, arena, faults⟩ =
      some (nestNode (room + 1) arena.size pos [],
        ⟨u :: us, last, pos + 1, arena.grow (nestNode (room + 1) arena.size pos []), faults⟩) := by
  let x : Word := ⟨'x', [], by decide, by decide, by decide⟩
  have hnone : ∀ p ∈ nestEnds, (punct p).isPunct "=>" = false := by decide
  have hform : wordForm ⟨symbol .word pos 'x' :: u :: us, last, readTo, arena, faults⟩ =
      .identifier := by
    rw [@wordForm_plain u.piece (us.map Token.piece) _ x rfl, hu, hnone p hp]
    rfl
  have hkind : State.current ⟨symbol .word pos 'x' :: u :: us, last, readTo, arena, faults⟩ =
    symbol .word pos 'x' := rfl
  simp only [primary, wordPrimary, here, look, Parse.bind_run, Option.bind_some, hkind, kind_symbol,
    hform, takeName_run, buildNamed, State.word]
  simp only [symbol, readBy_cons, Nat.le_add_right, Nat.max_eq_left]
  rfl

/-- Parentheses around a nest are no parameters. -/
theorem opensArrow_nestTokens {stop : Nat} (hu : u.piece = punct p) (hp : p ∈ nestEnds) :
    opensArrow (symbol .punct pos '(' :: (nestTokens (pos + 1) w ++
      symbol .punct stop ')' :: u :: us)) = false := by
  have hnone : ∀ p ∈ nestEnds, (punct p).isPunct "=>" = false ∧ (punct p).isPunct ":" = false := by
    decide
  have hpieces : (symbol .punct pos '(' :: (nestTokens (pos + 1) w ++
      symbol .punct stop ')' :: u :: us)).map Token.piece = punct "(" ::
        ((nestTokens (pos + 1) w).map Token.piece ++ punct ")" :: punct p :: us.map Token.piece) := by
    rw [List.map_cons, List.map_append, List.map_cons, List.map_cons, hu]
    rfl
  exact opensArrow_of_not (closed_nestTokens (pos + 1) w) (hnone p hp).1 (hnone p hp).2 hpieces

/-- A nest is an element of an array. -/
theorem isAt_nestTokens (q : String) (hq : q ∈ ["]", ",", "..."]) : State.isAt
    ⟨nestTokens pos w ++ us, last, readTo, arena, faults⟩ q = false := by
  obtain ⟨t, ts, heq, -, hpiece⟩ := exists_nestTokens pos w
  have hnone : ∀ r ∈ nestStarts, ∀ q ∈ ["]", ",", "..."], r.isPunct q = false := by decide
  rw [State.isAt, State.current, heq]
  exact hnone _ hpiece q hq

/-- A bracket, around what is read as an assignment. -/
theorem primary_bracket (b : Bracket) {stop : Nat} {arena' : Arena} {faults' : List Fault} {node : Node}
    (hu : u.piece = punct p) (hp : p ∈ nestEnds)
    (h : rule fuel .assignment depth ⟨nestTokens (pos + 1) w ++ symbol .punct stop b.closer :: u :: us,
        last, pos + 1, arena, faults⟩ =
      some (node, ⟨symbol .punct stop b.closer :: u :: us, last, stop, arena', faults'⟩))
    (hstop : pos ≤ stop) :
    let outer : Node := ⟨arena'.size, b.kind, ⟨pos, stop + 1⟩, none, none, [node]⟩
    primary (rule fuel) depth ⟨symbol .punct pos b.opener :: (nestTokens (pos + 1) w ++
        symbol .punct stop b.closer :: u :: us), last, readTo, arena, faults⟩ =
      some (outer, ⟨u :: us, last, stop + 1, arena'.add outer, faults'⟩) := by
  intro outer
  let s : State := ⟨symbol .punct pos b.opener :: (nestTokens (pos + 1) w ++
    symbol .punct stop b.closer :: u :: us), last, readTo, arena, faults⟩
  let s' : State := ⟨symbol .punct stop b.closer :: u :: us, last, stop, arena', faults'⟩
  have hmax : max (stop + 1) pos = stop + 1 := by omega
  have hread : s.readBy 1 = ⟨nestTokens (pos + 1) w ++ symbol .punct stop b.closer :: u :: us, last,
    pos + 1, arena, faults⟩ := readBy_cons ..
  have hclose : s'.readBy 1 = ⟨u :: us, last, stop + 1, arena', faults'⟩ := readBy_cons ..
  have hinner : rule fuel .assignment depth (s.readBy 1) = some (node, s') := by rw [hread, h]
  change primary (rule fuel) depth s = _
  cases b with
  | round =>
    have hopens : opensArrow s.rest = false := opensArrow_nestTokens hu hp
    have hrun : parenthesized (rule fuel) pos depth s = _ :=
      parenthesized_run (expression_run hinner rfl) rfl
    have hat : s.isAt "(" = true := rfl
    have hkind : s.current.kind = .punct := rfl
    simp only [primary, punctPrimary, here, look, Parse.bind_run, Option.bind_some, hkind, hat, hopens,
      Bool.false_eq_true, if_false, if_true]
    refine hrun.trans ?_
    rw [hclose, State.put, State.node, hmax]
    rfl
  | square =>
    have hfirst : ∀ q ∈ ["]", ",", "..."], (s.readBy 1).isAt q = false := by
      rw [hread]
      exact isAt_nestTokens
    have hend : (s.readBy 1).atEnd = false := by
      rw [hread, State.atEnd, List.isEmpty_eq_false_iff]
      exact List.append_ne_nil_of_right_ne_nil _ (List.cons_ne_nil _ _)
    have hrun : arrayLiteral (rule fuel) depth s = _ := arrayLiteral_run rfl hend hfirst hinner rfl
    have hat : s.isAt "(" = false ∧ s.isAt "[" = true := ⟨rfl, rfl⟩
    have hkind : s.current.kind = .punct := rfl
    simp only [primary, punctPrimary, here, look, Parse.bind_run, Option.bind_some, hkind, hat,
      Bool.false_eq_true, if_false, if_true]
    have hstart : s.current.span.start = pos := rfl
    refine hrun.trans ?_
    rw [hclose, hstart, State.put, State.node, hmax]
    rfl

theorem pieces_behind (hu : u.piece = punct p) :
    State.pieces ⟨u :: us, last, readTo, arena, faults⟩ = punct p :: us.map Token.piece := by
  rw [← hu]
  rfl

/-- A nest is read in full where it has room, and else down to the limit. -/
theorem nest_run (w : List Bracket) : ∀ {fuel depth room pos readTo : Nat} {u last : Token}
    {us : List Token} {arena : Arena} {faults : List Fault} {p : String}, depth + 3 * room = maxNesting →
    4 * (w.length + 1) ≤ fuel → u.piece = punct p → p ∈ nestEnds → (room = 0 → p ∈ closers) →
    rule fuel .assignment depth ⟨nestTokens pos w ++ u :: us, last, readTo, arena, faults⟩ =
      some (nestNode room arena.size pos w, ⟨u :: us, last, pos + 2 * w.length + 1,
        arena.grow (nestNode room arena.size pos w), nestFaults room pos w ++ faults⟩) := by
  induction w with
  | nil =>
    intro fuel depth room pos readTo u last us arena faults p hdepth hfuel hu hp hroom
    obtain ⟨fuel, rfl⟩ := Nat.exists_eq_add_of_le' hfuel
    cases room with
    | zero => exact nest_tooDeep (by omega) hu (hroom rfl)
    | succ room =>
      have hprimary : primary (rule fuel) (depth + 3)
          ⟨symbol .word pos 'x' :: u :: us, last, readTo, arena, faults⟩ =
            some (nestNode (room + 1) arena.size pos [], _) := primary_name hu hp
      have hrun := assignment_primary (q := word "x") rfl (by decide) (pieces_behind hu) hp (by omega)
        hprimary
      simpa [nestTokens, nestFaults] using hrun
  | cons b w ih =>
    intro fuel depth room pos readTo u last us arena faults p hdepth hfuel hu hp hroom
    obtain ⟨fuel, rfl⟩ := Nat.exists_eq_add_of_le' (m := 4) (n := fuel) (by omega)
    cases room with
    | zero => exact nest_tooDeep (by omega) hu (hroom rfl)
    | succ room =>
      let close := symbol .punct (pos + 2 * w.length + 2) b.closer
      obtain ⟨c, hc, hcend, hclose⟩ := piece_closer (pos + 2 * w.length + 2) b
      have hinner := @ih fuel (depth + 3) room (pos + 1) (pos + 1) close last (u :: us) arena faults c
        (by omega) (by rw [List.length_cons] at hfuel; omega) hclose hcend fun _ => hc
      have hstop : pos + 1 + 2 * w.length + 1 = pos + 2 * w.length + 2 := by omega
      rw [hstop] at hinner
      have hprimary : primary (rule fuel) (depth + 3) ⟨symbol .punct pos b.opener ::
          (nestTokens (pos + 1) w ++ close :: u :: us), last, readTo, arena, faults⟩ = _ :=
        primary_bracket b hu hp hinner (by omega)
      have hrun := assignment_primary (q := punct b.opener.toString) rfl (by cases b <;> decide)
        (pieces_behind hu) hp (by omega) hprimary
      have hread : pos + 2 * (b :: w).length + 1 = pos + 2 * w.length + 3 := by
        rw [List.length_cons]
        omega
      have hnode : nestNode (room + 1) arena.size pos (b :: w) =
          ⟨(arena.grow (nestNode room arena.size (pos + 1) w)).size, b.kind,
            ⟨pos, pos + 2 * w.length + 3⟩, none, none, [nestNode room arena.size (pos + 1) w]⟩ := by
        rw [Arena.size_grow, size_nestNode, nestNode]
        rfl
      rw [nestTokens_cons_append, nestFaults_cons, hread, hnode, Arena.grow_of_child]
      exact hrun

/-- A statement starts at the first level, and each bracket takes three more. -/
def maxBrackets : Nat := (maxNesting - 1) / 3

def nestStatement (w : List Bracket) : Node :=
  ⟨min w.length maxBrackets + 1, .expressionStatement, ⟨0, 2 * w.length + 2⟩, none, none,
    [nestNode maxBrackets 0 0 w]⟩

theorem statementForm_nest {s : State} (w : List Bracket) (stop : Nat)
    (hs : s.rest = nestTokens pos w ++ symbol .punct stop ';' :: us) : statementForm s = .expression := by
  cases w with
  | nil =>
    let x : Word := ⟨'x', [], by decide, by decide, by decide⟩
    have hpieces : s.pieces = word "x" :: punct ";" :: us.map Token.piece := by
      rw [State.pieces, hs]
      rfl
    exact statementForm_expression hpieces (.word x) rfl
  | cons b w =>
    have hcurrent : s.current = symbol .punct pos b.opener := by
      rw [State.current, hs]
      rfl
    rw [statementForm, hcurrent]
    cases b <;> rfl

theorem nestStatement_run (w : List Bracket) (hfuel : 4 * (w.length + 1) ≤ fuel) :
    rule (fuel + 1) .statement 0
        ⟨nestTokens 0 w ++ symbol .punct (2 * w.length + 1) ';' :: us, last, 0, {}, []⟩ =
      some (nestStatement w, ⟨us, last, 2 * w.length + 2, Arena.grow {} (nestStatement w),
        nestFaults maxBrackets 0 w⟩) := by
  have hassignment := @nest_run w fuel 1 maxBrackets 0 0 (symbol .punct (2 * w.length + 1) ';') last us
    {} [] ";" rfl hfuel rfl (by decide) (by decide)
  have hsemicolon (s : State) (hs : s.isAt ";" = true) : optional ";" 1 s = some ((), s.readBy 1) := by
    rw [optional, Parse.bind_run, accept_run hs]
    rfl
  have hstart : (State.current ⟨nestTokens 0 w ++ symbol .punct (2 * w.length + 1) ';' :: us, last, 0, {},
      []⟩).span.start = 0 := by
    obtain ⟨t, ts, heq, hspan, -⟩ := exists_nestTokens 0 w
    rw [heq, List.cons_append, State.current, List.headD_cons, hspan]
  have hsize : (Arena.grow {} (nestNode maxBrackets 0 0 w)).size = min w.length maxBrackets + 1 := by
    rw [Arena.size_grow, size_nestNode]
    exact Nat.zero_add _
  rw [expressionStatement_run (statementForm_nest w _ rfl) (by decide) (expression_run hassignment rfl)
    (hsemicolon _ rfl), hstart, nestStatement, Arena.grow_of_child, ← hsize]
  simp only [build, buildNamed, symbol, readBy_cons, Nat.zero_le, Nat.max_eq_left, List.append_nil]
  rfl

end

end Grammar

end Subscriptions
