import Subscriptions.Proofs.Core.Statements
import Subscriptions.Proofs.Grammar.Leading
import Subscriptions.Proofs.Syntax.Arena

namespace Subscriptions

namespace Grammar

open Subscriptions.Core

variable {fuel depth : Nat} {s : State} {t : Token} {ts : List Token}

namespace Halts

theorem isPunctOf_eq_false (h : Halts t) {ps : List String} (hps : ∀ p ∈ closers, p ∉ ps) :
    t.piece.isPunctOf ps = false := by
  cases h with
  | closer h =>
    have hmem := List.contains_iff_mem.mp ((Bool.and_eq_true _ _).mp h).2
    rw [Piece.isPunctOf, Bool.and_eq_false_iff, ← Bool.not_eq_true, ← Bool.not_eq_true,
      List.contains_iff_mem]
    exact .inr (hps _ hmem)
  | middle h => rw [Piece.isPunctOf, show t.piece.kind = .templateMiddle from h]; rfl
  | tail h => rw [Piece.isPunctOf, show t.piece.kind = .templateTail from h]; rfl

theorem isAt_eq_false (h : Halts t) (hs : s.rest = t :: ts) {p : String} (hp : p ∉ closers) :
    s.isAt p = false := by
  have hnone : t.piece.isPunctOf [p] = false := by
    refine h.isPunctOf_eq_false fun q hq => ?_
    rw [List.mem_singleton]
    exact fun heq => hp (heq ▸ hq)
  rw [State.isAt, State.current, hs]
  exact Piece.isPunct_of_isPunctOf hnone List.mem_cons_self

/-- It is a punctuator or ends a part of a template. -/
theorem kind_mem (h : Halts t) : t.kind ∈ [TokenKind.punct, .templateMiddle, .templateTail] := by
  cases h with
  | closer h => rw [eq_of_beq ((Bool.and_eq_true _ _).mp h).1]; decide
  | middle h => rw [h]; decide
  | tail h => rw [h]; decide

theorem kind_ne (h : Halts t) {kind : TokenKind}
    (hkind : kind ∉ [TokenKind.punct, .templateMiddle, .templateTail]) : t.kind ≠ kind := by
  rintro rfl
  exact hkind h.kind_mem

theorem isTheWord (h : Halts t) (w : String) : t.piece.isTheWord w = false := by
  rw [Piece.isTheWord, Bool.and_eq_false_iff, beq_eq_false_iff_ne]
  exact .inl (h.kind_ne (by decide))

theorem operand (h : Halts t) : Operand t.piece where
  punct := h.isPunctOf_eq_false (by decide)
  word w _ := h.isTheWord w

theorem closes (h : Halts t) : Closes t.piece where
  punct := h.isPunctOf_eq_false (by decide)
  template := ⟨h.kind_ne (by decide), h.kind_ne (by decide)⟩
  word := h.kind_ne (by decide)
  operator hkind := by
    have hnone : ∀ p ∈ closers, precedence? p = none := by decide
    cases h with
    | closer h => exact hnone _ (List.contains_iff_mem.mp ((Bool.and_eq_true _ _).mp h).2)
    | middle h => exact absurd (h.symm.trans hkind) (by decide)
    | tail h => exact absurd (h.symm.trans hkind) (by decide)

theorem statementForm (h : Halts t) (hs : s.rest = t :: ts) :
    statementForm s = .expression := by
  have hcurrent : s.current = t := by rw [State.current, hs, List.headD_cons]
  rw [Grammar.statementForm, hcurrent]
  cases h with
  | middle h => rw [h]
  | tail h => rw [h]
  | closer h =>
    obtain ⟨hkind, htext⟩ := (Bool.and_eq_true _ _).mp h
    have hform : ∀ p ∈ closers, (p == "\x7b") = false ∧ (p == ";") = false ∧ (p == "@") = false := by
      decide
    obtain ⟨hbrace, hsemicolon, hat⟩ := hform _ (List.contains_iff_mem.mp htext)
    rw [eq_of_beq hkind]
    simp only [punctForm, hbrace, hsemicolon, hat, Bool.false_eq_true, if_false]

end Halts

def hollowStatement (built readTo start : Nat) : Node :=
  let span : Span := ⟨start, max readTo start⟩
  ⟨built + 1, .expressionStatement, span, none, none, [⟨built, .unknown, span, none, none, []⟩]⟩

theorem primary_halts {go : Recur} (ht : Halts t) (hs : s.rest = t :: ts) :
    primary go depth s = missingExpression t.span.start depth s := by
  have hcurrent : s.current = t := by rw [State.current, hs, List.headD_cons]
  cases ht with
  | middle h =>
    simp only [primary, here, look, Parse.bind_run, Option.bind_some, hcurrent, h]
  | tail h =>
    simp only [primary, here, look, Parse.bind_run, Option.bind_some, hcurrent, h]
  | closer h =>
    have hkind : t.kind = .punct := eq_of_beq ((Bool.and_eq_true _ _).mp h).1
    have htext : t.text ∈ closers := List.contains_iff_mem.mp ((Bool.and_eq_true _ _).mp h).2
    have hnone (p : String) (hp : p ∉ closers) : s.isAt p = false :=
      (Halts.closer h).isAt_eq_false hs hp
    have hstop : t.isPunctOf [")", "]", "\x7d", ";"] = true := by
      have hall : ∀ p ∈ closers, [")", "]", "\x7d", ";"].contains p = true := by decide
      rw [Token.isPunctOf, hkind, hall _ htext]
      rfl
    simp only [primary, punctPrimary, here, look, Parse.bind_run, Option.bind_some, hcurrent, hkind,
      hnone "(" (by decide), hnone "[" (by decide), hnone "\x7b" (by decide), hnone "<" (by decide),
      hstop, Bool.false_eq_true, if_false, if_true]

section
variable {last : Token} {readTo : Nat} {arena : Arena} {faults : List Fault}

theorem assignment_halts (ht : Halts t) (hend : t.isEnd = false) (hdepth : depth + 3 ≤ maxNesting) :
    let node : Node := ⟨arena.size, .unknown, ⟨t.span.start, max readTo t.span.start⟩, none, none, []⟩
    rule (fuel + 4) .assignment depth ⟨t :: ts, last, readTo, arena, faults⟩ =
      some (node, ⟨t :: ts, last, readTo, arena.add node,
        .expected .expression (some t.text) t.span :: faults⟩) := by
  intro node
  have hprimary : primary (rule fuel) (depth + 3) ⟨t :: ts, last, readTo, arena, faults⟩ =
      some (node, ⟨t :: ts, last, readTo, arena.add node,
        .expected .expression (some t.text) t.span :: faults⟩) := by
    rw [primary_halts ht rfl]
    simp only [missingExpression, report, update, Parse.bind_run, Option.bind_some, State.report,
      State.current, List.headD_cons, hend, Bool.false_eq_true, if_false, build, buildNamed]
    rfl
  have haccess := access_run (q := t.piece) rfl (ht.isTheWord "new") rfl ht.closes hprimary
  exact assignment_run rfl ht.operand rfl ht.closes (ht.isPunctOf_eq_false (by decide)) hdepth haccess

theorem statement_halts (ht : Halts t) (hend : t.isEnd = false) :
    rule (fuel + 5) .statement 0 ⟨t :: ts, last, readTo, arena, faults⟩ =
      some (hollowStatement arena.size readTo t.span.start, ⟨t :: ts, last, readTo,
        arena.grow (hollowStatement arena.size readTo t.span.start),
        .expected .expression (some t.text) t.span :: faults⟩) := by
  let node : Node := ⟨arena.size, .unknown, ⟨t.span.start, max readTo t.span.start⟩, none, none, []⟩
  have hassignment := @assignment_halts fuel 1 t ts last readTo arena faults ht hend (by decide)
  have hexpression := expression_run hassignment (ht.isAt_eq_false rfl (by decide))
  have hsemicolon := @optional_stay 1 _ ";" (ht.isAt_eq_false (s := ⟨t :: ts, last, readTo,
    arena.add node, .expected .expression (some t.text) t.span :: faults⟩) rfl (by decide))
  have hbuilt : State.built ⟨t :: ts, last, readTo, arena.add node,
      .expected .expression (some t.text) t.span :: faults⟩ = arena.size + 1 := arena.size_add node
  rw [expressionStatement_run (ht.statementForm rfl) (by decide) hexpression hsemicolon]
  simp only [build, buildNamed, hbuilt]
  rfl

/-- It takes a turn, which reports it once more. -/
theorem sourceTurn_halts (ht : Halts t) (hend : t.isEnd = false) :
    sourceTurn (rule (fuel + 5)) 0 ⟨t :: ts, last, readTo, arena, faults⟩ =
      some (([hollowStatement arena.size readTo t.span.start], true), ⟨ts, last, t.span.stop,
        arena.grow (hollowStatement arena.size readTo t.span.start), .expected .statement (some t.text) t.span ::
          .expected .expression (some t.text) t.span :: faults⟩) := by
  have hmoved : moved (rule (fuel + 5) .statement) 0 ⟨t :: ts, last, readTo, arena, faults⟩ =
      some ((hollowStatement arena.size readTo t.span.start, false), ⟨t :: ts, last, readTo,
        arena.grow (hollowStatement arena.size readTo t.span.start),
        .expected .expression (some t.text) t.span :: faults⟩) := by
    simp only [moved, look, Parse.bind_run, Option.bind_some, statement_halts ht hend, bne_self_eq_false,
      Parse.pure_run]
  have hatEnd : State.atEnd ⟨t :: ts, last, readTo, arena, faults⟩ = false := rfl
  simp only [sourceTurn, statementTurn, look, Parse.bind_run, Option.bind_some, hatEnd,
    Bool.false_eq_true, if_false, hmoved, Bool.not_false, if_true, report, update,
    State.report, State.current, List.headD_cons, hend, Parse.pure_run]
  rfl

end

theorem unled_sourceTurn {go : Recur} (hs : s.rest = t :: ts) (h : Unled (go .statement) s) :
    Unled (sourceTurn go) s := by
  have hmoved : Unled (moved (go .statement)) s :=
    unled_look (fun lead => by rw [State.length_broken]) h.bind
  refine unled_look (fun lead => ?_) (unled_ite (fun hend => ?_) fun _ => hmoved.bind)
  · rw [State.atEnd, State.atEnd, State.broken, hs]
    rfl
  · rw [State.atEnd, hs] at hend
    cases hend

theorem statementForm_semicolon (hs : s.rest = t :: ts) (ht : t.isPunct ";" = true) :
    statementForm s = .empty := by
  have hcurrent : s.current = t := by rw [State.current, hs, List.headD_cons]
  obtain ⟨hkind, htext⟩ := (Bool.and_eq_true _ _).mp ht
  rw [statementForm, hcurrent, eq_of_beq hkind]
  dsimp only
  rw [punctForm, eq_of_beq htext]
  rfl

/-- A line feed in front of the statements of a source is of no account. -/
theorem sourceTurn_broken (lead : String) (s : State) (hnone : ∀ t ∈ s.rest, t.isEnd = false) :
    sourceTurn (rule (fuel + 5)) 0 (s.broken lead) = sourceTurn (rule (fuel + 5)) 0 s := by
  obtain ⟨rest, last, readTo, arena, faults⟩ := s
  cases rest with
  | nil => rfl
  | cons t ts =>
    have hend := hnone t List.mem_cons_self
    by_cases ht : Halts t
    · have hbroken : Halts (t.broken lead) := halts_broken_iff.mpr ht
      rw [State.broken, List.modifyHead_cons, sourceTurn_halts ht hend, sourceTurn_halts hbroken hend]
      rfl
    by_cases hsemicolon : t.isPunct ";" = true
    · have hempty := statementForm_semicolon (s := ⟨t :: ts, last, readTo, arena, faults⟩) rfl hsemicolon
      have hstatement : Unled (rule (fuel + 5) .statement) ⟨t :: ts, last, readTo, arena, faults⟩ := by
        refine unled_nested rfl ht (unled_statement (fun hform => ?_) rfl)
        rw [hempty] at hform
        cases hform
      exact unled_sourceTurn rfl hstatement lead 0
    · have hleads : Leads t := ⟨ht, Bool.eq_false_iff.mpr hsemicolon, hend⟩
      exact unled_sourceTurn rfl (unled_rule (fuel + 5) rfl hleads .statement) lead 0

theorem turns_broken (n : Nat) (lead : String) (s : State) (hnone : ∀ t ∈ s.rest, t.isEnd = false) :
    turns n (sourceTurn (rule (fuel + 5))) 0 (s.broken lead) =
      turns n (sourceTurn (rule (fuel + 5))) 0 s := by
  cases n with
  | zero => rfl
  | succ n => rw [turns, Parse.bind_run, Parse.bind_run, sourceTurn_broken lead s hnone]

end Grammar

end Subscriptions
