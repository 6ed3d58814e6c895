import Subscriptions.Grammar.Program
import Subscriptions.Proofs.Grammar.Statements
import Subscriptions.Proofs.Syntax.Arena
import Subscriptions.Proofs.Syntax.Scanning

namespace Subscriptions

namespace Grammar

variable {m k : Nat} {go : Recur} {a b s : State} {ns : List Node}

theorem Yields.numbered (h : Yields a ns b) (ha : a.built = 0) (hb : b.built ≤ UInt32.size) :
    Arena.Numbered ns b.built := by
  obtain ⟨hcount, hserials⟩ := h.serials
  rw [ha, Nat.zero_add] at hcount
  rw [ha, hcount, ← List.range_eq_range'] at hserials
  exact ⟨hserials, hb⟩

theorem ensures_body (hgo : Covers m go) {r : Rule} (hk : r.rank ≤ k) (h : Reached m k a ns s) :
    Ensures (body go r) s fun n => Reached m k a (ns ++ [n]) := by
  cases r with
  | statement => exact ensures_nested h (ensures_statement hgo hk h)
  | assignment => exact ensures_nested h (ensures_assignment hgo hk h)
  | binary above => exact ensures_nested h (ensures_binary hgo hk h)
  | unary => exact ensures_nested h (ensures_unary hgo hk h)
  | construction => exact ensures_nested h (ensures_construction hgo h)
  | access => exact ensures_access hgo hk h

/-- The fuel of a rule lasts as long as there is room. -/
theorem covers_rule (fuel : Nat) : Covers fuel (rule fuel) := by
  induction fuel with
  | zero =>
    intro r k a ns s hk h
    have hroom := h.room
    omega
  | succ fuel ih =>
    intro r k a ns s hk h
    have hroom := h.room
    have hinside : Reached fuel (k - 1) a ns s := ⟨h.yields, by omega, h.last⟩
    refine (ensures_body ih (by omega) hinside).mono fun n s' h' => ?_
    have hroom' := h'.room
    exact ⟨h'.yields, by omega, h'.last⟩

theorem ensures_statements (hgo : Covers m go) (hk : 7 ≤ k) (h : Reached m k a ns s) :
    Ensures (statements go) s fun nodes => Reached m k a (ns ++ nodes) := by
  refine ensures_gather (fun j ns s hj h => ?_) h
  refine ensures_look (ensures_ite (fun _ => ensures_stop h) fun hs => ?_)
  exact ensures_statementTurn hgo (Nat.le_trans hk hj) h (rest_ne_nil_of_not_atEnd (b := false) hs)

theorem ensures_program (hgo : Covers m go) {length : Nat} (hk : 7 ≤ k) (h : Reached m k a [] s) :
    Ensures (program go length) s fun root => Yields a [root] := by
  refine (ensures_statements hgo hk h).bind fun nodes s₁ h₁ depth => ?_
  have hroot := h₁.yields.reduce ⟨s₁.built, .sourceFile, ⟨0, length⟩, none, none, nodes⟩ rfl
  exact ⟨_, _, rfl, hroot⟩

end Grammar

namespace Parsed

def start (source : List Char) : Grammar.State where
  rest := (tokenize source).tokens.filter (!·.isEnd)
  last := (tokenize source).tokens.getLastD default
  readTo := 0
  arena := {}
  faults := []

/-- The fuel for a source lasts to the end of it. -/
theorem exists_run (source : List Char) : ∃ root s,
    run (fuelFor source) source = some (root, s) ∧
      Grammar.Yields (start source) [root] s := by
  have hlength : (start source).rest.length ≤ (tokenize source).tokens.length :=
    List.length_filter_le _ _
  have hfuel : fuelFor source = 8 * ((tokenize source).tokens.length + 1) := rfl
  have hstart : Grammar.Reached (fuelFor source) 7 (start source) [] (start source) :=
    ⟨.start _, by omega, isEnd_getLastD_tokenize source⟩
  exact Grammar.ensures_program (Grammar.covers_rule _) (by omega) hstart 0

end Parsed

end Subscriptions
