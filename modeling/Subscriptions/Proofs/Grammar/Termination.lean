import Subscriptions.Proofs.Grammar.Approximation
import Subscriptions.Proofs.Grammar.Integrity

namespace Subscriptions

namespace Grammar

variable {go : Recur} {fuel depth : Nat} {s s' : State}

/-- A loop ends after a turn that asks for no more. -/
theorem exists_last_turn {turn : Parse (List Node × Bool)} {nodes : List Node}
    (h : turns fuel turn depth s = some (nodes, s')) :
    ∃ before ns, turn depth before = some ((ns, false), s') := by
  induction fuel generalizing s nodes with
  | zero => cases h
  | succ fuel ih =>
    rw [turns, Parse.bind_run, Option.bind_eq_some_iff] at h
    obtain ⟨⟨⟨ns, more⟩, s₁⟩, hturn, h⟩ := h
    cases more with
    | false =>
      obtain ⟨-, rfl⟩ := Prod.mk.inj (Option.some.inj h)
      exact ⟨s, ns, hturn⟩
    | true =>
      dsimp only at h
      rw [if_pos rfl, Parse.bind_run, Option.bind_eq_some_iff] at h
      obtain ⟨⟨rest, s₂⟩, hrest, h⟩ := h
      obtain ⟨-, rfl⟩ := Prod.mk.inj (Option.some.inj h)
      exact ih hrest

/-- Statements are read up to the end of the file. -/
theorem rest_eq_nil_of_statements {nodes : List Node}
    (h : statements go depth s = some (nodes, s')) : s'.rest = [] := by
  obtain ⟨before, ns, hturn⟩ := exists_last_turn h
  rw [Parse.bind_run, look, Option.bind_some] at hturn
  dsimp only at hturn
  by_cases hend : before.atEnd = true
  · rw [if_pos hend] at hturn
    obtain ⟨-, rfl⟩ := Prod.mk.inj (Option.some.inj hturn)
    exact List.isEmpty_iff.mp hend
  · rw [if_neg hend, Parse.bind_run, Option.bind_eq_some_iff] at hturn
    obtain ⟨⟨⟨node, progress⟩, s₁⟩, -, hturn⟩ := hturn
    cases progress <;> simp [Parse.bind_run, Option.bind_eq_some_iff] at hturn

theorem program_run (length : Nat) : program go length depth s =
    (statements go depth s).map fun r =>
      let root : Node := ⟨r.2.built, .sourceFile, ⟨0, length⟩, none, none, r.1⟩
      (root, r.2.alloc root) := by
  refine (Parse.bind_run (statements go) _ depth s).trans ?_
  cases statements go depth s <;> rfl

theorem rest_eq_nil_of_program {length : Nat} {root : Node}
    (h : program go length depth s = some (root, s')) : s'.rest = [] := by
  rw [program_run, Option.map_eq_some_iff] at h
  obtain ⟨⟨nodes, s₁⟩, hnodes, h⟩ := h
  obtain ⟨-, rfl⟩ := Prod.mk.inj h
  have hrest : s₁.rest = [] := rest_eq_nil_of_statements hnodes
  exact hrest

/-- A rule never goes back in the token list. -/
theorem suffix_of_rule {r : Rule} {n : Node} (hlast : s.last.isEnd = true)
    (h : rule fuel r depth s = some (n, s')) : s'.rest <:+ s.rest := by
  let m := max fuel (8 * s.rest.length + (r.rank + 1))
  have hroom : 8 * s.rest.length + (r.rank + 1) ≤ m := Nat.le_max_right ..
  have hstart : Reached m (r.rank + 1) s [] s := ⟨.start s, hroom, hlast⟩
  obtain ⟨n', s'', hrun, hreached⟩ := covers_rule m r _ s [] s (Nat.lt_succ_self _) hstart depth
  have hmore : rule m r depth s = some (n, s') := rule_le (Nat.le_max_left ..) r depth s _ h
  rw [hrun] at hmore
  obtain ⟨-, rfl⟩ := Prod.mk.inj (Option.some.inj hmore)
  exact hreached.yields.suffix

end Grammar

namespace Parsed

open Grammar

/-- What a source reads as with an amount of fuel, if it lasts. -/
def withFuel? (fuel : Nat) (source : List Char) : Option Parsed :=
  (run fuel source).map fun r =>
    ⟨source, r.1, (tokenize source).faults ++ r.2.faults.reverse, r.2.arena⟩

theorem run_le {m n : Nat} (h : m ≤ n) {source : List Char} {r : Node × State}
    (hr : run m source = some r) : run n source = some r :=
  program_le (rule_le h) _ 0 _ r hr

/-- All amounts of fuel that last agree. -/
theorem run_unique {m n : Nat} {source : List Char} {r r' : Node × State}
    (h : run m source = some r) (h' : run n source = some r') : r = r' := by
  rcases Nat.le_total m n with hle | hle
  · exact Option.some.inj ((run_le hle h).symm.trans h')
  · exact Option.some.inj (h.symm.trans (run_le hle h'))

/-- Whatever fuel lasts tells what a source reads as. -/
theorem ofSource_of_run {fuel : Nat} {source : List Char} {root : Node} {s : State}
    (h : run fuel source = some (root, s)) : ofSource source =
      ⟨source, root, (tokenize source).faults ++ s.faults.reverse, s.arena⟩ := by
  obtain ⟨root', s', hrun, -⟩ := exists_run source
  obtain ⟨rfl, rfl⟩ := Prod.mk.inj (run_unique hrun h)
  rw [ofSource, hrun]

theorem withFuel?_fuelFor (source : List Char) :
    withFuel? (fuelFor source) source = some (ofSource source) := by
  obtain ⟨root, s, hrun, -⟩ := exists_run source
  rw [withFuel?, ofSource, hrun]
  rfl

/-- A number of steps that depends on the number of tokens alone is enough for every source, and
whatever lasts longer comes to the same. On the way no rule goes back in the tokens, no loop is short
of turns, and at the end there are no tokens left. -/
theorem ofSource_terminates (source : List Char) :
    (∀ fuel, rulesPerToken * ((tokenize source).tokens.length + 1) ≤ fuel →
      withFuel? fuel source = some (ofSource source)) ∧
    (∀ fuel p, withFuel? fuel source = some p → p = ofSource source) ∧
    (∀ fuel root s, run fuel source = some (root, s) →
      Yields (start source) [root] s ∧ s.rest <:+ (start source).rest ∧ s.rest = []) ∧
    (∀ fuel r depth a n b, a.last.isEnd = true → rule fuel r depth a = some (n, b) →
      b.rest <:+ a.rest) ∧
    (∀ turn depth a r more, gather turn depth a = some r →
      turns (a.rest.length + 1 + more) turn depth a = some r) ∧
    (∀ turn depth a node r more, climb turn node depth a = some r →
      climbs (a.rest.length + 1 + more) turn node depth a = some r) := by
  obtain ⟨root, s, hrun, hyields⟩ := exists_run source
  have hparsed := withFuel?_fuelFor source
  refine ⟨?_, ?_, ?_, ?_, ?_, ?_⟩
  · intro fuel hfuel
    have hmore : run fuel source = some (root, s) := run_le hfuel hrun
    rw [withFuel?, hmore, ← hrun]
    exact hparsed
  · intro fuel p hp
    obtain ⟨r, hr, rfl⟩ := Option.map_eq_some_iff.mp hp
    have heq : r = (root, s) := run_unique hr hrun
    rw [withFuel?, hrun] at hparsed
    rw [heq]
    exact Option.some.inj hparsed
  · intro fuel root' s' hrun'
    obtain ⟨rfl, rfl⟩ := Prod.mk.inj (run_unique hrun' hrun)
    exact ⟨hyields, hyields.suffix, rest_eq_nil_of_program hrun⟩
  · intro fuel r depth a n b hlast hrule
    exact suffix_of_rule hlast hrule
  · intro turn depth a r more hr
    exact turns_le (Nat.le_add_right _ more) (le_refl turn) depth a r hr
  · intro turn depth a node r more hr
    exact climbs_le (Nat.le_add_right _ more) (fun _ => le_refl _) node depth a r hr

end Parsed

end Subscriptions
