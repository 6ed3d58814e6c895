import Subscriptions.Proofs.Layout.Alike
import Subscriptions.Rule.Untracked

namespace Subscriptions.Comparison

variable {C : Comparison} {c d : Cursor}

theorem Alike.dottedName : ∀ n m : Node, C.Alike n m → C.Exact n m → m.dottedName = n.dottedName
  | ⟨i, k, s, a, t, ns⟩, ⟨i', k', s', a', t', ms⟩, h, hexact => by
    obtain rfl : k' = k := h.kind
    have hchildren := h.children
    cases k'
    case identifier =>
      have hname := hexact rfl
      dsimp only at hname
      cases hname with
      | none => rfl
      | some hab => exact congrArg some hab.text
    case propertyAccess =>
      have hname := h.written rfl
      have hobject := h.exact Kind.noConfusion
      dsimp only at hname hobject hchildren
      cases hname with
      | none => rfl
      | some hab =>
        cases hchildren with
        | nil => rfl
        | cons hfirst _ =>
          cases hobject with
          | cons hexact _ =>
            have ih := Alike.dottedName _ _ hfirst hexact
            rw [Node.dottedName, Node.dottedName, ih, hab.text]
    case parenthesized =>
      have hinner := h.exact Kind.noConfusion
      dsimp only at hinner hchildren
      cases hchildren with
      | nil => rfl
      | cons hfirst _ =>
        cases hinner with
        | cons hexact _ =>
          have ih := Alike.dottedName _ _ hfirst hexact
          exact ih
    all_goals rfl

theorem Close.dottedName (h : C.Close c d) : d.focus.dottedName = c.focus.dottedName :=
  Alike.dottedName _ _ h.focus h.exact

/-- What is called or constructed has the same name. -/
theorem Near.receiverName (h : C.Near c d) : d.receiver?.bind (·.focus.dottedName) =
    c.receiver?.bind (·.focus.dottedName) :=
  bind_eq_of_rel h.receiver? fun _ _ hab => hab.dottedName

section
variable {rule : UntrackedRule}

open UntrackedRule

theorem Near.isConstruction (h : C.Near c d) : rule.isConstruction d = rule.isConstruction c := by
  rw [UntrackedRule.isConstruction, UntrackedRule.isConstruction, h.kind, h.receiverName]

theorem Near.isTeardownFunction (h : C.Near c d) :
    rule.isTeardownFunction d = rule.isTeardownFunction c := by
  rw [UntrackedRule.isTeardownFunction, UntrackedRule.isTeardownFunction, h.indexInParent?,
    any_eq_of_rel h.parent? fun _ _ hab => hab.isConstruction]

theorem Near.nearestFunction? (h : C.Near c d) :
    Option.Rel C.Near (nearestFunction? c) (nearestFunction? d) :=
  rel_imp (h.nearest? Kind.isFunction) fun _ _ hab => hab.1

theorem Near.underReturn (h : C.Near c d) : rule.underReturn d = rule.underReturn c := by
  have hnearest := rel_bind (h.nearest? (· == .returnStatement))
    fun _ _ hab => hab.1.nearestFunction?
  exact any_eq_of_rel hnearest fun _ _ hab => hab.isTeardownFunction

theorem Near.assignedTo? (h : C.Near c d) :
    Option.Rel (fun a b => C.Near a b ∧ a.kind = .variableDeclaration) (assignedTo? c)
      (assignedTo? d) := by
  have hkind (k : Kind) : ∀ a b, C.Near a b → (b.kind == k) = (a.kind == k) :=
    fun _ _ hab => by rw [hab.kind]
  refine rel_bind (rel_filter h.parent? (hkind .call)) fun call call' hcall => ?_
  refine rel_bind hcall.1.receiver? fun callee callee' hcallee => ?_
  rw [hcallee.toNear.same h]
  split
  · exact rel_imp (rel_filter hcall.1.parent? (hkind .variableDeclaration))
      fun _ _ hab => ⟨hab.1, eq_of_beq hab.2⟩
  · exact .none

theorem Near.returnsName {f g : Cursor} {name : String} (hf : C.Near f g)
    (hname : isComputed name = false) (h : C.Near c d) :
    returnsName g name d = returnsName f name c := by
  have hvalue : ∀ a b, C.Near a b → (b.kind == .identifier && b.focus.isNamed name) =
      (a.kind == .identifier && a.focus.isNamed name) := fun a b hab => by
    rw [hab.kind, hab.focus.isNamed_token hname]
  rw [UntrackedRule.returnsName, UntrackedRule.returnsName, h.kind,
    any_eq_of_rel (h.child? 0) hvalue,
    any_eq_of_rel h.nearestFunction? fun _ _ hab => hab.same hf]

theorem Near.assignedThenReturned (h : C.Near c d) :
    rule.assignedThenReturned d = rule.assignedThenReturned c := by
  refine congrArg (Option.getD · false) (bind_eq_of_rel h.assignedTo? fun a b hab => ?_)
  refine bind_eq_of_rel (hab.1.nameText hab.2 rfl) fun x y hxy => ?_
  obtain ⟨rfl, hname⟩ := hxy
  refine bind_eq_of_rel hab.1.nearestFunction? fun f g hfg => congrArg some ?_
  rw [hfg.isTeardownFunction,
    any_eq_of_forall₂ hfg.preorder fun _ _ hab => hfg.returnsName hname hab]

theorem Near.inExpressionBody (h : C.Near c d) :
    rule.inExpressionBody d = rule.inExpressionBody c := by
  refine any_eq_of_rel h.nearestFunction? fun f g hfg => ?_
  have hbody := rel_filter (p := (·.kind != .block)) (q := (·.kind != .block)) hfg.body?
    fun _ _ hab => by rw [hab.kind]
  rw [hfg.kind, hfg.isTeardownFunction]
  refine congrArg _ (any_eq_of_rel hbody fun a b hab => ?_)
  rw [hab.1.same h, any_eq_of_forall₂ h.ancestors fun _ _ hab' => hab'.same hab.1]

theorem Near.returnsOwnTeardown (h : C.Near c d) :
    rule.returnsOwnTeardown d = rule.returnsOwnTeardown c := by
  rw [UntrackedRule.returnsOwnTeardown, UntrackedRule.returnsOwnTeardown, h.underReturn,
    h.assignedThenReturned, h.inExpressionBody]

/-- An access amounts to the same in both trees. -/
theorem Near.classify (h : C.Near c d) : rule.classify d = rule.classify c := by
  have hnearest : ((d.nearest? (·.kind == .construction)).any rule.isConstruction) =
      ((c.nearest? (·.kind == .construction)).any rule.isConstruction) :=
    any_eq_of_rel (h.nearest? (· == .construction)) fun _ _ hab => hab.1.isConstruction
  rw [UntrackedRule.classify, UntrackedRule.classify, h.returnsOwnTeardown, hnearest]

end

end Subscriptions.Comparison
