import Subscriptions.Proofs.Layout.Agreement

namespace Subscriptions.Comparison

open Resolve

variable {C : Comparison} {c d : Cursor} {name : String}

/-- Both are at the same place, which is of the kind. -/
def NearOf (C : Comparison) (kind : Kind) (c d : Cursor) : Prop := C.Near c d ∧ c.kind = kind

theorem Near.kindNamed {kind : Kind} (h : C.Near c d) (hkind : isLoose kind = false)
    (name : String) : (d.kind == kind && d.focus.isNamed name) =
      (c.kind == kind && c.focus.isNamed name) := by
  rw [h.kind]
  cases hc : c.kind == kind with
  | false => rfl
  | true =>
    have hfocus : c.focus.kind = kind := eq_of_beq hc
    rw [h.focus.isNamed (by rw [hfocus, hkind])]

theorem Near.nearestClass? (h : C.Near c d) :
    Option.Rel (C.NearOf .classDeclaration) (nearestClass? c) (nearestClass? d) :=
  rel_imp (h.nearest? (· == .classDeclaration)) fun _ _ hab => ⟨hab.1, eq_of_beq hab.2⟩

theorem Near.classNamed? (h : C.Near c d) (name : String) :
    Option.Rel (C.NearOf .classDeclaration) (classNamed? c name) (classNamed? d name) := by
  refine rel_imp (rel_find? h.root.preorder fun a b hab => hab.kindNamed rfl name) fun a b hab => ?_
  exact ⟨hab.1, eq_of_beq ((Bool.and_eq_true _ _).mp hab.2).1⟩

theorem NearOf.baseName? (h : C.NearOf .classDeclaration c d) : baseName? d = baseName? c := by
  have hchildren := h.1.closeChildren (by rw [h.2]; exact Kind.noConfusion)
  have hbase := rel_find? (p := fun b => [.identifier, .propertyAccess, .call].contains b.kind)
    (q := fun b => [.identifier, .propertyAccess, .call].contains b.kind) hchildren
    fun _ _ hab => by rw [hab.kind]
  exact bind_eq_of_rel hbase fun a b hab => by rw [hab.1.dottedName]

section
variable (hname : isComputed name = false)
include hname

/-- Of all of a list, the one that is named so. -/
theorem rel_findNamed {xs ys : List Cursor} (h : List.Forall₂ C.Near xs ys) :
    Option.Rel C.Near (xs.find? (·.focus.isNamed name)) (ys.find? (·.focus.isNamed name)) :=
  rel_imp (rel_find? h fun _ _ hab => hab.focus.isNamed_token hname) fun _ _ hab => hab.1

theorem Near.ifNamed (h : C.Near c d) :
    Option.Rel C.Near (if c.focus.isNamed name then some c else none)
      (if d.focus.isNamed name then some d else none) := by
  rw [h.focus.isNamed_token hname]
  split
  · exact .some h
  · exact .none

theorem Near.declaredBy? (h : C.Near c d) :
    Option.Rel C.Near (declaredBy? name c) (declaredBy? name d) := by
  rw [Resolve.declaredBy?, Resolve.declaredBy?, h.kind]
  split
  · exact rel_findNamed hname h.children
  · exact h.ifNamed hname
  · exact h.ifNamed hname
  · exact .none

theorem Near.parameterNamed? (h : C.Near c d) :
    Option.Rel C.Near (parameterNamed? name c) (parameterNamed? name d) :=
  rel_findNamed hname h.parameters

theorem Near.declaredIn? (h : C.Near c d) :
    Option.Rel C.Near (declaredIn? name c) (declaredIn? name d) := by
  have hstatements := rel_findSome? h.children fun a b hab => hab.declaredBy? hname
  rw [Resolve.declaredIn?, Resolve.declaredIn?, h.kind]
  split
  · refine rel_or (h.parameterNamed? hname) ?_
    rw [h.focus.isNamed_token hname]
    split
    · exact .some h
    · exact .none
  · split
    · exact h.parameterNamed? hname
    · exact hstatements
    · exact hstatements
    · exact hstatements
    · exact hstatements
    · exact .none

/-- A name stands for the same declaration. -/
theorem Near.declaration? (h : C.Near c d) :
    Option.Rel C.Near (declaration? c name) (declaration? d name) :=
  rel_findSome? h.ancestors fun _ _ hab => hab.declaredIn? hname

theorem Near.directMember? (use : MemberUse) (h : C.Near c d) :
    Option.Rel C.Near (directMember? use name c) (directMember? use name d) := by
  have hparameter := rel_find? h.parameters (p := fun p => p.kind == .parameterProperty &&
      p.focus.isNamed name) fun _ _ hab => hab.kindNamed rfl name
  unfold Resolve.directMember?
  rw [h.kind]
  split
  · exact rel_imp hparameter fun _ _ hab => hab.1
  all_goals first | exact h.ifNamed hname | exact .none

theorem Near.otherMember? (use : MemberUse) (h : C.Near c d) :
    Option.Rel C.Near (otherMember? use name c) (otherMember? use name d) := by
  unfold Resolve.otherMember?
  rw [h.kind]
  split
  all_goals first | exact h.ifNamed hname | exact .none

theorem Near.ownMember? (use : MemberUse) (h : C.Near c d) :
    Option.Rel C.Near (ownMember? use name c) (ownMember? use name d) :=
  rel_or (rel_findSome? h.children fun _ _ hab => hab.directMember? hname use)
    (rel_findSome? h.children fun _ _ hab => hab.otherMember? hname use)

/-- A member is found in the same class, its own or one that it extends. -/
theorem NearOf.member? (use : MemberUse) (budget : Nat) (h : C.NearOf .classDeclaration c d) :
    Option.Rel C.Near (member? use name budget c) (member? use name budget d) := by
  induction budget generalizing c d with
  | zero => exact .none
  | succ budget ih =>
    refine rel_or (h.1.ownMember? hname use) ?_
    rw [h.baseName?]
    cases Resolve.baseName? c with
    | none => exact .none
    | some base =>
      simp only [Option.bind_eq_bind, Option.bind_some]
      refine rel_bind (h.1.classNamed? base) fun a b hab => ?_
      rw [hab.1.same h.1]
      split
      · exact .none
      · exact ih hab

end

/-- Inside all parentheses around it. -/
theorem close_unwrap : ∀ (n m : Node) (above above' : List (Node × Nat)), C.Alike n m →
    C.Exact n m → C.Way above above' → C.Close (unwrap above n) (unwrap above' m)
  | ⟨i, k, s, a, t, ns⟩, ⟨i', k', s', a', t', ms⟩, above, above', h, hexact, habove => by
    obtain rfl : k' = k := h.kind
    have hchildren := h.children
    cases k'
    case parenthesized =>
      have hinner := h.exact Kind.noConfusion
      dsimp only at hinner hchildren
      cases hchildren with
      | nil => exact ⟨⟨h, habove⟩, hexact⟩
      | cons hfirst _ =>
        cases hinner with
        | cons hclose _ =>
          rw [unwrap, unwrap]
          exact close_unwrap _ _ _ _ hfirst hclose (.cons ⟨h, rfl⟩ habove)
    all_goals exact ⟨⟨h, habove⟩, hexact⟩

def SameSymbol : Option String → Option String → Prop :=
  Option.Rel fun s t => TypeName.symbol? t = TypeName.symbol? s

theorem sameSymbol_of_map_eq {x y : Option String}
    (h : x.map TypeName.symbol? = y.map TypeName.symbol?) : SameSymbol x y := by
  cases x with
  | none =>
    rw [Option.map_eq_none_iff.mp h.symm]
    exact .none
  | some s =>
    obtain ⟨t, rfl, ht⟩ := Option.map_eq_some_iff.mp h.symm
    exact .some ht

def Typed (C : Comparison) : Prop := ∀ x y, C.types x y → SameSymbol x y

/-- What is declared goes before what is inferred. -/
theorem annotated_eq {x y s t : Option String} : SameSymbol x y → t = s →
      (match y with
        | some text => TypeName.symbol? text
        | none => t) =
      match x with
        | some text => TypeName.symbol? text
        | none => s := by
  intro h hst
  cases h with
  | none => exact hst
  | some hxy => exact hxy

def Steady (C : Comparison) (resolve : Resolver) : Prop :=
  ∀ c d, C.Close c d → resolve d = resolve c

section
variable {resolve : Resolver} (hC : C.Typed)
include hC

theorem Near.declaredSymbol? (h : C.Near c d) : declaredSymbol? d = declaredSymbol? c :=
  bind_eq_of_rel (hC _ _ h.focus.declared) fun _ _ hst => hst

variable (hresolve : C.Steady resolve)
include hresolve

/-- Without an annotation the type is that of what comes last, if that is no decorator. -/
theorem Near.valueType? (h : C.Near c d) : valueType? resolve d = valueType? resolve c := by
  have hannotated {kind : Kind} (hc : c.kind = kind) (hkind : kind ≠ .propertyAssignment) :=
    annotated_eq (hC _ _ h.focus.declared) (bind_eq_of_rel (rel_filter (h.lastChild? (hc ▸ hkind))
      (p := (·.kind != .decorator)) (q := (·.kind != .decorator)) fun _ _ hab => by rw [hab.kind])
      fun a b hab => hresolve a b hab.1)
  unfold Resolve.valueType?
  rw [h.kind]
  split
  · exact hannotated ‹_› Kind.noConfusion
  · exact hannotated ‹_› Kind.noConfusion
  · exact hannotated ‹_› Kind.noConfusion
  · exact hannotated ‹_› Kind.noConfusion
  · exact h.declaredSymbol? hC
  · rfl

omit hC in
theorem Close.classOf? (h : C.Close c d) :
    Option.Rel (C.NearOf .classDeclaration) (classOf? resolve c) (classOf? resolve d) := by
  unfold Resolve.classOf?
  rw [h.kind, hresolve c d h]
  split
  · exact h.nearestClass?
  · cases resolve c with
    | none => exact .none
    | some name => exact h.classNamed? name

omit hC hresolve in
theorem Near.calledBy? (h : C.Near c d) : Option.Rel C.Near (calledBy? c) (calledBy? d) := by
  unfold Resolve.calledBy?
  rw [h.kind]
  split
  · exact rel_imp (rel_filter (h.child? 0) fun _ _ hab => by rw [hab.kind]) fun _ _ hab => hab.1
  · exact .some h

omit hC in
/-- A callee stands for the same function. -/
theorem Close.target? (budget : Nat) (h : C.Close c d) :
    Option.Rel C.Near (target? resolve budget c) (target? resolve budget d) := by
  unfold Resolve.target?
  rw [h.kind]
  split
  · rename_i hkind
    refine rel_bind (Alike.nameText (h.exact hkind)) fun x y hxy => ?_
    obtain ⟨rfl, htoken⟩ := hxy
    exact rel_bind (h.declaration? htoken) fun _ _ hab => hab.calledBy?
  · rename_i hkind
    refine rel_bind (h.nameText hkind rfl) fun x y hxy => ?_
    obtain ⟨rfl, htoken⟩ := hxy
    refine rel_bind h.receiver? fun a b hab => ?_
    exact rel_bind (hab.classOf? hresolve) fun _ _ howner => howner.member? htoken .call budget
  · exact .none

theorem Close.returnType? (budget : Nat) (h : C.Close c d) :
    returnType? resolve budget d = returnType? resolve budget c := by
  have htarget := (close_unwrap _ _ _ _ h.focus h.exact h.above).target? hresolve budget
  refine bind_eq_of_rel (rel_filter htarget fun _ _ hab => by rw [hab.kind]) fun a b hab => ?_
  exact hab.1.declaredSymbol? hC

end

/-- The types of expressions, however far declarations are followed. -/
theorem steady_typeWithin (hC : C.Typed) (budget : Nat) : C.Steady (typeWithin budget) := by
  induction budget with
  | zero => exact fun _ _ _ => rfl
  | succ budget ih =>
    intro c d h
    have hchild {kind : Kind} (hc : c.kind = kind) (hkind : kind ≠ .propertyAssignment) :
        (d.child? 0).bind (typeWithin budget) = (c.child? 0).bind (typeWithin budget) :=
      bind_eq_of_rel (h.closeChild? (hc ▸ hkind) 0) ih
    rw [typeWithin, typeWithin, h.kind]
    split
    · exact hchild ‹_› Kind.noConfusion
    · exact annotated_eq (hC _ _ h.focus.declared) (hchild ‹_› Kind.noConfusion)
    · exact bind_eq_of_rel h.receiver? fun a b hab => by rw [hab.dottedName]
    · refine bind_eq_of_rel h.nearestClass? fun a b hab => ?_
      exact eq_of_rel (hab.1.nameText hab.2 rfl) fun _ _ hxy => hxy.1
    · rename_i hkind
      refine bind_eq_of_rel (Alike.nameText (h.exact hkind)) fun x y hxy => ?_
      obtain ⟨rfl, htoken⟩ := hxy
      exact bind_eq_of_rel (h.declaration? htoken) fun _ _ hab => hab.valueType? hC ih
    · rename_i hkind
      refine bind_eq_of_rel h.receiver? fun a b hab => ?_
      refine bind_eq_of_rel (hab.classOf? ih) fun owner owner' howner => ?_
      refine bind_eq_of_rel (h.nameText hkind rfl) fun x y hxy => ?_
      obtain ⟨rfl, htoken⟩ := hxy
      exact bind_eq_of_rel (howner.member? htoken .value budget) fun _ _ hab => hab.valueType? hC ih
    · exact bind_eq_of_rel h.receiver? fun a b hab => hab.returnType? hC ih budget
    · rfl

end Subscriptions.Comparison
