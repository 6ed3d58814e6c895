import Subscriptions.Grammar.Program
import Subscriptions.Proofs.Rule.Classification
import Subscriptions.Proofs.Syntax.Postorder

namespace Subscriptions

namespace Cursor

variable {root : Node} {a b c : Cursor}

theorem ancestors_of_parent? (h : c.parent? = some a) : c.ancestors = a :: a.ancestors := by
  obtain ⟨focus, above⟩ := c
  cases above with
  | nil => cases h
  | cons p above =>
    obtain rfl := Option.some.inj h
    rfl

theorem mem_ancestors_of_parent? (h : c.parent? = some a) : a ∈ c.ancestors := by
  rw [ancestors_of_parent? h]
  exact List.mem_cons_self

/-- The way up from an ancestor is part of the way up. -/
theorem mem_ancestors_trans (hb : b ∈ c.ancestors) (ha : a ∈ b.ancestors) : a ∈ c.ancestors := by
  obtain ⟨focus, above⟩ := c
  induction above generalizing focus with
  | nil => cases hb
  | cons p above ih =>
    have hparent : (Cursor.mk focus (p :: above)).parent? = some ⟨p.1, above⟩ := rfl
    rw [ancestors_of_parent? hparent] at hb ⊢
    rcases List.mem_cons.mp hb with rfl | hb
    · exact List.mem_cons_of_mem _ ha
    · exact List.mem_cons_of_mem _ (ih _ hb)

/-- With a node its ancestors are in the tree. -/
theorem mem_preorder_of_mem_ancestors (hc : c ∈ root.asRoot.preorder) (ha : a ∈ c.ancestors) :
    a ∈ root.asRoot.preorder := by
  obtain ⟨focus, above⟩ := c
  induction above generalizing focus with
  | nil => cases ha
  | cons p above ih =>
    rcases eq_asRoot_or_child hc with hroot | ⟨q, i, -, -, -, hq, hancestors⟩
    · cases hroot
    · have hparent : (Cursor.mk focus (p :: above)).parent? = some ⟨p.1, above⟩ := rfl
      rw [ancestors_of_parent? hparent] at ha hancestors
      obtain ⟨rfl, -⟩ := List.cons.inj hancestors
      rcases List.mem_cons.mp ha with rfl | ha
      · exact hq
      · exact ih _ hq ha

theorem mem_ancestors_of_nearest? {p : Cursor → Bool} (h : c.nearest? p = some a) :
    a ∈ c.ancestors := List.mem_of_find?_eq_some h

/-- Children at two positions are two children. -/
theorem child?_inj {i j : Nat} (hi : c.child? i = some a) (hj : c.child? j = some a) : i = j := by
  obtain ⟨n, -, hn⟩ := Option.map_eq_some_iff.mp hi
  obtain ⟨m, -, hm⟩ := Option.map_eq_some_iff.mp hj
  have habove := congrArg Cursor.above (hn.trans hm.symm)
  exact congrArg Prod.snd (List.cons.inj habove).1

/-- In a tree a node stands where its parent has it. -/
theorem child?_of_parent? {i : Nat} (hc : c ∈ root.asRoot.preorder) (hparent : c.parent? = some a)
    (hindex : c.indexInParent? = some i) : a.child? i = some c := by
  rcases eq_asRoot_or_child hc with rfl | ⟨p, j, hp, hj, hchild, -⟩
  · cases hparent
  · obtain rfl := Option.some.inj (hp.symm.trans hparent)
    obtain rfl := Option.some.inj (hj.symm.trans hindex)
    obtain ⟨focus, above⟩ := c
    cases above with
    | nil => cases hp
    | cons q above =>
      obtain rfl := Option.some.inj hp
      obtain rfl := Option.some.inj hj
      rw [child?, hchild]
      rfl

end Cursor

namespace UntrackedRule

variable {rule : UntrackedRule} {root : Node} {c f site : Cursor}

/-- A `new` expression whose callee has the name of a configured class. -/
structure Constructs (rule : UntrackedRule) (site : Cursor) : Prop where
  kind : site.kind = .construction
  configured : ∃ callee name, site.child? 0 = some callee ∧
    callee.focus.dottedName = some name ∧ name ∈ rule.constructors

/-- A function literal or declaration that is passed directly, as an argument and not as the callee,
to a construction of a configured class. -/
structure PassedTo (rule : UntrackedRule) (site f : Cursor) : Prop where
  constructs : rule.Constructs site
  function : f.kind.isFunction = true
  argument : ∃ i, 0 < i ∧ site.child? i = some f

theorem constructs_of_isConstruction (h : rule.isConstruction site = true) :
    rule.Constructs site := by
  have hkind := kind_of_isConstruction h
  rw [isConstruction, Bool.and_eq_true, Option.any_eq_true] at h
  obtain ⟨-, name, hname, hmem⟩ := h
  obtain ⟨callee, hcallee, hdotted⟩ := Option.bind_eq_some_iff.mp hname
  have hreceiver : site.kind.hasReceiver = true := by rw [hkind]; rfl
  rw [Cursor.receiver?, if_pos hreceiver] at hcallee
  exact ⟨hkind, callee, name, hcallee, hdotted, by simpa using hmem⟩

/-- Without configured classes nothing is a construction. -/
theorem isConstruction_of_constructors_nil (h : rule.constructors = []) :
    rule.isConstruction c = false := by
  rw [Bool.eq_false_iff]
  intro hc
  obtain ⟨_, name, -, -, hmem⟩ := (constructs_of_isConstruction hc).configured
  rw [h] at hmem
  cases hmem

/-- A teardown function is passed to its parent. -/
theorem passedTo_of_isTeardownFunction (hf : f ∈ root.asRoot.preorder)
    (hfunction : f.kind.isFunction = true) (h : rule.isTeardownFunction f = true) :
    ∃ site, f.parent? = some site ∧ rule.PassedTo site f := by
  rw [isTeardownFunction, Bool.and_eq_true, Option.any_eq_true, Option.any_eq_true] at h
  obtain ⟨⟨site, hparent, hsite⟩, i, hindex, hi⟩ := h
  have hchild := Cursor.child?_of_parent? hf hparent hindex
  exact ⟨site, hparent, constructs_of_isConstruction hsite, hfunction, i, of_decide_eq_true hi,
    hchild⟩

def InTeardown (rule : UntrackedRule) (c : Cursor) : Prop :=
  ∃ f ∈ c.ancestors, f.kind.isFunction = true ∧ rule.isTeardownFunction f = true

theorem inTeardown_of_nearestFunction? {d : Cursor} (hd : d = c ∨ d ∈ c.ancestors)
    (hnearest : nearestFunction? d = some f) (h : rule.isTeardownFunction f = true) :
    rule.InTeardown c := by
  have hmem := Cursor.mem_ancestors_of_nearest? hnearest
  have hfunction : f.kind.isFunction = true :=
    List.find?_some (p := fun a : Cursor => a.kind.isFunction) hnearest
  refine ⟨f, ?_, hfunction, h⟩
  rcases hd with rfl | hd
  · exact hmem
  · exact Cursor.mem_ancestors_trans hd hmem

/-- The declaration that a call initializes is above the call. -/
theorem mem_ancestors_of_assignedTo? {declaration : Cursor}
    (h : assignedTo? c = some declaration) : declaration ∈ c.ancestors := by
  obtain ⟨call, hcall, h⟩ := Option.bind_eq_some_iff.mp h
  obtain ⟨callee, -, h⟩ := Option.bind_eq_some_iff.mp h
  split at h
  · have hparent := (Option.filter_eq_some_iff.mp hcall).1
    have hdeclaration := (Option.filter_eq_some_iff.mp h).1
    exact Cursor.mem_ancestors_trans (Cursor.mem_ancestors_of_parent? hparent)
      (Cursor.mem_ancestors_of_parent? hdeclaration)
  · cases h

/-- Each of the three ways to be returned has its teardown function above. -/
theorem inTeardown_of_returnsOwnTeardown (h : rule.returnsOwnTeardown c = true) :
    rule.InTeardown c := by
  rw [returnsOwnTeardown, Bool.or_eq_true, Bool.or_eq_true] at h
  rcases h with (hunder | hassigned) | hbody
  · rw [underReturn, Option.any_eq_true] at hunder
    obtain ⟨f, hf, hteardown⟩ := hunder
    obtain ⟨statement, hstatement, hnearest⟩ := Option.bind_eq_some_iff.mp hf
    exact inTeardown_of_nearestFunction? (.inr (Cursor.mem_ancestors_of_nearest? hstatement))
      hnearest hteardown
  · rw [assignedThenReturned] at hassigned
    have hfound := (Option.getD_eq_iff.mp hassigned).resolve_right (by simp)
    obtain ⟨declaration, hdeclaration, hfound⟩ := Option.bind_eq_some_iff.mp hfound
    obtain ⟨name, -, hfound⟩ := Option.bind_eq_some_iff.mp hfound
    obtain ⟨f, hnearest, hfound⟩ := Option.bind_eq_some_iff.mp hfound
    have hteardown := ((Bool.and_eq_true _ _).mp (Option.some.inj hfound)).1
    exact inTeardown_of_nearestFunction? (.inr (mem_ancestors_of_assignedTo? hdeclaration))
      hnearest hteardown
  · rw [inExpressionBody, Option.any_eq_true] at hbody
    obtain ⟨f, hnearest, hf⟩ := hbody
    have hteardown := ((Bool.and_eq_true _ _).mp ((Bool.and_eq_true _ _).mp hf).1).2
    exact inTeardown_of_nearestFunction? (.inl rfl) hnearest hteardown

theorem returnsOwnTeardown_of_exempt (h : rule.classify c = .exempt) :
    rule.returnsOwnTeardown c = true := by
  rw [classify] at h
  split at h
  · assumption
  · split at h <;> cases h

theorem exists_passedTo_of_exempt (hc : c ∈ root.asRoot.preorder) (h : rule.classify c = .exempt) :
    ∃ site, ∃ f ∈ c.ancestors, f.parent? = some site ∧ rule.PassedTo site f := by
  obtain ⟨f, hf, hfunction, hteardown⟩ :=
    inTeardown_of_returnsOwnTeardown (returnsOwnTeardown_of_exempt h)
  have hmem := Cursor.mem_preorder_of_mem_ancestors hc hf
  obtain ⟨site, hparent, hpassed⟩ := passedTo_of_isTeardownFunction hmem hfunction hteardown
  exact ⟨site, f, hf, hparent, hpassed⟩

/-- Without configured classes nothing is exempt, and nothing is at a construction site. -/
theorem classify_of_constructors_nil (hc : c ∈ root.asRoot.preorder) (h : rule.constructors = []) :
    rule.classify c = .plain := by
  have hnone : rule.returnsOwnTeardown c = false := by
    rw [Bool.eq_false_iff]
    intro hreturns
    have hexempt : rule.classify c = .exempt := by rw [classify, if_pos hreturns]
    obtain ⟨site, _, -, -, hpassed⟩ := exists_passedTo_of_exempt hc hexempt
    obtain ⟨_, name, -, -, hmem⟩ := hpassed.constructs.configured
    rw [h] at hmem
    cases hmem
  cases hnearest : c.nearest? (·.kind == .construction) with
  | none => exact classify_of_nearest_none hnone hnearest
  | some site => simp [classify_of_nearest hnone hnearest, isConstruction_of_constructors_nil h]

theorem violation?_of_plain {resolve : Resolver} (h : rule.classify c = .plain)
    (hmatch : rule.isSubscription resolve c = true) : rule.violation? resolve c =
      some ⟨c, (c.focus.name.map Name.span).getD c.span, false⟩ := by
  simp [violation?, hmatch, h]

/-- Whatever is exempt stands in a function that is passed directly to a configured construction:
nothing outside of such functions is exempt, and nothing that is reached from each configured
construction through its callee or through an argument that is no function. Where no class is
configured, every match is a plain violation. -/
theorem exempt_only_in_passed_function (hc : c ∈ root.asRoot.preorder) :
    (rule.classify c = .exempt →
      ∃ site, ∃ f ∈ c.ancestors, f.parent? = some site ∧ rule.PassedTo site f) ∧
    ((∀ site, rule.Constructs site → ∀ f ∈ c.ancestors, f.parent? = some site →
      site.child? 0 = some f ∨ f.kind.isFunction = false) → rule.classify c ≠ .exempt) ∧
    (rule.constructors = [] → rule.classify c = .plain ∧
      ∀ resolve, rule.isSubscription resolve c = true → rule.violation? resolve c =
        some ⟨c, (c.focus.name.map Name.span).getD c.span, false⟩) := by
  refine ⟨exists_passedTo_of_exempt hc, fun haway hexempt => ?_, fun hnil => ?_⟩
  · obtain ⟨site, f, hf, hparent, hpassed⟩ := exists_passedTo_of_exempt hc hexempt
    obtain ⟨i, hi, hchild⟩ := hpassed.argument
    rcases haway site hpassed.constructs f hf hparent with hcallee | hother
    · exact absurd (Cursor.child?_inj hcallee hchild) (Nat.ne_of_lt hi)
    · rw [hpassed.function] at hother
      cases hother
  · have hplain := classify_of_constructors_nil hc hnil
    exact ⟨hplain, fun _ hmatch => violation?_of_plain hplain hmatch⟩

def returnedSource : List Char :=
  "new Observable((o) => { const s = inner.subscribe(o); return s; });".toList

theorem exempt_only_in_passed_function_returned :
    ∃ c ∈ (Parsed.ofSource returnedSource).root.asRoot.preorder,
      c.kind = .propertyAccess ∧ default.classify c = .exempt ∧
        ∃ site, ∃ f ∈ c.ancestors, f.parent? = some site ∧ default.PassedTo site f := by
  have h : ((Parsed.ofSource returnedSource).root.asRoot.preorder.any fun c =>
      c.kind == .propertyAccess && default.classify c == .exempt) = true := by
    decide +kernel
  obtain ⟨c, hmem, hc⟩ := List.any_eq_true.mp h
  obtain ⟨hkind, hexempt⟩ := (Bool.and_eq_true _ _).mp hc
  have hexempt := eq_of_beq hexempt
  exact ⟨c, hmem, eq_of_beq hkind, hexempt, (exempt_only_in_passed_function hmem).1 hexempt⟩

end UntrackedRule

end Subscriptions
