import Subscriptions.Grammar.Program

namespace Subscriptions

def Kind.isMember : Kind → Bool
  | .block | .constructor | .methodDeclaration | .getAccessor | .propertyDeclaration => true
  | _ => false

/-- The step from a parent to a child that the grammar does not count as nesting: to a decorator,
or from a class to its base. -/
def freeStep (parent child : Kind) : Bool :=
  child == .decorator || (parent == .classDeclaration && !child.isMember)

mutual
/-- By how many the classes on a path into the tree can outnumber the free steps on it. -/
def Node.excess : Node → Nat
  | ⟨_, kind, _, _, _, children⟩ =>
    excessBelow kind children + if kind = .classDeclaration then 1 else 0

def excessBelow (parent : Kind) : List Node → Nat
  | [] => 0
  | c :: cs => max (c.excess - if freeStep parent c.kind then 1 else 0) (excessBelow parent cs)
end

theorem excessBelow_le_iff {parent : Kind} {b : Nat} {ns : List Node} : excessBelow parent ns ≤ b ↔
    ∀ n ∈ ns, n.excess ≤ b + if freeStep parent n.kind then 1 else 0 := by
  induction ns with
  | nil => simp [excessBelow]
  | cons n ns ih =>
    rw [excessBelow, Nat.max_le, Nat.sub_le_iff_le_add, ih, List.forall_mem_cons]

namespace Grammar

/-- The node can stand below any other one that has `b` levels left. -/
def Fits (b : Nat) (n : Node) : Prop := n.excess ≤ b + if n.kind = .decorator then 1 else 0

/-- The node has `b` levels and is no member of a class. -/
structure Term (b : Nat) (n : Node) : Prop where
  excess_le : n.excess ≤ b
  kind : n.kind.isMember = false

variable {b c depth start : Nat} {n : Node} {ns ms children : List Node} {kind : Kind}

theorem fits_of_excess_le (h : n.excess ≤ b) : Fits b n := Nat.le_trans h (Nat.le_add_right _ _)

theorem Term.fits (h : Term b n) : Fits b n := fits_of_excess_le h.excess_le

theorem Term.mono (h : Term b n) (hb : b ≤ c) : Term c n := ⟨Nat.le_trans h.excess_le hb, h.kind⟩

theorem Fits.mono (h : Fits b n) (hb : b ≤ c) : Fits c n :=
  Nat.le_trans h (Nat.add_le_add_right hb _)

theorem Fits.excess_le (h : Fits b n) (parent : Kind) :
    n.excess ≤ b + if freeStep parent n.kind then 1 else 0 := by
  rw [Fits] at h
  by_cases hd : n.kind = .decorator
  · simpa [hd, freeStep] using h
  · rw [if_neg hd] at h
    omega

theorem excess_le_of_children (h : ∀ n ∈ children, Fits b n) (hkind : kind ≠ .classDeclaration)
    {serial : Nat} {span : Span} {name : Option Name} {declared : Option String} :
    (Node.mk serial kind span name declared children).excess ≤ b := by
  have hbelow : excessBelow kind children ≤ b := by
    rw [excessBelow_le_iff]
    exact fun n hn => (h n hn).excess_le kind
  simpa [Node.excess, hkind] using hbelow

variable {α β : Type} {p q : Parse α} {P Q : α → Prop} {R : β → Prop}

/-- Whatever a parse comes to at a depth is as `Q` says. -/
def Gives (depth : Nat) (p : Parse α) (Q : α → Prop) : Prop :=
  ∀ s a s', p depth s = some (a, s') → Q a

theorem Gives.bind {f : α → Parse β} (hp : Gives depth p P) (hf : ∀ a, P a → Gives depth (f a) R) :
    Gives depth (p >>= f) R := by
  intro s b s' h
  rw [Parse.bind_run, Option.bind_eq_some_iff] at h
  obtain ⟨⟨a, s₁⟩, hfirst, hrest⟩ := h
  exact hf a (hp s a s₁ hfirst) s₁ b s' hrest

/-- A step whose result does not matter. -/
theorem Gives.skip {f : α → Parse β} (hf : ∀ a, Gives depth (f a) R) : Gives depth (p >>= f) R :=
  Gives.bind (P := fun _ => True) (fun _ _ _ _ => trivial) fun a _ => hf a

theorem Gives.imp (hp : Gives depth p P) (h : ∀ a, P a → Q a) : Gives depth p Q :=
  fun s a s' hrun => h a (hp s a s' hrun)

theorem gives_pure {a : α} (ha : Q a) : Gives depth (pure a) Q := by
  intro s a' s' h
  obtain ⟨rfl, -⟩ := Prod.mk.inj (Option.some.inj h)
  exact ha

theorem Gives.ite {x : Prop} [Decidable x] (hp : Gives depth p Q) (hq : Gives depth q Q) :
    Gives depth (if x then p else q) Q := by
  split <;> assumption

theorem gives_turns {turn : Parse (List Node × Bool)}
    (h : Gives depth turn fun r => ∀ n ∈ r.1, Fits b n) (k : Nat) :
    Gives depth (turns k turn) fun ns => ∀ n ∈ ns, Fits b n := by
  induction k with
  | zero =>
    intro s ns s' hrun
    cases hrun
  | succ k ih =>
    refine h.bind ?_
    rintro ⟨ns, more⟩ hns
    refine .ite ?_ (gives_pure hns)
    refine ih.bind fun ms hms => gives_pure ?_
    exact List.forall_mem_append.mpr ⟨hns, hms⟩

theorem gives_gather {turn : Parse (List Node × Bool)}
    (h : Gives depth turn fun r => ∀ n ∈ r.1, Fits b n) :
    Gives depth (gather turn) fun ns => ∀ n ∈ ns, Fits b n :=
  .skip fun _ => gives_turns h _

theorem gives_climb {turn : Node → Parse (Node × Bool)} {Q : Node → Prop}
    (h : ∀ n, Q n → Gives depth (turn n) fun r => Q r.1) (hn : Q n) :
    Gives depth (climb turn n) Q := by
  have hclimbs (k : Nat) : ∀ n, Q n → Gives depth (climbs k turn n) Q := by
    induction k with
    | zero =>
      intro n _ s a s' hrun
      cases hrun
    | succ k ih =>
      intro n hn
      refine (h n hn).bind ?_
      rintro ⟨m, more⟩ hm
      exact .ite (ih m hm) (gives_pure hm)
  exact .skip fun _ => hclimbs _ n hn

theorem gives_moved {p : Parse Node} {Q : Node → Prop} (h : Gives depth p Q) :
    Gives depth (moved p) fun r => Q r.1 :=
  .skip fun _ => h.bind fun _ hn => .skip fun _ => gives_pure hn

theorem gives_build {name : Option Name} {declared : Option String} (hkind : kind ≠ .classDeclaration)
    (h : ∀ n ∈ children, Fits b n) :
    Gives depth (buildNamed kind start name declared children) fun n => n.excess ≤ b := by
  intro s a s' hrun
  obtain ⟨rfl, -⟩ := Prod.mk.inj (Option.some.inj hrun)
  exact excess_le_of_children h hkind

theorem gives_node {name : Option Name} {declared : Option String} (hkind : kind ≠ .classDeclaration)
    (h : ∀ n ∈ children, Fits b n) :
    Gives depth (buildNamed kind start name declared children) (Fits b) :=
  (gives_build hkind h).imp fun _ => fits_of_excess_le

theorem gives_term {name : Option Name} {declared : Option String} (hkind : kind ≠ .classDeclaration)
    (hmember : kind.isMember = false) (h : ∀ n ∈ children, Fits b n) :
    Gives depth (buildNamed kind start name declared children) (Term b) := by
  intro s a s' hrun
  obtain ⟨rfl, -⟩ := Prod.mk.inj (Option.some.inj hrun)
  exact ⟨excess_le_of_children h hkind, hmember⟩

theorem forall_mem_single {x : Node} (h : Fits b x) : ∀ n ∈ [x], Fits b n :=
  List.forall_mem_singleton.mpr h

theorem forall_mem_nil : ∀ n ∈ ([] : List Node), Fits b n := fun _ h => absurd h List.not_mem_nil

/-- What the rules give inside at a depth where `b` levels are left. An access is not counted as
nesting, so it gives one more. -/
structure Leaves (b depth : Nat) (go : Recur) : Prop where
  statement : Gives depth (go .statement) fun n => n.excess ≤ b
  term : ∀ r, r ≠ .statement → r ≠ .access → Gives depth (go r) (Term b)
  access : Gives depth (go .access) (Term (b + 1))

variable {go : Recur}

theorem Leaves.mono (h : Leaves b depth go) (hb : b ≤ c) : Leaves c depth go := by
  constructor
  · exact h.statement.imp fun _ hn => Nat.le_trans hn hb
  · exact fun r hr hr' => (h.term r hr hr').imp fun _ hn => hn.mono hb
  · exact h.access.imp fun _ hn => hn.mono (Nat.add_le_add_right hb 1)

theorem Leaves.assignment (h : Leaves b depth go) : Gives depth (go .assignment) (Term b) :=
  h.term _ nofun nofun

theorem gives_decorators (h : Leaves b depth go) :
    Gives depth (decorators go) fun ns => ∀ n ∈ ns, Fits b n := by
  apply gives_gather
  refine .skip fun s => .ite ?_ (gives_pure forall_mem_nil)
  refine .skip fun start => .skip fun _ => ?_
  refine h.access.bind fun expression hexpression => ?_
  have hdecorator : Gives depth (build .decorator start [expression]) (Fits b) := by
    intro s a s' hrun
    obtain ⟨rfl, -⟩ := Prod.mk.inj (Option.some.inj hrun)
    have hkind : Kind.decorator ≠ .classDeclaration := nofun
    exact excess_le_of_children (forall_mem_single hexpression.fits) hkind
  exact hdecorator.bind fun decorator hfits => gives_pure (forall_mem_single hfits)

theorem gives_initializer (h : Leaves b depth go) :
    Gives depth (initializer go) fun ns => ∀ n ∈ ns, Fits b n := by
  refine .skip fun more => .ite ?_ (gives_pure forall_mem_nil)
  exact h.assignment.bind fun value hvalue => gives_pure (forall_mem_single hvalue.fits)

theorem gives_parameter (h : Leaves b depth go) : Gives depth (parameter go) (Fits b) := by
  refine .skip fun start => ?_
  refine (gives_decorators h).bind fun decorations hdecorations => ?_
  refine .skip fun s => .skip fun _ => .skip fun _ => .skip fun name => .skip fun _ => ?_
  refine .skip fun declared => ?_
  refine (gives_initializer h).bind fun value hvalue => ?_
  refine gives_node ?_ (List.forall_mem_append.mpr ⟨hdecorations, hvalue⟩)
  split <;> exact nofun

theorem gives_parameters (h : Leaves b depth go) :
    Gives depth (parameters go) fun ns => ∀ n ∈ ns, Fits b n := by
  refine .skip fun more => .ite ?_ (.skip fun _ => gives_pure forall_mem_nil)
  refine Gives.bind (gives_gather ?_) fun nodes hnodes => .skip fun _ => gives_pure hnodes
  refine .skip fun s => .ite (gives_pure forall_mem_nil) ?_
  refine (gives_parameter h).bind fun node hnode => .skip fun more => ?_
  exact gives_pure (forall_mem_single hnode)

theorem gives_statementsToBrace (h : Leaves b depth go) :
    Gives depth (statementsToBrace go) fun ns => ∀ n ∈ ns, Fits b n := by
  apply gives_gather
  refine .skip fun s => .ite (gives_pure forall_mem_nil) ?_
  refine (gives_moved h.statement).bind ?_
  rintro ⟨node, progress⟩ hnode
  have hnow : ∀ n ∈ [node], Fits b n := forall_mem_single (fits_of_excess_le hnode)
  exact .ite (.skip fun _ => .skip fun _ => gives_pure hnow) (gives_pure hnow)

theorem gives_block (h : Leaves b depth go) : Gives depth (block go) fun n => n.excess ≤ b := by
  refine .skip fun start => .skip fun _ => ?_
  refine (gives_statementsToBrace h).bind fun statements hstatements => .skip fun _ => ?_
  exact gives_build nofun hstatements

theorem gives_bodyOrSemicolon (h : Leaves b depth go) :
    Gives depth (bodyOrSemicolon go) fun ns => ∀ n ∈ ns, Fits b n := by
  refine .skip fun s => .ite ?_ (.skip fun _ => gives_pure forall_mem_nil)
  refine (gives_block h).bind fun body hbody => gives_pure ?_
  exact forall_mem_single (fits_of_excess_le hbody)

theorem gives_function (h : Leaves b depth go) (hkind : kind ≠ .classDeclaration)
    (hmember : kind.isMember = false) : Gives depth (function go kind) (Term b) := by
  refine .skip fun start => .skip fun _ => .skip fun _ => .skip fun name => .skip fun _ => ?_
  refine (gives_parameters h).bind fun params hparams => .skip fun returned => ?_
  refine (gives_bodyOrSemicolon h).bind fun body hbody => ?_
  exact gives_term hkind hmember (List.forall_mem_append.mpr ⟨hparams, hbody⟩)

theorem gives_undecoratedMember (h : Leaves b depth go) :
    Gives depth (undecoratedMember go) (Fits b) := by
  refine .skip fun start => .skip fun s => .ite (.skip fun _ => ?_) ?_
  · exact (gives_block h).imp fun _ => fits_of_excess_le
  refine .skip fun _ => Gives.bind (P := (· ≠ .classDeclaration)) ?_ fun kind hkind => ?_
  · refine .skip fun s => .ite (.skip fun _ => ?_) (gives_pure nofun)
    apply gives_pure
    split <;> exact nofun
  refine .skip fun _ => .skip fun s => .ite ?_ ?_
  · refine .skip fun _ => (gives_parameters h).bind fun params hparams => ?_
    refine (gives_bodyOrSemicolon h).bind fun body hbody => ?_
    exact gives_node nofun (List.forall_mem_append.mpr ⟨hparams, hbody⟩)
  refine .skip fun name => .skip fun _ => .skip fun _ => .skip fun s => .ite ?_ ?_
  · refine .skip fun _ => (gives_parameters h).bind fun params hparams => .skip fun returned => ?_
    refine (gives_bodyOrSemicolon h).bind fun body hbody => ?_
    exact gives_node hkind (List.forall_mem_append.mpr ⟨hparams, hbody⟩)
  · refine .skip fun declared => (gives_initializer h).bind fun value hvalue => .skip fun _ => ?_
    exact gives_node nofun hvalue

theorem gives_classMembers (h : Leaves b depth go) :
    Gives depth (classMembers go) fun ns => ∀ n ∈ ns, Fits b n := by
  apply gives_gather
  refine .skip fun s => .ite (gives_pure forall_mem_nil) ?_
  refine .ite (.skip fun _ => gives_pure forall_mem_nil) ?_
  refine (gives_decorators h).bind fun decorations hdecorations => ?_
  refine (gives_undecoratedMember h).bind fun member hmember => .skip fun s => ?_
  have hnow : ∀ n ∈ decorations ++ [member], Fits b n :=
    List.forall_mem_append.mpr ⟨hdecorations, forall_mem_single hmember⟩
  exact .ite (.skip fun _ => .skip fun _ => gives_pure hnow) (gives_pure hnow)

theorem gives_heritage (h : Leaves b depth go) :
    Gives depth (heritage go) fun ns => ∀ n ∈ ns, Term (b + 1) n := by
  refine .skip fun more => .ite ?_ (gives_pure fun _ hn => absurd hn List.not_mem_nil)
  refine h.access.bind fun base hbase => .skip fun _ => gives_pure ?_
  exact List.forall_mem_singleton.mpr hbase

/-- A class spends a level, and its base and its decorators have one more than its members. -/
theorem gives_classBody (h : Leaves b depth go) {decorations : List Node}
    (hdecorations : ∀ n ∈ decorations, Fits b n) :
    Gives depth (classBody go decorations) (Term (b + 1)) := by
  have hrest (name : Option Name) (start : Nat) : Gives depth (do
      skipAngles
      let base ← heritage go
      if ← acceptWord "implements" then
        let _ ← typeUpTo ["\x7b"]
      expect "\x7b"
      let members ← classMembers go
      expect "\x7d"
      buildNamed .classDeclaration start name none (decorations ++ base ++ members))
      (Term (b + 1)) := by
    refine .skip fun _ => (gives_heritage h).bind fun base hbase => .skip fun more => ?_
    have hclass : Gives depth (do
        expect "\x7b"
        let members ← classMembers go
        expect "\x7d"
        buildNamed .classDeclaration start name none (decorations ++ base ++ members))
        (Term (b + 1)) := by
      refine .skip fun _ => (gives_classMembers h).bind fun members hmembers => .skip fun _ => ?_
      intro s a s' hrun
      obtain ⟨rfl, -⟩ := Prod.mk.inj (Option.some.inj hrun)
      refine ⟨?_, rfl⟩
      rw [Node.excess, if_pos rfl, Nat.add_le_add_iff_right, excessBelow_le_iff]
      intro n hn
      rw [List.mem_append, List.mem_append] at hn
      rcases hn with (hn | hn) | hn
      · exact (hdecorations n hn).excess_le _
      · have hfree : freeStep .classDeclaration n.kind = true := by
          simp [freeStep, (hbase n hn).kind]
        rw [if_pos hfree]
        exact (hbase n hn).excess_le
      · exact (hmembers n hn).excess_le _
    exact .ite (.skip fun _ => hclass) hclass
  refine .skip fun start => .skip fun _ => .skip fun s => .ite (hrest none start) ?_
  exact .skip fun name => hrest name start

end Grammar

end Subscriptions
