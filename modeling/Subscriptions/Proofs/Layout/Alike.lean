import Subscriptions.Proofs.Lockstep.Steps

namespace Subscriptions

section
variable {α β γ δ : Type} {R : α → β → Prop} {S : γ → δ → Prop} {xs : List α} {ys : List β}
  {x : Option α} {y : Option β} {p : α → Bool} {q : β → Bool}

theorem rel_getElem? (h : List.Forall₂ R xs ys) (i : Nat) : Option.Rel R xs[i]? ys[i]? := by
  induction h generalizing i with
  | nil => exact .none
  | cons hfirst _ ih =>
    cases i with
    | zero => exact .some hfirst
    | succ i => exact ih i

theorem forall₂_of_getElem? (h : ∀ i : Nat, Option.Rel R xs[i]? ys[i]?) : List.Forall₂ R xs ys := by
  induction xs generalizing ys with
  | nil =>
    cases ys with
    | nil => exact .nil
    | cons b ys => cases h 0
  | cons a xs ih =>
    cases ys with
    | nil => cases h 0
    | cons b ys =>
      cases h 0 with
      | some hfirst => exact .cons hfirst (ih fun i => h (i + 1))

theorem rel_getLast? (h : List.Forall₂ R xs ys) : Option.Rel R xs.getLast? ys.getLast? := by
  rw [List.getLast?_eq_getElem?, List.getLast?_eq_getElem?, h.length_eq]
  exact rel_getElem? h _

theorem rel_find? (h : List.Forall₂ R xs ys) (hpq : ∀ a b, R a b → q b = p a) :
    Option.Rel (fun a b => R a b ∧ p a = true) (xs.find? p) (ys.find? q) := by
  induction h with
  | nil => exact .none
  | @cons a b _ _ hfirst _ ih =>
    rw [List.find?_cons, List.find?_cons, hpq a b hfirst]
    cases hp : p a with
    | true => exact .some ⟨hfirst, hp⟩
    | false => exact ih

theorem rel_findSome? {f : α → Option γ} {g : β → Option δ} (h : List.Forall₂ R xs ys)
    (hfg : ∀ a b, R a b → Option.Rel S (f a) (g b)) :
    Option.Rel S (xs.findSome? f) (ys.findSome? g) := by
  induction h with
  | nil => exact .none
  | @cons a b _ _ hfirst _ ih =>
    rw [List.findSome?_cons, List.findSome?_cons]
    have hab := hfg a b hfirst
    generalize f a = c, g b = d at hab
    cases hab with
    | none => exact ih
    | some hcd => exact .some hcd

theorem any_eq_of_forall₂ (h : List.Forall₂ R xs ys) (hpq : ∀ a b, R a b → q b = p a) :
    ys.any q = xs.any p := by
  induction h with
  | nil => rfl
  | @cons a b _ _ hfirst _ ih => rw [List.any_cons, List.any_cons, ih, hpq a b hfirst]

theorem map_eq_of_forall₂ {f : α → γ} {g : β → γ} (h : List.Forall₂ R xs ys)
    (hfg : ∀ a b, R a b → g b = f a) : ys.map g = xs.map f := by
  induction h with
  | nil => rfl
  | @cons a b _ _ hfirst _ ih => rw [List.map_cons, List.map_cons, ih, hfg a b hfirst]

theorem any_eq_of_rel (h : Option.Rel R x y) (hpq : ∀ a b, R a b → q b = p a) :
    y.any q = x.any p := by
  cases h with
  | none => rfl
  | some hab => exact hpq _ _ hab

theorem rel_bind {f : α → Option γ} {g : β → Option δ} (h : Option.Rel R x y)
    (hfg : ∀ a b, R a b → Option.Rel S (f a) (g b)) : Option.Rel S (x.bind f) (y.bind g) := by
  cases h with
  | none => exact .none
  | some hab => exact hfg _ _ hab

theorem bind_eq_of_rel {f : α → Option γ} {g : β → Option γ} (h : Option.Rel R x y)
    (hfg : ∀ a b, R a b → g b = f a) : y.bind g = x.bind f := by
  cases h with
  | none => rfl
  | some hab => exact hfg _ _ hab

theorem eq_of_rel {x y : Option α} {R : α → α → Prop} (h : Option.Rel R x y)
    (hR : ∀ a b, R a b → b = a) : y = x := by
  cases h with
  | none => rfl
  | some hab => exact congrArg some (hR _ _ hab)

theorem rel_filter (h : Option.Rel R x y) (hpq : ∀ a b, R a b → q b = p a) :
    Option.Rel (fun a b => R a b ∧ p a = true) (x.filter p) (y.filter q) := by
  cases h with
  | none => exact .none
  | @some a b hab =>
    rw [Option.filter_some, Option.filter_some, hpq a b hab]
    cases hp : p a with
    | true => exact .some ⟨hab, hp⟩
    | false => exact .none

theorem rel_or {x' : Option α} {y' : Option β} (h : Option.Rel R x y) (h' : Option.Rel R x' y') :
    Option.Rel R (x.or x') (y.or y') := by
  cases h with
  | none => exact h'
  | some hab => exact .some hab

theorem rel_imp {R' : α → β → Prop} (h : Option.Rel R x y) (hR : ∀ a b, R a b → R' a b) :
    Option.Rel R' x y := by
  cases h with
  | none => exact .none
  | some hab => exact .some (hR _ _ hab)

end

/-- The text goes on after an opening bracket, as that of a computed member does and that of no
token. -/
def isComputed (text : String) : Bool := text.toList.head? == some '[' && text.toList != ['[']

/-- What two trees are compared by: the tokens that the one and the other are read from, and how the
types that they declare go together. -/
structure Comparison where
  tokens : List Token
  others : List Token
  types : Option String → Option String → Prop

namespace Comparison

/-- The names are the same token, here and there. -/
structure Written (C : Comparison) (a b : Name) : Prop where
  text : b.text = a.text
  token : isComputed a.text = false
  place : ∃ (i : Nat) (t u : Token), C.tokens[i]? = some t ∧ C.others[i]? = some u ∧
    a = ⟨t.text, t.span⟩ ∧ b = ⟨u.text, u.span⟩

def Spelled (a b : Name) : Prop :=
  b.text = a.text ∨ isComputed a.text = true ∧ isComputed b.text = true

def isLoose (kind : Kind) : Bool := kind.hasMemberName || kind == .identifier

def Titled (C : Comparison) (kind : Kind) : Option Name → Option Name → Prop :=
  Option.Rel (if isLoose kind then Spelled else C.Written)

def Exact (C : Comparison) (n m : Node) : Prop :=
  n.kind = .identifier → Option.Rel C.Written n.name m.name

/-- The trees look alike. Only below a shorthand member an identifier may be named by no token. -/
inductive Alike (C : Comparison) : Node → Node → Prop
  | node {n m : Node} (kind : m.kind = n.kind) (declared : C.types n.declared m.declared)
      (name : C.Titled n.kind n.name m.name)
      (exact : n.kind ≠ .propertyAssignment → List.Forall₂ C.Exact n.children m.children)
      (children : List.Forall₂ (Alike C) n.children m.children) : Alike C n m

variable {C : Comparison} {n m : Node} {c d : Cursor}

namespace Alike

theorem kind (h : C.Alike n m) : m.kind = n.kind := by cases h; assumption

theorem declared (h : C.Alike n m) : C.types n.declared m.declared := by cases h; assumption

theorem name (h : C.Alike n m) : C.Titled n.kind n.name m.name := by cases h; assumption

theorem exact (h : C.Alike n m) (hn : n.kind ≠ .propertyAssignment) :
    List.Forall₂ C.Exact n.children m.children := by
  cases h with
  | node _ _ _ hexact => exact hexact hn

theorem children (h : C.Alike n m) : List.Forall₂ C.Alike n.children m.children := by
  cases h; assumption

/-- All nodes but members and identifiers are named by a token. -/
theorem written (h : C.Alike n m) (hn : isLoose n.kind = false) :
    Option.Rel C.Written n.name m.name := by
  have hname := h.name
  rwa [Titled, hn] at hname

/-- The text of a name that is a token. -/
theorem nameText (h : Option.Rel C.Written n.name m.name) :
    Option.Rel (fun x y => y = x ∧ isComputed x = false) n.nameText m.nameText := by
  rw [Node.nameText, Node.nameText]
  generalize n.name = a, m.name = b at h
  cases h with
  | none => exact .none
  | some hab => exact .some ⟨hab.text, hab.token⟩

theorem isNamed (h : C.Alike n m) (hn : isLoose n.kind = false) (text : String) :
    m.isNamed text = n.isNamed text := by
  rw [Node.isNamed, Node.isNamed, eq_of_rel (nameText (h.written hn)) fun _ _ hxy => hxy.1]

theorem spelled (h : C.Alike n m) : Option.Rel Spelled n.name m.name := by
  have hname := h.name
  rw [Titled] at hname
  split at hname
  · exact hname
  · exact rel_imp hname fun a b hab => .inl hab.text

/-- The text of a token names both nodes or none of them. -/
theorem isNamed_token (h : C.Alike n m) {text : String} (htext : isComputed text = false) :
    m.isNamed text = n.isNamed text := by
  have hname := h.spelled
  rw [Node.isNamed, Node.isNamed, Node.nameText, Node.nameText]
  generalize n.name = a, m.name = b at hname
  cases hname with
  | none => rfl
  | @some a b hab =>
    rcases hab with hab | ⟨ha, hb⟩
    · rw [Option.map_some, Option.map_some, hab]
    · have hne {c : Name} (hc : isComputed c.text = true) : (some c.text == some text) = false := by
        rw [beq_eq_false_iff_ne]
        intro heq
        rw [Option.some.inj heq, htext] at hc
        cases hc
      exact (hne hb).trans (hne ha).symm

end Alike

abbrev Way (C : Comparison) : List (Node × Nat) → List (Node × Nat) → Prop :=
  List.Forall₂ fun p q => C.Alike p.1 q.1 ∧ q.2 = p.2

/-- The cursors stand at the same place of trees that look alike. -/
structure Near (C : Comparison) (c d : Cursor) : Prop where
  focus : C.Alike c.focus d.focus
  above : C.Way c.above d.above

/-- Moreover, an identifier there is named by a token. -/
structure Close (C : Comparison) (c d : Cursor) : Prop extends C.Near c d where
  exact : C.Exact c.focus d.focus

namespace Near

theorem kind (h : C.Near c d) : d.kind = c.kind := h.focus.kind

/-- The text of a name at a kind of node that is named by a token. -/
theorem nameText {kind : Kind} (h : C.Near c d) (hc : c.kind = kind)
    (hkind : isLoose kind = false) :
    Option.Rel (fun x y => y = x ∧ isComputed x = false) c.focus.nameText d.focus.nameText := by
  have hfocus : c.focus.kind = kind := hc
  exact Alike.nameText (h.focus.written (by rw [hfocus, hkind]))

theorem path (h : C.Near c d) : d.path = c.path := by
  have habove := h.above
  rw [Cursor.path, Cursor.path]
  generalize c.above = above, d.above = above' at habove
  induction habove with
  | nil => rfl
  | cons hfirst _ ih => rw [List.map_cons, List.map_cons, ih, hfirst.2]

theorem same {a b : Cursor} (h : C.Near c d) (h' : C.Near a b) : d.same b = c.same a := by
  rw [Cursor.same, Cursor.same, h.path, h'.path]

theorem indexInParent? (h : C.Near c d) : d.indexInParent? = c.indexInParent? := by
  have hpath := h.path
  rw [Cursor.path, Cursor.path] at hpath
  rw [Cursor.indexInParent?, Cursor.indexInParent?, ← List.head?_map, ← List.head?_map, hpath]

theorem parent? (h : C.Near c d) : Option.Rel C.Near c.parent? d.parent? := by
  obtain ⟨focus, above⟩ := c
  obtain ⟨focus', above'⟩ := d
  cases h.above with
  | nil => exact .none
  | cons hfirst hrest => exact .some ⟨hfirst.1, hrest⟩

theorem ancestors (h : C.Near c d) : List.Forall₂ C.Near c.ancestors d.ancestors := by
  have habove := h.above
  rw [Cursor.ancestors, Cursor.ancestors]
  generalize c.above = above, d.above = above' at habove
  induction habove with
  | nil => exact .nil
  | cons hfirst hrest ih => exact .cons ⟨hfirst.1, hrest⟩ ih

/-- The nearest place around of some kinds. -/
theorem nearest? (h : C.Near c d) (p : Kind → Bool) :
    Option.Rel (fun a b => C.Near a b ∧ p a.kind = true) (c.nearest? fun a => p a.kind)
      (d.nearest? fun b => p b.kind) :=
  rel_find? h.ancestors fun _ _ hab => by rw [hab.kind]

theorem root (h : C.Near c d) : C.Near c.root d.root := by
  have hlast := rel_getLast? h.ancestors
  rw [Cursor.root, Cursor.root, List.getLastD_eq_getLast?, List.getLastD_eq_getLast?]
  generalize c.ancestors.getLast? = a, d.ancestors.getLast? = b at hlast
  cases hlast with
  | none => exact h
  | some hab => exact hab

/-- Down to a child. -/
theorem down (h : C.Near c d) (i : Nat) (hnm : C.Alike n m) : C.Near (c.down i n) (d.down i m) :=
  ⟨hnm, .cons ⟨h.focus, rfl⟩ h.above⟩

theorem child? (h : C.Near c d) (i : Nat) : Option.Rel C.Near (c.child? i) (d.child? i) := by
  have hchild := rel_getElem? h.focus.children i
  rw [Cursor.child?, Cursor.child?]
  generalize c.focus.children[i]? = a, d.focus.children[i]? = b at hchild
  cases hchild with
  | none => exact .none
  | some hab => exact .some (h.down i hab)

theorem closeChild? (h : C.Near c d) (hc : c.kind ≠ .propertyAssignment) (i : Nat) :
    Option.Rel C.Close (c.child? i) (d.child? i) := by
  have hchild := rel_getElem? h.focus.children i
  have hexact := rel_getElem? (h.focus.exact hc) i
  rw [Cursor.child?, Cursor.child?]
  generalize c.focus.children[i]? = a, d.focus.children[i]? = b at hchild hexact
  cases hchild with
  | none => exact .none
  | some hab =>
    cases hexact with
    | some hexact => exact .some ⟨h.down i hab, hexact⟩

theorem children_getElem? (c : Cursor) (i : Nat) : c.children[i]? = c.child? i := by
  rw [Cursor.children, List.getElem?_mapIdx, Cursor.child?]

theorem children (h : C.Near c d) : List.Forall₂ C.Near c.children d.children := by
  refine forall₂_of_getElem? fun i => ?_
  rw [children_getElem?, children_getElem?]
  exact h.child? i

theorem closeChildren (h : C.Near c d) (hc : c.kind ≠ .propertyAssignment) :
    List.Forall₂ C.Close c.children d.children := by
  refine forall₂_of_getElem? fun i => ?_
  rw [children_getElem?, children_getElem?]
  exact h.closeChild? hc i

theorem parameters (h : C.Near c d) : List.Forall₂ C.Near c.parameters d.parameters :=
  List.rel_filter (fun a b hab => by
    change a.kind.isParameter = true ↔ b.kind.isParameter = true
    rw [hab.kind]) h.children

/-- What is called or accessed. -/
theorem receiver? (h : C.Near c d) : Option.Rel C.Close c.receiver? d.receiver? := by
  rw [Cursor.receiver?, Cursor.receiver?, h.kind]
  split
  · rename_i hreceiver
    refine h.closeChild? (fun hkind => ?_) 0
    rw [hkind] at hreceiver
    cases hreceiver
  · exact .none

theorem lastChild? (h : C.Near c d) (hc : c.kind ≠ .propertyAssignment) :
    Option.Rel C.Close c.lastChild? d.lastChild? := rel_getLast? (h.closeChildren hc)

theorem body? (h : C.Near c d) : Option.Rel C.Near c.body? d.body? := by
  rw [Cursor.body?, Cursor.body?, h.kind]
  split
  · exact rel_imp (rel_filter (rel_getLast? h.children) fun _ _ hab => by rw [hab.kind])
      fun _ _ hab => hab.1
  · exact .none

end Near

mutual
theorem near_preorderFrom {above above' : List (Node × Nat)} (habove : C.Way above above') :
    ∀ n m : Node, C.Alike n m →
      List.Forall₂ C.Near (Cursor.preorderFrom above n) (Cursor.preorderFrom above' m)
  | ⟨i, k, s, a, t, ns⟩, ⟨i', k', s', a', t', ms⟩, h => by
    rw [Cursor.preorderFrom, Cursor.preorderFrom]
    exact .cons ⟨h, habove⟩ (near_preorderList h habove 0 ns ms h.children)

theorem near_preorderList {parent parent' : Node} {above above' : List (Node × Nat)}
    (hparent : C.Alike parent parent') (habove : C.Way above above') (position : Nat) :
    ∀ ns ms : List Node, List.Forall₂ C.Alike ns ms → List.Forall₂ C.Near
      (Cursor.preorderList parent above position ns)
      (Cursor.preorderList parent' above' position ms)
  | [], _, h => by
    cases h
    exact .nil
  | n :: ns, ms, h => by
    cases h with
    | @cons _ m _ ms hfirst hrest =>
      have hbelow : C.Way ((parent, position) :: above) ((parent', position) :: above') :=
        .cons ⟨hparent, rfl⟩ habove
      rw [Cursor.preorderList, Cursor.preorderList]
      exact List.rel_append (near_preorderFrom hbelow n m hfirst)
        (near_preorderList hparent habove (position + 1) ns ms hrest)
end

theorem Near.preorder (h : C.Near c d) : List.Forall₂ C.Near c.preorder d.preorder :=
  near_preorderFrom h.above _ _ h.focus

end Comparison

end Subscriptions
