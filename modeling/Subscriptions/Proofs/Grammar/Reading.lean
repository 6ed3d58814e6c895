import Subscriptions.Grammar.Parse
import Subscriptions.Proofs.Syntax.Postorder

namespace Subscriptions.Grammar

/-- A parse comes from a state to a state, where the nodes that it has built are pending. -/
inductive Yields : State → List Node → State → Prop
  | start (s : State) : Yields s [] s
  | read {a b : State} {ns : List Node} (h : Yields a ns b) (split : Split)
      (hs : split.2 <:+ b.rest) : Yields a ns (b.read split)
  | report {a b : State} {ns : List Node} (h : Yields a ns b) (f : Fault) :
      Yields a ns (b.report f)
  /-- The last nodes pending become the children of a new one. -/
  | reduce {a b : State} {before : List Node} (n : Node) (h : Yields a (before ++ n.children) b)
      (hn : n.serial = b.built) : Yields a (before ++ [n]) (b.alloc n)

namespace Yields

variable {a b : State} {ns : List Node}

theorem suffix (h : Yields a ns b) : b.rest <:+ a.rest := by
  induction h with
  | start => exact List.suffix_refl _
  | read _ split hs ih => exact hs.trans ih
  | report _ _ ih => exact ih
  | reduce _ _ _ ih => exact ih

theorem last (h : Yields a ns b) : b.last = a.last := by
  induction h with
  | start => rfl
  | read _ _ _ ih | report _ _ ih | reduce _ _ _ ih => exact ih

/-- Every node built is under one of those pending, in the order of building. -/
theorem serials (h : Yields a ns b) :
    a.built + (Node.postorders ns).length = b.built ∧
      (Node.postorders ns).map Node.serial =
        List.range' a.built (Node.postorders ns).length := by
  induction h with
  | start => exact ⟨rfl, rfl⟩
  | read _ _ _ ih | report _ _ ih => exact ih
  | @reduce b before n _ hn ih =>
    obtain ⟨hbuilt, hserials⟩ := ih
    rw [Node.postorders_concat, List.length_append, List.map_append, hserials]
    refine ⟨?_, ?_⟩
    · rw [← Nat.add_assoc, hbuilt, State.built_alloc]
      rfl
    · rw [List.length_singleton, List.range'_1_concat, hbuilt, ← hn]
      rfl

end Yields

/-- The parse has a result, of which `Q` holds, at any nesting depth. -/
def Ensures {α : Type} (p : Parse α) (s : State) (Q : α → State → Prop) : Prop :=
  ∀ depth, ∃ a s', p depth s = some (a, s') ∧ Q a s'

section
variable {α β : Type} {p q : Parse α} {f : α → Parse β} {s : State} {P R : α → State → Prop}
  {Q : β → State → Prop} {a : α}

theorem Ensures.mono (hp : Ensures p s P) (h : ∀ a s', P a s' → R a s') : Ensures p s R := by
  intro depth
  obtain ⟨a, s', hrun, ha⟩ := hp depth
  exact ⟨a, s', hrun, h a s' ha⟩

theorem Ensures.bind (hp : Ensures p s P) (hf : ∀ a s', P a s' → Ensures (f a) s' Q) :
    Ensures (p >>= f) s Q := by
  intro depth
  obtain ⟨a, s', hrun, ha⟩ := hp depth
  obtain ⟨b, s'', hrun', hb⟩ := hf a s' ha depth
  refine ⟨b, s'', ?_, hb⟩
  rw [Parse.bind_run, hrun]
  exact hrun'

theorem ensures_pure (h : P a s) : Ensures (pure a) s P := fun _ => ⟨a, s, rfl, h⟩

theorem ensures_ite {c : Prop} [Decidable c] (hp : c → Ensures p s P) (hq : ¬ c → Ensures q s P) :
    Ensures (if c then p else q) s P := by
  split
  · rename_i h
    exact hp h
  · rename_i h
    exact hq h

/-- Two branches that meet again. -/
theorem ensures_join {c : Prop} [Decidable c] (h : Ensures (if c then p else q) s P)
    (hf : ∀ a s', P a s' → Ensures (f a) s' Q) :
    Ensures (if c then p >>= f else q >>= f) s Q := by
  split
  · rename_i hc
    rw [if_pos hc] at h
    exact h.bind hf
  · rename_i hc
    rw [if_neg hc] at h
    exact h.bind hf

theorem ensures_look {f : State → Parse β} (h : Ensures (f s) s Q) :
    Ensures (look >>= f) s Q := by
  intro depth
  exact h depth

theorem ensures_here {f : Nat → Parse β} (h : Ensures (f s.current.span.start) s Q) :
    Ensures (here >>= f) s Q := by
  intro depth
  exact h depth

end

/-- From `a` a parse has come to `s`, where the nodes `ns` are pending. With `m` units of fuel there
is room for eight rules for each token that is left, and for `k` more. -/
structure Reached (m k : Nat) (a : State) (ns : List Node) (s : State) : Prop where
  yields : Yields a ns s
  room : 8 * s.rest.length + k ≤ m
  last : s.last.isEnd = true

variable {m k j : Nat} {a s : State} {ns : List Node} {α β : Type} {Q : β → State → Prop}

namespace Reached

theorem weaken (h : Reached m k a ns s) (hj : j ≤ k) : Reached m j a ns s where
  yields := h.yields
  room := Nat.le_trans (Nat.add_le_add_left hj _) h.room
  last := h.last

/-- No nodes after those that are pending. -/
theorem nil (h : Reached m k a ns s) : Reached m k a (ns ++ []) s := by rwa [List.append_nil]

theorem join {xs ys : List Node} (h : Reached m k a (ns ++ xs ++ ys) s) :
    Reached m k a (ns ++ (xs ++ ys)) s := by rwa [← List.append_assoc]

/-- All the room that there is. -/
theorem tight (h : Reached m k a ns s) :
    k ≤ m - 8 * s.rest.length ∧ Reached m (m - 8 * s.rest.length) a ns s := by
  have hroom := h.room
  refine ⟨by omega, h.yields, by omega, h.last⟩

theorem length_le {ns' : List Node} {s' : State}
    (h : Reached m (m - 8 * s.rest.length) a ns' s') (hs : Reached m k a ns s) :
    s'.rest.length ≤ s.rest.length := by
  have hroom := h.room
  have hroom' := hs.room
  omega

/-- Where tokens were read there is more room. -/
theorem gain {ns' : List Node} {s' : State} (h : Reached m (m - 8 * s.rest.length) a ns' s')
    (hs : Reached m k a ns s) (hne : s'.rest.length ≠ s.rest.length) :
    Reached m (k + 8) a ns' s' := by
  have hlength := h.length_le hs
  have hroom := hs.room
  exact ⟨h.yields, by omega, h.last⟩

/-- Tokens that a split leaves out give room. -/
theorem read (h : Reached m k a ns s) (split : Split) (hs : split.2 <:+ s.rest)
    (hj : 8 * split.2.length + j ≤ 8 * s.rest.length + k) : Reached m j a ns (s.read split) where
  yields := h.yields.read split hs
  room := Nat.le_trans hj h.room
  last := h.last

theorem report (h : Reached m k a ns s) (f : Fault) : Reached m k a ns (s.report f) where
  yields := h.yields.report f
  room := h.room
  last := h.last

theorem reduce {pending : List Node} (h : Reached m k a pending s) (n : Node)
    (hp : pending = ns ++ n.children) (hn : n.serial = s.built) :
    Reached m k a (ns ++ [n]) (s.alloc n) where
  yields := .reduce n (hp ▸ h.yields) hn
  room := h.room
  last := h.last

theorem rest_ne_nil (h : Reached m k a ns s) (hs : s.current.isEnd = false) : s.rest ≠ [] := by
  intro hnil
  rw [State.current, hnil, List.headD_nil, h.last] at hs
  cases hs

end Reached

theorem rest_ne_nil_of_not_atEnd {b : Bool} (h : ¬ (b || s.atEnd) = true) : s.rest ≠ [] := by
  intro hnil
  simp [State.atEnd, hnil] at h

theorem isEnd_of_kind {t : Token} {kind : TokenKind} (h : t.kind = kind)
    (hk : kind ≠ .endOfFile) : t.isEnd = false := by
  rw [Token.isEnd, h]
  exact beq_eq_false_iff_ne.mpr hk

theorem isEnd_of_isPunct {t : Token} {p : String} (h : t.isPunct p = true) : t.isEnd = false := by
  rw [Token.isPunct, Bool.and_eq_true] at h
  exact isEnd_of_kind (eq_of_beq h.1) (by decide)

theorem isEnd_of_isPunctOf {t : Token} {ps : List String} (h : t.isPunctOf ps = true) :
    t.isEnd = false := by
  rw [Token.isPunctOf, Bool.and_eq_true] at h
  exact isEnd_of_kind (eq_of_beq h.1) (by decide)

theorem isEnd_of_isTheWord {t : Token} {w : String} (h : t.isTheWord w = true) :
    t.isEnd = false := by
  rw [Token.isTheWord, Bool.and_eq_true] at h
  exact isEnd_of_kind (eq_of_beq h.1) (by decide)

theorem isEnd_of_isWord {t : Token} (h : t.isWord = true) : t.isEnd = false :=
  isEnd_of_kind (eq_of_beq h) (by decide)

namespace Reached

theorem ne_nil_of_isAt (h : Reached m k a ns s) {p : String} (hp : s.isAt p = true) :
    s.rest ≠ [] := h.rest_ne_nil (isEnd_of_isPunct hp)

theorem ne_nil_of_isAtWord (h : Reached m k a ns s) {w : String} (hw : s.isAtWord w = true) :
    s.rest ≠ [] := h.rest_ne_nil (isEnd_of_isTheWord hw)

end Reached

end Subscriptions.Grammar
