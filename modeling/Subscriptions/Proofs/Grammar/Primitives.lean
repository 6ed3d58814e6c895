import Subscriptions.Proofs.Grammar.Reading

namespace Subscriptions.Grammar

theorem balanced_suffix (depth : Nat) (ts : List Token) : (balanced depth ts).2 <:+ ts := by
  fun_induction balanced depth ts <;> simp_all [take, List.suffix_cons_iff]

theorem enclosed_suffix (depth : Nat) (ts : List Token) : (enclosed depth ts).2 <:+ ts := by
  fun_induction enclosed depth ts <;> simp_all [take, List.suffix_cons_iff]

theorem angles_suffix (inner depth : Nat) (ts : List Token) : (angles inner depth ts).2 <:+ ts := by
  fun_induction angles inner depth ts <;> simp_all [take, List.suffix_cons_iff]

theorem typeTokens_suffix (stops : List String) (previous : Option Token) (depth : Nat)
    (ts : List Token) : (typeTokens stops previous depth ts).2 <:+ ts := by
  fun_induction typeTokens stops previous depth ts <;> simp_all [take, List.suffix_cons_iff]

/-- Angles that are open are read. -/
theorem angles_open {t : Token} (ts : List Token) (ht : t.isPunct "<" = true) :
    angles 0 0 (t :: ts) = take t (angles 0 1 ts) := by
  have htext : t.text = "<" := eq_of_beq ((Bool.and_eq_true _ _).mp ht).2
  rw [angles, htext, if_neg (by decide), if_neg (by decide), if_pos (by decide)]

theorem length_angles_lt {t : Token} (ts : List Token) (ht : t.isPunct "<" = true) :
    (angles 0 0 (t :: ts)).2.length < (t :: ts).length := by
  rw [angles_open ts ht]
  exact Nat.lt_succ_of_le (angles_suffix 0 1 ts).length_le

variable {m k j : Nat} {a s : State} {ns : List Node} {α β : Type} {Q : β → State → Prop}

theorem ensures_skip {cut : List Token → Split} (h : Reached m k a ns s)
    (hcut : ∀ ts, (cut ts).2 <:+ ts) : Ensures (skip cut) s fun _ => Reached m k a ns := by
  intro depth
  have hlength := (hcut s.rest).length_le
  exact ⟨_, _, rfl, h.read _ (hcut s.rest) (by omega)⟩

theorem ensures_skip_lt {cut : List Token → Split} (h : Reached m k a ns s)
    (hcut : (cut s.rest).2 <:+ s.rest) (hlt : (cut s.rest).2.length < s.rest.length) :
    Ensures (skip cut) s fun _ => Reached m (k + 8) a ns := by
  intro depth
  exact ⟨_, _, rfl, h.read _ hcut (by omega)⟩

theorem ensures_advance (h : Reached m k a ns s) :
    Ensures advance s fun _ => Reached m k a ns := by
  intro depth
  refine ⟨(), _, rfl, h.read _ (List.drop_suffix 1 s.rest) ?_⟩
  simp only [List.length_drop]
  omega

/-- A token that is read gives room. -/
theorem ensures_advance_token (h : Reached m k a ns s) (hs : s.rest ≠ []) :
    Ensures advance s fun _ => Reached m (k + 8) a ns := by
  intro depth
  have hlength := List.length_pos_iff.mpr hs
  refine ⟨(), _, rfl, h.read _ (List.drop_suffix 1 s.rest) ?_⟩
  simp only [List.length_drop]
  omega

/-- What is still there comes after a token. -/
theorem ensures_advance_cases (h : Reached m k a ns s) : Ensures advance s fun _ s' =>
    Reached m k a ns s' ∧ (s'.rest ≠ [] → Reached m (k + 8) a ns s') := by
  by_cases hs : s.rest = []
  · intro depth
    refine ⟨(), _, rfl, h.read _ (List.drop_suffix 1 s.rest) (by simp [hs]), fun hne => ?_⟩
    exact absurd (by simp [State.read, hs]) hne
  · exact (ensures_advance_token h hs).mono fun _ s₁ h₁ => ⟨h₁.weaken (by omega), fun _ => h₁⟩

theorem ensures_advanceBy (n : Nat) (h : Reached m k a ns s) :
    Ensures (advanceBy n) s fun _ => Reached m k a ns := by
  intro depth
  refine ⟨(), _, rfl, h.read _ ?_ ?_⟩
  · rw [List.splitAt_eq]
    exact List.drop_suffix n s.rest
  · simp only [List.splitAt_eq, List.length_drop]
    omega

theorem ensures_accept_cases (p : String) (h : Reached m k a ns s) :
    Ensures (accept p) s fun b s' =>
      b = true ∧ s.isAt p = true ∧ Reached m (k + 8) a ns s' ∨
        b = false ∧ s.isAt p = false ∧ s' = s := by
  refine ensures_look (ensures_ite (fun hs => ?_) fun hs => ?_)
  · exact (ensures_advance_token h (h.ne_nil_of_isAt hs)).bind
      fun _ _ h₁ => ensures_pure (.inl ⟨rfl, hs, h₁⟩)
  · exact ensures_pure (.inr ⟨rfl, Bool.eq_false_iff.mpr hs, rfl⟩)

theorem ensures_accept (p : String) (h : Reached m k a ns s) :
    Ensures (accept p) s fun b => Reached m (if b then k + 8 else k) a ns := by
  refine (ensures_accept_cases p h).mono fun b s₁ hb => ?_
  rcases hb with ⟨rfl, -, h₁⟩ | ⟨rfl, -, rfl⟩
  · exact h₁
  · exact h

theorem ensures_acceptWord (w : String) (h : Reached m k a ns s) :
    Ensures (acceptWord w) s fun b => Reached m (if b then k + 8 else k) a ns := by
  refine ensures_look (ensures_ite (fun hs => ?_) fun _ => ensures_pure h)
  exact (ensures_advance_token h (h.ne_nil_of_isAtWord hs)).bind fun _ _ h₁ => ensures_pure h₁

/-- A branch on whether a punctuator comes next, which is read. -/
theorem ensures_ifAccept {p : String} {yes no : Parse β} (h : Reached m k a ns s)
    (hyes : ∀ s', Reached m (k + 8) a ns s' → Ensures yes s' Q)
    (hno : s.isAt p = false → Ensures no s Q) :
    Ensures (accept p >>= fun b => if b = true then yes else no) s Q := by
  refine (ensures_accept_cases p h).bind fun b s₁ hb => ?_
  rcases hb with ⟨rfl, -, h₁⟩ | ⟨rfl, hp, rfl⟩
  · exact hyes s₁ h₁
  · exact hno hp

theorem ensures_ifAcceptWord {w : String} {yes no : Parse β} (h : Reached m k a ns s)
    (hyes : ∀ s', Reached m (k + 8) a ns s' → Ensures yes s' Q)
    (hno : ∀ s', Reached m k a ns s' → Ensures no s' Q) :
    Ensures (acceptWord w >>= fun b => if b = true then yes else no) s Q := by
  refine (ensures_acceptWord w h).bind fun b s₁ h₁ => ensures_ite (fun hb => ?_) fun hb => ?_
  · rw [if_pos hb] at h₁
    exact hyes s₁ h₁
  · rw [if_neg hb] at h₁
    exact hno s₁ h₁

theorem ensures_optional (p : String) (h : Reached m k a ns s) :
    Ensures (optional p) s fun _ => Reached m k a ns := by
  refine (ensures_accept p h).bind fun b s₁ h₁ => ensures_pure (h₁.weaken ?_)
  split <;> omega

theorem ensures_optionalWord (w : String) (h : Reached m k a ns s) :
    Ensures (optionalWord w) s fun _ => Reached m k a ns := by
  refine (ensures_acceptWord w h).bind fun b s₁ h₁ => ensures_pure (h₁.weaken ?_)
  split <;> omega

theorem ensures_report (what : Expectation) (h : Reached m k a ns s) :
    Ensures (report what) s fun _ s' => Reached m k a ns s' ∧ s'.rest = s.rest := by
  intro depth
  exact ⟨(), _, rfl, h.report _, rfl⟩

theorem ensures_expect (p : String) (h : Reached m k a ns s) :
    Ensures (expect p) s fun _ => Reached m k a ns := by
  refine (ensures_accept p h).bind fun b s₁ h₁ => ensures_ite (fun hb => ?_) fun hb => ?_
  · refine (ensures_report _ h₁).mono fun _ s₂ h₂ => h₂.1.weaken ?_
    split <;> omega
  · exact ensures_pure (h₁.weaken (by split <;> omega))

theorem ensures_expect_at {p : String} (h : Reached m k a ns s) (hp : s.isAt p = true) :
    Ensures (expect p) s fun _ => Reached m (k + 8) a ns := by
  refine (ensures_accept_cases p h).bind fun b s₁ hb => ?_
  rcases hb with ⟨rfl, -, h₁⟩ | ⟨-, hn, -⟩
  · exact ensures_pure h₁
  · rw [hp] at hn
    cases hn

theorem ensures_takeName (h : Reached m k a ns s) :
    Ensures takeName s fun _ => Reached m k a ns :=
  ensures_look ((ensures_advance h).bind fun _ _ h₁ => ensures_pure h₁)

theorem ensures_takeName_token (h : Reached m k a ns s) (hs : s.rest ≠ []) :
    Ensures takeName s fun _ => Reached m (k + 8) a ns :=
  ensures_look ((ensures_advance_token h hs).bind fun _ _ h₁ => ensures_pure h₁)

theorem ensures_takeNameIfWord (h : Reached m k a ns s) :
    Ensures takeNameIfWord s fun _ => Reached m k a ns := by
  refine ensures_look (ensures_ite (fun _ => ?_) fun _ => ensures_pure h)
  exact (ensures_takeName h).bind fun _ _ h₁ => ensures_pure h₁

theorem ensures_skipBalanced (h : Reached m k a ns s) :
    Ensures skipBalanced s fun _ => Reached m k a ns :=
  (ensures_skip h (balanced_suffix 0)).bind fun _ _ h₁ => ensures_pure h₁

theorem ensures_skipAngles_cases (h : Reached m k a ns s) :
    Ensures skipAngles s fun _ s' =>
      Reached m (k + 8) a ns s' ∨ s.isAt "<" = false ∧ s' = s := by
  refine ensures_look (ensures_ite (fun hs => ?_) fun hs => ?_)
  · have hlt : (angles 0 0 s.rest).2.length < s.rest.length := by
      obtain ⟨t, ts, hrest⟩ := List.exists_cons_of_ne_nil (h.ne_nil_of_isAt hs)
      rw [State.isAt, State.current, hrest, List.headD_cons] at hs
      rw [hrest]
      exact length_angles_lt ts hs
    exact (ensures_skip_lt h (angles_suffix 0 0 _) hlt).bind fun _ _ h₁ => ensures_pure (.inl h₁)
  · exact ensures_pure (.inr ⟨Bool.eq_false_iff.mpr hs, rfl⟩)

theorem ensures_skipAngles (h : Reached m k a ns s) :
    Ensures skipAngles s fun _ => Reached m k a ns := by
  refine (ensures_skipAngles_cases h).mono fun _ s₁ hs => ?_
  rcases hs with h₁ | ⟨-, rfl⟩
  · exact h₁.weaken (by omega)
  · exact h

theorem ensures_skipAngles_at (h : Reached m k a ns s) (hs : s.isAt "<" = true) :
    Ensures skipAngles s fun _ => Reached m (k + 8) a ns := by
  refine (ensures_skipAngles_cases h).mono fun _ s₁ hcases => ?_
  rcases hcases with h₁ | ⟨hn, -⟩
  · exact h₁
  · rw [hs] at hn
    cases hn

theorem ensures_typeUpTo (stops : List String) (h : Reached m k a ns s) :
    Ensures (typeUpTo stops) s fun _ => Reached m k a ns :=
  (ensures_skip h (typeTokens_suffix stops none 0)).bind fun _ _ h₁ => ensures_pure h₁

theorem ensures_annotated (stops : List String) (h : Reached m k a ns s) :
    Ensures ( annotation stops) s fun _ => Reached m k a ns :=
  ensures_ifAccept h (fun _ h₁ => ensures_typeUpTo stops (h₁.weaken (by omega))) fun _ => ensures_pure h

/-- A node is built on the last ones pending. -/
theorem ensures_buildNamed {pending children : List Node} {kind : Kind} {start : Nat}
    {name : Option Name} {declared : Option String} (h : Reached m j a pending s)
    (hp : pending = ns ++ children) (hj : k ≤ j) :
    Ensures (buildNamed kind start name declared children) s fun n => Reached m k a (ns ++ [n]) := by
  intro depth
  exact ⟨_, _, rfl, (h.weaken hj).reduce _ hp rfl⟩

theorem ensures_build {pending children : List Node} {kind : Kind} {start : Nat}
    (h : Reached m j a pending s) (hp : pending = ns ++ children) (hj : k ≤ j) :
    Ensures (build kind start children) s fun n => Reached m k a (ns ++ [n]) :=
  ensures_buildNamed h hp hj

theorem ensures_skipTooDeep (h : Reached m k a ns s) :
    Ensures skipTooDeep s fun n => Reached m k a (ns ++ [n]) := by
  refine ensures_here ?_
  refine Ensures.bind (P := fun _ => Reached m k a ns) (fun depth => ⟨(), _, rfl, h.report _⟩) ?_
  intro _ s₁ h₁
  exact (ensures_skip h₁ (enclosed_suffix 0)).bind fun _ _ h₂ => ensures_build h₂ (by simp) (by omega)

theorem ensures_nested {p : Parse Node} (h : Reached m k a ns s)
    (hp : Ensures p s fun n => Reached m k a (ns ++ [n])) :
    Ensures (nested p) s fun n => Reached m k a (ns ++ [n]) := by
  intro depth
  rw [nested]
  split
  · exact ensures_skipTooDeep h depth
  · exact hp (depth + 1)

/-- What a turn leaves: its nodes behind those that were pending, and room where it asks for
more. -/
def Turned (m k : Nat) (a : State) (ns : List Node) (r : List Node × Bool) : State → Prop :=
  Reached m (if r.2 then k + 8 else k) a (ns ++ r.1)

theorem ensures_stop (h : Reached m k a ns s) :
    Ensures (pure ([], false)) s (Turned m k a ns) := ensures_pure h.nil

theorem ensures_next (h : Reached m (k + 8) a ns s) :
    Ensures (pure ([], true)) s (Turned m k a ns) := ensures_pure h.nil

def Turns (m k : Nat) (a : State) (turn : Parse (List Node × Bool)) : Prop :=
  ∀ j ns s, k ≤ j → Reached m j a ns s → Ensures turn s (Turned m j a ns)

theorem ensures_turns {turn : Parse (List Node × Bool)} (hturn : Turns m k a turn) {fuel : Nat}
    (h : Reached m k a ns s) (hfuel : s.rest.length < fuel) :
    Ensures (turns fuel turn) s fun nodes => Reached m k a (ns ++ nodes) := by
  induction fuel generalizing ns s with
  | zero => omega
  | succ fuel ih =>
    obtain ⟨hk, htight⟩ := h.tight
    refine (hturn _ ns s hk htight).bind fun r s₁ h₁ => ?_
    obtain ⟨nodes, more⟩ := r
    cases more with
    | false => exact ensures_pure (h₁.weaken hk)
    | true =>
      have hroom : 8 * s₁.rest.length + (m - 8 * s.rest.length + 8) ≤ m := h₁.room
      refine (ih (h₁.weaken ?_) (by omega)).bind fun rest s₂ h₂ => ensures_pure ?_
      · simp only [if_true]
        omega
      · rwa [← List.append_assoc]

theorem ensures_gather {turn : Parse (List Node × Bool)} (hturn : Turns m k a turn)
    (h : Reached m k a ns s) : Ensures (gather turn) s fun nodes => Reached m k a (ns ++ nodes) :=
  ensures_look (ensures_turns hturn h (Nat.lt_succ_self _))

/-- The same where the first turn is sure to read a token. -/
theorem ensures_gather_more {turn : Parse (List Node × Bool)} (hturn : Turns m k a turn)
    (h : Reached m k a ns s)
    (hfirst : ∀ j, Reached m j a ns s →
      Ensures turn s fun r s' => r.2 = true ∧ Reached m (j + 8) a (ns ++ r.1) s') :
    Ensures (gather turn) s fun nodes => Reached m (k + 8) a (ns ++ nodes) := by
  obtain ⟨hk, htight⟩ := h.tight
  refine ensures_look ((hfirst _ htight).bind fun r s₁ hr => ?_)
  obtain ⟨nodes, more⟩ := r
  obtain ⟨rfl, h₁⟩ := hr
  have hturn₁ : Turns m (k + 8) a turn := fun j ns s hj => hturn j ns s (by omega)
  have hroom : 8 * s₁.rest.length + (m - 8 * s.rest.length + 8) ≤ m := h₁.room
  have hlength : s₁.rest.length < s.rest.length := by omega
  refine (ensures_turns hturn₁ (h₁.weaken (by omega)) hlength).bind fun rest s₂ h₂ => ?_
  exact ensures_pure h₂.join

theorem eq_nil_of_turns {turn : Parse (List Node × Bool)} {fuel depth : Nat} {nodes : List Node}
    {s' : State} (hturn : ∀ s r s', turn depth s = some (r, s') → r.1 = [])
    (h : turns fuel turn depth s = some (nodes, s')) : nodes = [] := by
  induction fuel generalizing s nodes s' with
  | zero => cases h
  | succ fuel ih =>
    rw [turns, Parse.bind_run, Option.bind_eq_some_iff] at h
    obtain ⟨⟨⟨first, more⟩, s₁⟩, hfirst, h⟩ := h
    obtain rfl : first = [] := hturn s _ s₁ hfirst
    cases more with
    | false => exact (Prod.mk.inj (Option.some.inj h)).1.symm
    | true =>
      replace h : (turns fuel turn >>= fun rest => pure ([] ++ rest)) depth s₁ =
        some (nodes, s') := h
      rw [Parse.bind_run, Option.bind_eq_some_iff] at h
      obtain ⟨⟨rest, s₂⟩, hrest, h⟩ := h
      obtain rfl : rest = [] := ih hrest
      exact (Prod.mk.inj (Option.some.inj h)).1.symm

/-- What a turn on a node leaves: a node in its place, and room where it asks for more. -/
def Climbed (m k : Nat) (a : State) (ns : List Node) (r : Node × Bool) : State → Prop :=
  Reached m (if r.2 then k + 8 else k) a (ns ++ [r.1])

theorem ensures_more {n : Node} (h : Reached m (k + 8) a (ns ++ [n]) s) :
    Ensures (pure (n, true)) s (Climbed m k a ns) := ensures_pure h

theorem ensures_done {n : Node} (h : Reached m k a (ns ++ [n]) s) :
    Ensures (pure (n, false)) s (Climbed m k a ns) := ensures_pure h

theorem ensures_climbs {turn : Node → Parse (Node × Bool)}
    (hturn : ∀ j s left, k ≤ j → Reached m j a (ns ++ [left]) s →
      Ensures (turn left) s (Climbed m j a ns))
    {fuel : Nat} {left : Node} (h : Reached m k a (ns ++ [left]) s) (hfuel : s.rest.length < fuel) :
    Ensures (climbs fuel turn left) s fun n => Reached m k a (ns ++ [n]) := by
  induction fuel generalizing left s with
  | zero => omega
  | succ fuel ih =>
    obtain ⟨hk, htight⟩ := h.tight
    refine (hturn _ s left hk htight).bind fun r s₁ h₁ => ?_
    obtain ⟨node, more⟩ := r
    cases more with
    | false => exact ensures_pure (h₁.weaken hk)
    | true =>
      have hroom : 8 * s₁.rest.length + (m - 8 * s.rest.length + 8) ≤ m := h₁.room
      refine ih (h₁.weaken ?_) (by omega)
      simp only [if_true]
      omega

theorem ensures_climb {turn : Node → Parse (Node × Bool)}
    (hturn : ∀ j s left, k ≤ j → Reached m j a (ns ++ [left]) s →
      Ensures (turn left) s (Climbed m j a ns))
    {left : Node} (h : Reached m k a (ns ++ [left]) s) :
    Ensures (climb turn left) s fun n => Reached m k a (ns ++ [n]) :=
  ensures_look (ensures_climbs hturn h (Nat.lt_succ_self _))

/-- After a parse that did not move there is still what was there before. -/
theorem ensures_moved {p : Parse Node} (h : Reached m k a ns s)
    (hp : ∀ j, k ≤ j → Reached m j a ns s → Ensures p s fun n => Reached m j a (ns ++ [n])) :
    Ensures (moved p) s fun r s' => Reached m (if r.2 then k + 8 else k) a (ns ++ [r.1]) s' ∧
      (r.2 = false → s.rest ≠ [] → s'.rest ≠ []) := by
  obtain ⟨hk, htight⟩ := h.tight
  refine ensures_look ((hp _ hk htight).bind fun n s₁ h₁ => ensures_look (ensures_pure ?_))
  by_cases heq : s₁.rest.length = s.rest.length
  · have hmoved : (s₁.rest.length != s.rest.length) = false := bne_eq_false_iff_eq.mpr heq
    rw [hmoved]
    refine ⟨h₁.weaken hk, fun _ hs => ?_⟩
    rwa [← List.length_pos_iff, heq, List.length_pos_iff]
  · have hmoved : (s₁.rest.length != s.rest.length) = true := bne_iff_ne.mpr heq
    rw [hmoved]
    exact ⟨h₁.gain h heq, fun hb => nomatch hb⟩

/-- Rules that meet inside one another before a token is read come in falling order. -/
def Rule.rank : Rule → Nat
  | .statement => 6
  | .assignment => 5
  | .binary _ => 4
  | .unary => 3
  | .access => 2
  | .construction => 1

/-- The rules come to a result wherever there is room for them, and leave one node each. -/
def Covers (m : Nat) (go : Recur) : Prop :=
  ∀ (r : Rule) (k : Nat) (a : State) (ns : List Node) (s : State), r.rank < k →
    Reached m k a ns s → Ensures (go r) s fun n => Reached m k a (ns ++ [n])

theorem Covers.enter {go : Recur} (hgo : Covers m go) (r : Rule) (h : Reached m k a ns s)
    (hr : r.rank < k) : Ensures (go r) s fun n => Reached m k a (ns ++ [n]) := hgo r k a ns s hr h

/-- After a token there is room for any rule. -/
theorem Covers.fresh {go : Recur} {r : Rule} (hgo : Covers m go) (h : Reached m k a ns s)
    (hk : 7 ≤ k) : Ensures (go r) s fun n => Reached m k a (ns ++ [n]) := by
  refine hgo r k a ns s (Nat.lt_of_lt_of_le ?_ hk) h
  cases r <;> simp [Rule.rank]

end Subscriptions.Grammar
