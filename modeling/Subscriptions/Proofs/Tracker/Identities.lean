import Subscriptions.Proofs.Tracker.Calls
import Subscriptions.Proofs.Tracker.Storage

namespace Subscriptions.Tracker.Machine

variable {m m' a b : Machine} {ms inner : List Machine} {r : Nat} {id : TrackedId} {x : Handle}

/-- The release of a handle under its identity returns what the handle's own release comes to. -/
theorem found_returns (hm : m.Reachable) (hc : m.control = .invoke x) {stack : List Frame}
    (hs : m.stack = .releasing r :: stack) (h : Trail m inner m')
    (hin : ∀ a ∈ inner, stack.length < a.stack.length) :
    m' = m ∨ Busy x (.releasing r :: stack) m' ∨
      m'.control = .leave r (releaseAnswer x.outcome) ∧ m'.stack = stack ∧ m'.Gone x.number := by
  induction h with
  | stay => exact .inl rfl
  | @go c d past h hn ih =>
    have hreach := h.reachable hm
    have hdeep := hin c (List.mem_append_right _ List.mem_cons_self)
    rcases ih fun a ha => hin a (List.mem_append_left _ ha) with rfl | hbusy | ⟨-, hstack, -⟩
    · have hmove : c.move = some (invoke c.world x c.stack) := by
        obtain ⟨w, c, stack'⟩ := c
        obtain rfl : c = _ := hc
        rfl
      obtain rfl := hn.eq_of_move hmove
      exact .inr (.inl (hs ▸ busy_of_invoke hc hmove))
    · refine .inr ?_
      rcases hbusy.next hreach hn with ⟨-, hbusy⟩ | ⟨y, hy, hc', hs', rfl⟩
      · exact .inl hbusy
      · exact .inr ⟨rfl, rfl, hy ▸ gone_afterRelease hreach hc' hs' rfl⟩
    · rw [hstack] at hdeep
      exact absurd hdeep (Nat.lt_irrefl _)

/-- A handle is taken from its place, and no other one is touched; its release is called, and what
comes of that is the answer. -/
structure Releases (m : Machine) (r : Nat) (id : TrackedId) (x : Handle) (b : Machine) : Prop where
  control : b.control = .invoke x
  stack : b.stack = .releasing r :: m.stack
  stored : ∀ id', (b.world.registry r).handle? id' =
    if id' = id then none else (m.world.registry r).handle? id'
  length : (b.world.registry r).length + 1 = (m.world.registry r).length
  elsewhere : ∀ q, q ≠ r → b.world.registry q = m.world.registry q
  returns : ∀ inner m', Trail b inner m' → (∀ a ∈ inner, m.stack.length < a.stack.length) →
    m'.stack.length ≤ m.stack.length →
      m'.control = .leave r (releaseAnswer x.outcome) ∧ m'.stack = m.stack ∧ m'.Gone x.number

theorem releases_of_found (hm : m.Reachable) (ha : m.Asks r id)
    (hx : (m.world.registry r).handle? id = some x) :
    ∃ b, m.move = some b ∧ m.Releases r id x b := by
  have hmove := move_of_found ha hx
  have hregistry := registry_of_found ha hx (.move hmove)
  refine ⟨_, hmove, rfl, rfl, ?_, ?_, ?_, ?_⟩
  · intro id'
    rw [hregistry]
    exact Registry.handle?_clear (Registry.generation_of_handle? hx) id'
  · rw [hregistry]
    exact Registry.length_clear hx
  · intro q hq
    exact World.registry_setRegistry_of_ne hq _
  · intro inner m' h hin hle
    rcases found_returns (hm.tail (.move hmove)) rfl rfl h hin with rfl | hbusy | hreturned
    · exact absurd hle (Nat.not_succ_le_self _)
    · exact absurd (Nat.le_trans hbusy.length_le hle) (Nat.not_succ_le_self _)
    · exact hreturned

/-- Over any run, no identity is given twice. An identity finds a handle exactly if this was stored
under it, and since then nobody has asked for it and no drain has begun. To ask for it releases this
very handle, and no other; an identity that finds none changes nothing. -/
theorem identities_sound (h : Trail idle ms m) (r : Nat) :
    (∀ before between after a b id id' x y, ms = before ++ a :: (between ++ b :: after) →
      a.Acquires r id x → b.Acquires r id' y → id ≠ id') ∧
    (∀ a ∈ ms, ∀ id x b, a.Acquires r id x → a.move = some b →
      b.control = .leave r (@Answer.issued r id)) ∧
    (∀ id x, (m.world.registry r).handle? id = some x ↔
      ∃ before a after, ms = before ++ a :: after ∧ a.Acquires r id x ∧
        ∀ b ∈ after, ¬ (b.Asks r id ∨ b.Drains r)) ∧
    ∀ id, m.Asks r id →
      ((m.world.registry r).handle? id = none →
        m.move = some (answered m.world (.flag false) m.stack)) ∧
      ∀ x, (m.world.registry r).handle? id = some x →
        ∃ b, m.move = some b ∧ m.Releases r id x b := by
  have hidle : idle.Reachable := .refl
  refine ⟨?_, ?_, ?_, ?_⟩
  · intro before between after a b id id' x y he ha hb hid
    obtain ⟨hbefore, c, hn, hc⟩ := h.split he
    obtain ⟨hbetween, -⟩ := hc.split rfl
    have hlt := ha.key_lt_of_later (hbefore.reachable hidle) hn hbetween.later hb
    rw [hid] at hlt
    exact lt_irrefl _ hlt
  · intro a ha id x b hx hmove
    obtain ⟨before, after, -, -, hbefore, -⟩ := h.of_mem ha
    exact hx.answer (hbefore.reachable hidle).housed (.move hmove)
  · intro id x
    rw [h.handle?_iff hidle, handle?_idle]
    simp [Empties]
  · intro id hasks
    exact ⟨move_of_not_found hasks, fun x hx => releases_of_found (h.reachable hidle) hasks hx⟩

/-- The release of the first of two handles stores a third one, and fails. -/
def replacing : List Step :=
  [.registry "r",
    .acquire "r" ⟨"a", [.acquire "r" ⟨"c", [], none⟩], some (.failed "late")⟩,
    .acquire "r" ⟨"b", [], none⟩]

def replaced : Machine := ⟨(after replacing).world, .run (.release "a" none), []⟩

theorem identities_sound_replaced : ∃ ms b x, Trail idle ms replaced ∧
    replaced.Asks 1 ⟨0, 0⟩ ∧ (replaced.world.registry 1).handle? ⟨0, 0⟩ = some x ∧
    replaced.move = some b ∧ replaced.Releases 1 ⟨0, 0⟩ x b ∧
    x.outcome = some (.failed "late") := by
  have hreach : replaced.Reachable := (reachable_after replacing).tail (.step rfl _)
  obtain ⟨ms, h⟩ := exists_trail hreach
  have hasks : replaced.Asks 1 ⟨0, 0⟩ := ⟨"a", none, ⟨"r", ⟨0, 0⟩⟩, rfl, rfl, rfl, rfl⟩
  obtain ⟨-, -, -, hsound⟩ := identities_sound h 1
  obtain ⟨b, hmove, hreleases⟩ := (hsound ⟨0, 0⟩ hasks).2 _ rfl
  exact ⟨ms, b, _, h, hasks, rfl, hmove, hreleases, rfl⟩

end Subscriptions.Tracker.Machine
