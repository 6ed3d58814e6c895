import Mathlib.Data.Prod.Lex
import Subscriptions.Proofs.Tracker.Dealing
import Subscriptions.Proofs.Tracker.Handles
import Subscriptions.Proofs.Tracker.Run

namespace Subscriptions.Tracker

/-- Identities in the order in which a registry gives them: by generation, then by place. -/
def TrackedId.key (id : TrackedId) : ℕ ×ₗ ℕ := toLex (id.generation, id.index)

namespace Registry

variable {η : Type} {r : Registry η} {id : TrackedId} {x : η}

/-- The identity that the next handle is stored under. -/
def nextId (r : Registry η) : TrackedId := ⟨r.generation, r.slots.length⟩

theorem generation_of_handle? (h : r.handle? id = some x) : r.generation = id.generation := by
  unfold handle? at h
  split at h
  · rename_i hg
    exact eq_of_beq hg
  · cases h

theorem handle?_acquire_iff {y : η} :
    (r.acquire y).2.handle? id = some x ↔ r.handle? id = some x ∨ id = r.nextId ∧ y = x := by
  obtain ⟨generation, index⟩ := id
  simp only [acquire, handle?, nextId, TrackedId.mk.injEq]
  by_cases hg : r.generation = generation
  · subst hg
    rcases Nat.lt_trichotomy index r.slots.length with hlt | rfl | hlt
    · simp [List.getElem?_append_left hlt, Nat.ne_of_lt hlt]
    · simp
    · have hnone : (r.slots ++ [some y])[index]? = none := by
        rw [List.getElem?_eq_none_iff, List.length_append]
        exact hlt
      simp [hnone, List.getElem?_eq_none (Nat.le_of_lt hlt), Nat.ne_of_gt hlt]
  · simp [hg, Ne.symm hg]

theorem handle?_clear (hid : r.generation = id.generation) (id' : TrackedId) :
    (r.clear id).handle? id' = if id' = id then none else r.handle? id' := by
  obtain ⟨generation, index⟩ := id
  obtain ⟨generation', index'⟩ := id'
  obtain rfl : r.generation = generation := hid
  simp only [clear, handle?, TrackedId.mk.injEq]
  by_cases hg : r.generation = generation'
  · subst hg
    by_cases hi : index' = index
    · subst hi
      simp only [beq_self_eq_true, and_self, if_true, List.getElem?_set]
      split
      · rfl
      · rfl
    · simp [List.getElem?_set_ne (Ne.symm hi), hi]
  · simp [hg]

theorem length_clear {r : Registry Handle} {x : Handle} (h : r.handle? id = some x) :
    (r.clear id).length + 1 = r.length := by
  have hcount := countP_handles_clear h fun _ => true
  simpa [length] using hcount

end Registry

namespace World

variable {w : World} {r q : Nat} {value : Registry Handle}

theorem registry_setRegistry (h : r < w.registries.length) (value : Registry Handle) :
    (w.setRegistry r value).registry r = value := by
  simp [registry, setRegistry, h]

theorem registry_setRegistry_of_ne (h : q ≠ r) (value : Registry Handle) :
    (w.setRegistry r value).registry q = w.registry q := by
  simp [registry, setRegistry, List.getElem?_set_ne h.symm]

/-- A registry that is not there yet is as good as new. -/
theorem registry_append_empty (registries : List (Registry Handle)) (r : Nat) :
    ((registries ++ [.empty])[r]?).getD .empty = (registries[r]?).getD .empty := by
  simp only [List.getElem?_append]
  split
  · rfl
  · rename_i hr
    rw [List.getElem?_eq_none (Nat.le_of_not_lt hr)]
    cases r - registries.length <;> simp

theorem lt_of_handle? {id : TrackedId} {x : Handle} (h : (w.registry r).handle? id = some x) :
    r < w.registries.length := by
  by_contra hr
  simp [registry, List.getElem?_eq_none (Nat.le_of_not_lt hr), Registry.handle?,
    Registry.empty] at h

theorem mem_handles_of_handle? {id : TrackedId} {x : Handle}
    (h : (w.registry r).handle? id = some x) : x ∈ w.handles := by
  have hlt := lt_of_handle? h
  have hget : w.registry r = w.registries[r] := by simp [registry, hlt]
  refine List.mem_append_left _ (List.mem_flatMap.mpr ⟨_, List.getElem_mem hlt, ?_⟩)
  rw [← hget, Registry.handles, List.mem_filterMap]
  unfold Registry.handle? at h
  split at h
  · exact ⟨some x, List.mem_of_getElem? (Option.join_eq_some_iff.mp h), rfl⟩
  · cases h

end World

namespace Machine

variable {m m' a b : Machine} {ms before after : List Machine} {r : Nat} {id id' : TrackedId}
  {x y : Handle}

theorem Next.eq_of_move (hn : Next m m') (h : m.move = some b) : m' = b := by
  cases hn with
  | move h' => exact Option.some.inj (h'.symm.trans h)
  | step h' s =>
    rw [h'] at h
    cases h

theorem drain_registry (w : World) (r : Nat) (purpose : DrainPurpose) (stack : List Frame) :
    (drain w r purpose stack).world = w.setRegistry r (w.registry r).drain.2 ∧
      ∃ f ∈ (drain w r purpose stack).stack, f.keeps r = true := by
  cases hr : (w.registry r).handles with
  | nil =>
    rw [drain_of_nil hr]
    exact ⟨rfl, _, List.mem_cons_self, beq_self_eq_true r⟩
  | cons x rest =>
    rw [drain_of_cons hr]
    exact ⟨rfl, _, List.mem_cons_self, beq_self_eq_true r⟩

theorem Drains.registry (hm : m.Housed) (hd : m.Drains r) (hn : Next m m') :
    m'.world.registry r = (m.world.registry r).drain.2 := by
  obtain ⟨purpose, stack, hdrain⟩ := hd
  obtain rfl := hn.eq_of_move hdrain
  obtain ⟨hworld, f, hf, hk⟩ := drain_registry m.world r purpose stack
  have hlt := (hm.move hdrain).stack f hf r hk
  rw [hworld, World.length_setRegistry] at hlt
  rw [hworld, World.registry_setRegistry hlt]

theorem Acquires.id_eq (ha : m.Acquires r id x) : id = (m.world.registry r).nextId := by
  obtain ⟨b, -, hacquire⟩ := ha
  exact (congrArg Prod.fst hacquire).symm

theorem Acquires.registry (ha : m.Acquires r id x) (hn : Next m m') :
    m'.world.registry r = ((m.world.registry r).acquire x).2 := by
  obtain ⟨b, hb, hacquire⟩ := ha
  obtain rfl := hn.eq_of_move hb
  exact (congrArg Prod.snd hacquire).symm

theorem registry_of_found (ha : m.Asks r id) (hx : (m.world.registry r).handle? id = some x)
    (hn : Next m m') : m'.world.registry r = (m.world.registry r).clear id := by
  obtain rfl := hn.eq_of_move (move_of_found ha hx)
  exact World.registry_setRegistry (World.lt_of_handle? hx) _

/-- All that can become of one registry. -/
inductive Touch (m m' : Machine) (r : Nat) : Prop
  | still (h : m'.world.registry r = m.world.registry r) (hd : ¬ m.Drains r)
      (ha : ∀ id, m.Asks r id → (m.world.registry r).handle? id = none)
  | acquired (id : TrackedId) (x : Handle) (ha : m.Acquires r id x)
      (hc : m'.control = .leave r (@Answer.issued r id))
  | cleared (id : TrackedId) (x : Handle) (hd : ¬ m.Drains r) (ha : m.Asks r id)
      (hx : (m.world.registry r).handle? id = some x)
  | drained (hd : m.Drains r)

theorem touch_move (hm : m.Housed) (h : m.move = some m') (r : Nat) : Touch m m' r := by
  by_cases hd : m.Drains r
  · exact .drained hd
  by_cases ha : ∃ id x, m.Asks r id ∧ (m.world.registry r).handle? id = some x
  · obtain ⟨id, x, ha, hx⟩ := ha
    exact .cleared id x hd ha hx
  have hnone (id : TrackedId) (hr : m.Asks r id) : (m.world.registry r).handle? id = none :=
    Option.eq_none_iff_forall_ne_some.mpr fun x hx => ha ⟨id, x, hr, hx⟩
  rcases deal_move hm h with ⟨q, id, hq⟩ | ⟨stack, -, hdeal⟩
  · refine .still ?_ hd hnone
    cases hx : (m.world.registry q).handle? id with
    | none =>
      rw [move_of_not_found hq hx] at h
      obtain rfl := Option.some.inj h
      rfl
    | some x =>
      have hne : r ≠ q := by
        rintro rfl
        exact ha ⟨id, x, hq, hx⟩
      rw [move_of_found hq hx] at h
      obtain rfl := Option.some.inj h
      exact World.registry_setRegistry_of_ne hne _
  · cases hdeal with
    | still hs => exact .still (by rw [World.registry, World.registry, hs]) hd hnone
    | opened ho =>
      refine .still ?_ hd hnone
      rw [World.registry, World.registry, ho]
      exact World.registry_append_empty _ r
    | stored q x hq hs hc =>
      have hregistry (p : Nat) : m'.world.registry p =
          (m.world.setRegistry q ((m.world.registry q).acquire x).2).registry p := by
        rw [World.registry, hs]
        rfl
      by_cases hr : r = q
      · subst hr
        have hx : m'.world.registry r = ((m.world.registry r).acquire x).2 := by
          rw [hregistry, World.registry_setRegistry hq]
        exact .acquired _ x ⟨m', h, by rw [hx]⟩ hc
      · refine .still ?_ hd hnone
        rw [hregistry, World.registry_setRegistry_of_ne hr]
    | drained q purpose hq =>
      subst hq
      have hne : r ≠ q := by
        rintro rfl
        exact hd ⟨purpose, stack, h⟩
      refine .still ?_ hd hnone
      rw [(drain_registry m.world q purpose stack).1]
      exact World.registry_setRegistry_of_ne hne _

theorem touch (hm : m.Housed) (hn : Next m m') (r : Nat) : Touch m m' r := by
  cases hn with
  | move h => exact touch_move hm h r
  | step h s =>
    refine .still rfl ?_ ?_
    · rintro ⟨purpose, stack, hd⟩
      rw [h] at hd
      cases hd
    · rintro id ⟨handle, registry, acquisition, hc, -⟩
      obtain ⟨w, c, stack⟩ := m
      subst hc
      cases h

theorem Acquires.nextId (ha : m.Acquires r id x) (hn : Next m m') :
    (m'.world.registry r).nextId = ⟨id.generation, id.index + 1⟩ := by
  obtain rfl := ha.id_eq
  rw [ha.registry hn]
  simp [Registry.nextId, Registry.acquire]

/-- A registry gives its identities in order. -/
theorem key_nextId_le (hm : m.Housed) (hn : Next m m') :
    (m.world.registry r).nextId.key ≤ (m'.world.registry r).nextId.key := by
  cases touch hm hn r with
  | still h => rw [h]
  | acquired id x ha _ =>
    rw [ha.nextId hn, ← ha.id_eq, TrackedId.key, TrackedId.key, Prod.Lex.toLex_le_toLex]
    exact .inr ⟨rfl, Nat.le_succ _⟩
  | cleared id x _ ha hx =>
    rw [registry_of_found ha hx hn]
    simp [Registry.nextId, Registry.clear]
  | drained hd =>
    rw [hd.registry hm hn, TrackedId.key, TrackedId.key, Prod.Lex.toLex_le_toLex]
    exact .inl (Nat.lt_succ_self _)

theorem Acquires.key_lt (ha : m.Acquires r id x) (hn : Next m m') :
    id.key < (m'.world.registry r).nextId.key := by
  rw [ha.nextId hn, TrackedId.key, TrackedId.key, Prod.Lex.toLex_lt_toLex]
  exact .inr ⟨rfl, Nat.lt_succ_self _⟩

theorem Acquires.unique (ha : m.Acquires r id x) (ha' : m.Acquires r id' y) :
    id = id' ∧ y = x := by
  obtain ⟨b, hb, hx⟩ := ha
  obtain ⟨b', hb', hy⟩ := ha'
  obtain rfl := Option.some.inj (hb.symm.trans hb')
  rw [Registry.acquire] at hx hy
  obtain ⟨rfl, hx⟩ := Prod.mk.inj hx
  obtain ⟨rfl, hy⟩ := Prod.mk.inj hy
  rw [← hy] at hx
  simpa using hx.symm

/-- The place of the identity is emptied, should anything be there. -/
def Empties (m : Machine) (r : Nat) (id : TrackedId) : Prop := m.Asks r id ∨ m.Drains r

theorem Acquires.not_empties (hm : m.Housed) (ha : m.Acquires r id x) (hn : Next m m')
    (id' : TrackedId) : ¬ m.Empties r id' := by
  have hnext := ha.nextId hn
  obtain rfl := ha.id_eq
  rintro (hasks | hd)
  · cases hx : (m.world.registry r).handle? id' with
    | none =>
      obtain rfl := hn.eq_of_move (move_of_not_found hasks hx)
      simp [Registry.nextId, answered] at hnext
    | some y =>
      rw [registry_of_found hasks hx hn] at hnext
      simp [Registry.nextId, Registry.clear] at hnext
  · rw [hd.registry hm hn] at hnext
    simp [Registry.nextId, Registry.drain] at hnext

theorem Acquires.registry_ne (ha : m.Acquires r id x) (hn : Next m m') :
    m'.world.registry r ≠ m.world.registry r := by
  intro h
  have hnext := ha.nextId hn
  rw [h, ← ha.id_eq] at hnext
  have hindex := congrArg TrackedId.index hnext
  simp at hindex

/-- An acquisition answers the identity that it gives. -/
theorem Acquires.answer (hm : m.Housed) (ha : m.Acquires r id x) (hn : Next m m') :
    m'.control = .leave r (@Answer.issued r id) := by
  cases touch hm hn r with
  | still h => exact absurd h (ha.registry_ne hn)
  | acquired id' y ha' hc =>
    obtain ⟨rfl, -⟩ := ha.unique ha'
    exact hc
  | cleared id' y _ hasks => exact absurd (.inl hasks) (ha.not_empties hm hn id')
  | drained hd => exact absurd (.inr hd) (ha.not_empties hm hn id)

/-- A handle is under an identity if it was there and stays, or comes to be there. -/
theorem handle?_next (hm : m.Housed) (hn : Next m m') :
    (m'.world.registry r).handle? id = some x ↔
      (m.world.registry r).handle? id = some x ∧ ¬ m.Empties r id ∨ m.Acquires r id x := by
  have hacquires (hid : m.Empties r id) : ¬ m.Acquires r id x := fun ha =>
    ha.not_empties hm hn id hid
  cases touch hm hn r with
  | still h hd ha =>
    have hnone : ¬ m.Acquires r id x := fun hx => hx.registry_ne hn h
    rw [h]
    constructor
    · intro hx
      refine .inl ⟨hx, ?_⟩
      rintro (hasks | hdrains)
      · rw [ha id hasks] at hx
        cases hx
      · exact hd hdrains
    · rintro (⟨hx, -⟩ | hx)
      · exact hx
      · exact absurd hx hnone
  | acquired id' y ha _ =>
    obtain rfl := ha.id_eq
    rw [ha.registry hn, Registry.handle?_acquire_iff]
    constructor
    · rintro (hx | ⟨rfl, rfl⟩)
      · exact .inl ⟨hx, ha.not_empties hm hn id⟩
      · exact .inr ha
    · rintro (⟨hx, -⟩ | hx)
      · exact .inl hx
      · exact .inr (hx.unique ha)
  | cleared id' y hd ha hy =>
    rw [registry_of_found ha hy hn, Registry.handle?_clear (Registry.generation_of_handle? hy)]
    split
    · rename_i hid
      subst hid
      simp [Empties, ha, hacquires (.inl ha)]
    · rename_i hid
      have hempties : ¬ m.Empties r id := by
        rintro (hasks | hdrains)
        · exact hid (ha.unique hasks).2.symm
        · exact hd hdrains
      have hnone : ¬ m.Acquires r id x := fun hx => hx.not_empties hm hn id' (.inl ha)
      simp [hempties, hnone]
  | drained hd =>
    rw [hd.registry hm hn]
    have hnone : (m.world.registry r).drain.2.handle? id = none := by
      simp [Registry.drain, Registry.handle?]
    simp [hnone, Empties, hd, hacquires (.inr hd)]

theorem handle?_idle (r : Nat) (id : TrackedId) : (idle.world.registry r).handle? id = none := by
  cases r with
  | zero => simp [idle, World.start, World.registry, Registry.handle?, Registry.empty]
  | succ r => simp [idle, World.start, World.registry, Registry.handle?, Registry.empty]

/-- A handle is under an identity in the end if it was there from the start or has come to be
there, and the place was not emptied since. -/
theorem Trail.handle?_iff (hm : m.Reachable) (h : Trail m ms m') :
    (m'.world.registry r).handle? id = some x ↔
      ((m.world.registry r).handle? id = some x ∧ ∀ b ∈ ms, ¬ b.Empties r id) ∨
        ∃ before a after, ms = before ++ a :: after ∧ a.Acquires r id x ∧
          ∀ b ∈ after, ¬ b.Empties r id := by
  induction h with
  | stay => simp
  | @go c d past h hn ih =>
    rw [handle?_next (h.reachable hm).housed hn, ih]
    constructor
    · rintro (⟨⟨hx, hpast⟩ | ⟨before, a, after, rfl, ha, hafter⟩, hc⟩ | ha)
      · refine .inl ⟨hx, fun b hb => ?_⟩
        rcases List.mem_append.mp hb with hb | hb
        · exact hpast b hb
        · exact List.mem_singleton.mp hb ▸ hc
      · refine .inr ⟨before, a, after ++ [c], by simp, ha, fun b hb => ?_⟩
        rcases List.mem_append.mp hb with hb | hb
        · exact hafter b hb
        · exact List.mem_singleton.mp hb ▸ hc
      · exact .inr ⟨past, c, [], rfl, ha, fun b hb => nomatch hb⟩
    · rintro (⟨hx, hpast⟩ | ⟨before, a, after, he, ha, hafter⟩)
      · refine .inl ⟨.inl ⟨hx, fun b hb => hpast b (List.mem_append_left _ hb)⟩, ?_⟩
        exact hpast c (List.mem_append_right _ List.mem_cons_self)
      · rcases List.eq_nil_or_concat after with rfl | ⟨after', z, rfl⟩
        · obtain ⟨-, hz⟩ := List.append_inj' he rfl
          obtain rfl := (List.cons.inj hz).1
          exact .inr ha
        · have he' : past ++ [c] = (before ++ a :: after') ++ [z] := by simpa using he
          obtain ⟨rfl, hz⟩ := List.append_inj' he' rfl
          obtain rfl := (List.cons.inj hz).1
          refine .inl ⟨.inr ⟨before, a, after', rfl, ha, fun b hb => ?_⟩, ?_⟩
          · exact hafter b (by simp [hb])
          · exact hafter c (by simp)

theorem key_nextId_le_of_later (hm : m.Reachable) (h : Later m m') (r : Nat) :
    (m.world.registry r).nextId.key ≤ (m'.world.registry r).nextId.key := by
  induction h with
  | refl => exact le_refl _
  | tail h hn ih => exact le_trans ih (key_nextId_le (hm.later h).housed hn)

/-- Of two acquisitions the later one is given the later identity. -/
theorem Acquires.key_lt_of_later (hm : m.Reachable) (ha : m.Acquires r id x) (hn : Next m a)
    (h : Later a b) (hb : b.Acquires r id' y) : id.key < id'.key := by
  rw [hb.id_eq]
  exact lt_of_lt_of_le (ha.key_lt hn) (key_nextId_le_of_later (hm.tail hn) h r)

/-- A handle stays where it was stored until somebody asks for it or a drain begins. -/
theorem Acquires.stays_iff (hm : m.Reachable) (ha : m.Acquires r id x) (hn : Next m a)
    (h : Trail a ms m') :
    (m'.world.registry r).handle? id = some x ↔ ∀ b ∈ ms, ¬ b.Empties r id := by
  have hstored : (a.world.registry r).handle? id = some x :=
    (handle?_next hm.housed hn).mpr (.inr ha)
  rw [h.handle?_iff (hm.tail hn), hstored]
  constructor
  · rintro (⟨-, hfree⟩ | ⟨before, b, after, rfl, hb, -⟩)
    · exact hfree
    · have hlt := ha.key_lt_of_later hm hn (h.split rfl).1.later hb
      exact absurd hlt (lt_irrefl _)
  · intro hfree
    exact .inl ⟨rfl, hfree⟩

end Machine

end Subscriptions.Tracker
