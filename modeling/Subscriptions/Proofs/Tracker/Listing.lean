import Subscriptions.Proofs.Tracker.View

namespace Subscriptions.Tracker.View

variable {v v' : View}

theorem Reachable.step (hv : v.Reachable) (h : v.Step v') : v'.Reachable := hv.tail h

/-- Observers stand in the order of their subscriptions, each at one place. -/
theorem Reachable.sorted (hv : v.Reachable) :
    v.listed.Pairwise (· < ·) ∧ ∀ id ∈ v.listed, id < v.subject.nextId := by
  refine hv.invariant (by simp [fresh, listed, out, outIds, Subject.empty, Subject.ids]) ?_
  intro v v' _ ih h
  rcases h.listed with hs | ⟨hl, hn⟩
  · refine ⟨ih.1.sublist hs, fun id hid => ?_⟩
    exact Nat.lt_of_lt_of_le (ih.2 id (hs.subset hid)) h.nextId_le
  · rw [hl, hn]
    constructor
    · rw [List.pairwise_append]
      refine ⟨ih.1, List.pairwise_singleton _ _, fun a ha b hb => ?_⟩
      rw [List.mem_singleton.mp hb]
      exact ih.2 a ha
    · intro id hid
      rcases List.mem_append.mp hid with hid | hid
      · exact Nat.lt_succ_of_lt (ih.2 id hid)
      · rw [List.mem_singleton.mp hid]
        exact Nat.lt_succ_self _

theorem Reachable.nodup (hv : v.Reachable) : v.listed.Nodup :=
  hv.sorted.1.imp Nat.ne_of_lt

/-- An observer whose turn it is stands nowhere else. -/
theorem Reachable.turn_unique (hv : v.Reachable) {d : Delivery} {ds : List Delivery} {id : Nat}
    {o : Observer Program} {rest : List (Nat × Observer Program)} (hd : v.deliveries = d :: ds)
    (hw : d.waiting = (id, o) :: rest) :
    id ∉ d.served.map Prod.fst ∧ id ∉ rest.map Prod.fst ∧ id ∉ outIds ds ∧ id ∉ v.subject.ids := by
  have hn := hv.nodup
  rw [listed, out, hd, outIds, Delivery.ids, hw, List.map_cons] at hn
  have hc := List.nodup_iff_count_le_one.mp hn id
  simp only [List.count_append, List.count_cons_self] at hc
  refine ⟨?_, ?_, ?_, ?_⟩ <;> intro h <;> have := List.count_pos_iff.mpr h <;> omega

theorem Awaits.mem_listed {id : Nat} (h : v.Awaits id) : id ∈ v.listed := by
  rcases h with h | ⟨d, hd, h⟩
  · exact List.mem_append_right _ h
  · exact List.mem_append_left _ (mem_outIds_of_awaits hd h)

theorem Reachable.lt_of_awaits (hv : v.Reachable) {id : Nat} (h : v.Awaits id) :
    id < v.subject.nextId :=
  hv.sorted.2 id h.mem_listed

theorem Reachable.history_lt (hv : v.Reachable) : ∀ h ∈ v.history, h.id < v.subject.nextId := by
  refine hv.invariant (by simp [fresh]) ?_
  intro v v' hv ih h x hx
  have hold : x ∈ v.history → x.id < v'.subject.nextId := fun hx =>
    Nat.lt_of_lt_of_le (ih x hx) h.nextId_le
  cases h with
  | idle | subscribe | start | skip | finish => exact hold hx
  | late =>
    rcases List.mem_append.mp hx with hx | hx
    · exact hold hx
    · rw [List.mem_singleton.mp hx]
      exact Nat.lt_succ_self _
  | @call d ds id o rest hd hw h =>
    rcases List.mem_append.mp hx with hx | hx
    · exact hold hx
    · rw [List.mem_singleton.mp hx]
      refine hv.lt_of_awaits (.inr ⟨d, ?_, .inl ?_⟩)
      · rw [hd]; exact List.mem_cons_self
      · rw [hw]; exact List.mem_cons_self
  | release id hid h =>
    rcases List.mem_append.mp hx with hx | hx
    · exact hold hx
    · rw [List.mem_singleton.mp hx, Subject.nextId_detach]
      exact hid

/-- Marks are left by releases, and only on observers that are not at home. -/
theorem Reachable.marked (hv : v.Reachable) :
    ∀ id ∈ v.subject.detached, id ∉ v.subject.ids ∧ .released id ∈ v.history := by
  refine hv.invariant (by simp [fresh, Subject.empty]) ?_
  intro v v' hv ih h id hid
  cases h with
  | idle | call | skip =>
    exact ⟨(ih id hid).1, by simp [(ih id hid).2]⟩
  | subscribe o h =>
    have hne : id ≠ v.subject.nextId := Nat.ne_of_lt (hv.history_lt _ (ih id hid).2)
    rw [Subject.ids_subscribe_of_open h]
    refine ⟨?_, (ih id hid).2⟩
    simp [(ih id hid).1, hne]
  | late o h =>
    rw [Subject.subscribe_of_closed h] at hid ⊢
    exact ⟨(ih id hid).1, List.mem_append_left _ (ih id hid).2⟩
  | start note h =>
    obtain ⟨-, -, rfl⟩ := Subject.begin?_eq_some h
    exact ⟨List.not_mem_nil, (ih id hid).2⟩
  | finish hd hw =>
    rw [Subject.detached_finish] at hid
    exact absurd hid List.not_mem_nil
  | release x hx h =>
    rcases Subject.mem_detached_detach hid with hid | ⟨rfl, hm⟩
    · refine ⟨fun hm => (ih id hid).1 ((Subject.ids_detach_sublist _ _).subset hm), ?_⟩
      exact List.mem_append_left _ (ih id hid).2
    · refine ⟨fun hm' => hm ((Subject.ids_detach_sublist _ _).subset hm'), ?_⟩
      exact List.mem_append_right _ (List.mem_singleton_self _)

end Subscriptions.Tracker.View
