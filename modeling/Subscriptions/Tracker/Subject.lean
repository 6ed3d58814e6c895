namespace Subscriptions.Tracker

/-- A multicast source. While a delivery is in progress its observers are out with it. -/
structure Subject (ο : Type) where
  observers : List (Nat × ο)
  /-- Ids released while their observer was out. -/
  detached : List Nat
  nextId : Nat
  closed : Bool
deriving Repr, DecidableEq, Inhabited

namespace Subject

variable {ο : Type}

def empty : Subject ο := ⟨[], [], 0, false⟩

/-- Gives out the next id, and keeps the observer unless the subject is closed. -/
def subscribe (s : Subject ο) (o : ο) : Nat × Subject ο :=
  (s.nextId, { s with
    nextId := s.nextId + 1,
    observers := if s.closed then s.observers else s.observers ++ [(s.nextId, o)] })

/-- Begins a delivery on an open subject: all observers go out with it, and a terminal
notification closes the subject. -/
def begin? (s : Subject ο) (closing : Bool) : Option (List (Nat × ο) × Subject ο) :=
  if s.closed then none else some (s.observers, { s with observers := [], closed := closing })

/-- The observer is not to be notified, since its id was released while it was out. -/
def isDetached (s : Subject ο) (id : Nat) : Bool := s.detached.contains id

/-- Ends a delivery. After a terminal notification its observers are gone; otherwise those not
released meanwhile come back in front of those subscribed meanwhile. -/
def finish (s : Subject ο) (closing : Bool) (out : List (Nat × ο)) : Subject ο :=
  if closing then { s with detached := [] }
  else { s with
    detached := [],
    observers := out.filter (fun o => !s.detached.contains o.1) ++ s.observers }

/-- Detaches an observer: it leaves the list, or is marked if it is out. Nothing is left to detach
from a closed subject. -/
def detach (s : Subject ο) (id : Nat) : Subject ο :=
  if s.closed then s
  else if s.observers.any (·.1 == id) then
    { s with observers := s.observers.eraseP (·.1 == id) }
  else if s.detached.contains id then s
  else { s with detached := id :: s.detached }

def observerCount (s : Subject ο) : Nat := s.observers.length

def ids (s : Subject ο) : List Nat := s.observers.map Prod.fst

theorem subscribe_nextId (s : Subject ο) (o : ο) : (s.subscribe o).2.nextId = s.nextId + 1 := rfl

theorem observerCount_begin {s s' : Subject ο} {closing : Bool} {out : List (Nat × ο)}
    (h : s.begin? closing = some (out, s')) : s'.observerCount = 0 ∧ out = s.observers := by
  unfold begin? at h
  split at h
  · cases h
  · cases h; exact ⟨rfl, rfl⟩

theorem closed_finish (s : Subject ο) (closing : Bool) (out : List (Nat × ο)) :
    (s.finish closing out).closed = s.closed := by
  unfold finish; split <;> rfl

theorem length_ids (s : Subject ο) : s.ids.length = s.observerCount := by
  simp [ids, observerCount]

theorem begin?_eq_some {s s' : Subject ο} {closing : Bool} {out : List (Nat × ο)}
    (h : s.begin? closing = some (out, s')) :
    s.closed = false ∧ out = s.observers ∧ s' = { s with observers := [], closed := closing } := by
  unfold begin? at h
  split at h
  · cases h
  · cases h; simp_all

theorem ids_subscribe_of_open {s : Subject ο} (h : s.closed = false) (o : ο) :
    (s.subscribe o).2.ids = s.ids ++ [s.nextId] := by
  simp [subscribe, ids, h]

theorem subscribe_of_closed {s : Subject ο} (h : s.closed = true) (o : ο) :
    (s.subscribe o).2 = { s with nextId := s.nextId + 1 } := by
  simp [subscribe, h]

theorem nextId_finish (s : Subject ο) (closing : Bool) (out : List (Nat × ο)) :
    (s.finish closing out).nextId = s.nextId := by
  unfold finish; split <;> rfl

theorem detached_finish (s : Subject ο) (closing : Bool) (out : List (Nat × ο)) :
    (s.finish closing out).detached = [] := by
  unfold finish; split <;> rfl

theorem ids_finish_true (s : Subject ο) (out : List (Nat × ο)) :
    (s.finish true out).ids = s.ids := rfl

theorem ids_finish_false (s : Subject ο) (out : List (Nat × ο)) :
    (s.finish false out).ids =
      (out.map Prod.fst).filter (fun id => !s.detached.contains id) ++ s.ids := by
  simp [finish, ids, List.filter_map, Function.comp_def]

theorem nextId_detach (s : Subject ο) (id : Nat) : (s.detach id).nextId = s.nextId := by
  unfold detach; repeat' split
  all_goals rfl

theorem closed_detach (s : Subject ο) (id : Nat) : (s.detach id).closed = s.closed := by
  unfold detach; repeat' split
  all_goals rfl

theorem detach_of_closed {s : Subject ο} (h : s.closed = true) (id : Nat) : s.detach id = s := by
  simp [detach, h]

theorem ids_detach_sublist (s : Subject ο) (id : Nat) : (s.detach id).ids.Sublist s.ids := by
  unfold detach
  split
  · exact .refl _
  · split
    · exact List.eraseP_sublist.map _
    · split <;> exact .refl _

/-- Only the observer itself can leave. -/
theorem eq_of_not_mem_ids_detach {s : Subject ο} {id x : Nat} (h : x ∈ s.ids)
    (hx : x ∉ (s.detach id).ids) : x = id := by
  unfold detach at hx
  split at hx
  · exact absurd h hx
  · split at hx
    · refine Decidable.byContradiction fun hne => ?_
      obtain ⟨o, ho, rfl⟩ := List.mem_map.mp h
      refine hx (List.mem_map.mpr ⟨o, ?_, rfl⟩)
      rw [List.mem_eraseP_of_neg (by simpa using hne)]
      exact ho
    · split at hx <;> exact absurd h hx

/-- An observer at home leaves the list, and no mark is made. -/
theorem detach_of_mem {s : Subject ο} {id : Nat} (hopen : s.closed = false) (h : id ∈ s.ids) :
    s.detach id = { s with observers := s.observers.eraseP (·.1 == id) } := by
  have hany : s.observers.any (·.1 == id) = true := by
    simp only [ids, List.mem_map] at h
    simpa using h
  simp [detach, hopen, hany]

/-- An observer that is not at home is marked. -/
theorem detach_of_not_mem {s : Subject ο} {id : Nat} (hopen : s.closed = false)
    (h : id ∉ s.ids) : (s.detach id).ids = s.ids ∧ id ∈ (s.detach id).detached := by
  have hany : s.observers.any (·.1 == id) = false := by
    simp only [ids, List.mem_map, not_exists, not_and] at h
    simpa using h
  by_cases hm : s.detached.contains id = true
  · simp only [detach, hopen, hany, hm]
    exact ⟨rfl, by simpa using hm⟩
  · simp only [detach, hopen, hany, hm]
    exact ⟨rfl, List.mem_cons_self⟩

theorem mem_detached_detach {s : Subject ο} {id x : Nat} (h : x ∈ (s.detach id).detached) :
    x ∈ s.detached ∨ x = id ∧ id ∉ s.ids := by
  unfold detach at h
  split at h
  · exact .inl h
  · split at h
    · exact .inl h
    · rename_i hany
      split at h
      · exact .inl h
      · rcases List.mem_cons.mp h with rfl | h
        · refine .inr ⟨rfl, ?_⟩
          simpa [ids] using hany
        · exact .inl h

theorem detached_subset_detach (s : Subject ο) (id : Nat) :
    s.detached ⊆ (s.detach id).detached := by
  intro x h
  unfold detach
  split
  · exact h
  · split
    · exact h
    · split
      · exact h
      · exact List.mem_cons_of_mem _ h

/-- Ids that are all different do not come back once they are detached. -/
theorem not_mem_ids_detach {s : Subject ο} {id : Nat} (hopen : s.closed = false)
    (hn : s.ids.Nodup) : id ∉ (s.detach id).ids := by
  by_cases h : id ∈ s.ids
  · rw [detach_of_mem hopen h]
    have he : (s.observers.eraseP (·.1 == id)).map Prod.fst = s.ids.erase id := by
      rw [ids, List.erase_eq_eraseP, List.eraseP_map]
      congr 2
      funext o
      exact BEq.comm
    rw [ids, he]
    exact hn.not_mem_erase
  · rw [(detach_of_not_mem hopen h).1]
    exact h

end Subject

end Subscriptions.Tracker
