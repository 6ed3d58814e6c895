import Subscriptions.Proofs.Tracker.Run

namespace Subscriptions.Tracker

/-- The handle is not spent, and is for the observer with that id on the subject with that number. -/
def Handle.isFor (s id : Nat) (h : Handle) : Bool :=
  !h.spent && match h.resource with
    | .teardown _ => false
    | .subscription t x => t == s && x == id

theorem Handle.isFor_teardown (s id number : Nat) (t : Teardown Program) (spent : Bool) :
    Handle.isFor s id ⟨number, .teardown t, spent⟩ = false := by
  simp [isFor]

theorem Handle.isFor_subscription {s id t x number : Nat} :
    Handle.isFor s id ⟨number, .subscription t x, false⟩ = true ↔ t = s ∧ x = id := by
  simp [isFor]

def World.handles (w : World) : List Handle :=
  w.registries.flatMap Registry.handles ++ w.held.map Prod.snd

def Frame.handles : Frame → List Handle
  | .teardown h _ | .subscribing _ _ h => [h]
  | .draining _ waiting _ _ => waiting
  | .program .. | .delivery .. | .replaying .. | .releasing _ | .holding _ | .scope .. => []

def Control.handles : Control → List Handle
  | .invoke h | .released h _ => [h]
  | .run _ | .answer _ | .finished | .leave .. => []

def Machine.handles (m : Machine) : List Handle :=
  m.control.handles ++ (m.stack.flatMap Frame.handles ++ m.world.handles)

private theorem countP_slots_set {η : Type} {slots : List (Option η)} {i : Nat} {h : η}
    (hs : (slots[i]?).join = some h) (p : η → Bool) :
    ((slots.set i none).filterMap fun slot => slot).countP p + [h].countP p =
      (slots.filterMap fun slot => slot).countP p := by
  induction slots generalizing i with
  | nil => simp at hs
  | cons slot slots ih =>
    cases i with
    | zero =>
      simp only [List.getElem?_cons_zero, Option.join_some] at hs
      subst hs
      simp [List.countP_cons]
    | succ i =>
      have hi := ih (by simpa using hs)
      cases slot with
      | none => simpa using hi
      | some h' =>
        simp only [List.set_cons_succ, List.filterMap_cons, List.countP_cons (a := h')]
        omega

/-- A handle leaves its place for good. -/
theorem Registry.countP_handles_clear {r : Registry Handle} {id : TrackedId} {h : Handle}
    (hh : r.handle? id = some h) (p : Handle → Bool) :
    (r.clear id).handles.countP p + [h].countP p = r.handles.countP p := by
  simp only [handle?] at hh
  split at hh
  · exact countP_slots_set hh p
  · cases hh

/-- What a registry takes or gives, the world as a whole takes or gives. -/
theorem World.countP_setRegistry (w : World) (r : Nat) (value : Registry Handle)
    (p : Handle → Bool) :
    (w.setRegistry r value).handles.countP p + (w.registry r).handles.countP p ≤
      w.handles.countP p + value.handles.countP p := by
  have hset (rs : List (Registry Handle)) :
      ((rs.set r value).flatMap Registry.handles).countP p +
          ((rs[r]?).getD .empty).handles.countP p ≤
        (rs.flatMap Registry.handles).countP p + value.handles.countP p := by
    induction rs generalizing r with
    | nil => simp [Registry.empty, Registry.handles]
    | cons q qs ih =>
      cases r with
      | zero =>
        simp only [List.set_cons_zero, List.flatMap_cons, List.countP_append,
          List.getElem?_cons_zero, Option.getD_some]
        omega
      | succ r =>
        have h := ih r
        simp only [List.set_cons_succ, List.flatMap_cons, List.countP_append,
          List.getElem?_cons_succ] at h ⊢
        omega
  have h := hset w.registries
  simp only [handles, setRegistry, registry, List.countP_append] at h ⊢
  omega

theorem World.countP_track_le (w : World) (r : Nat) (registryName name : String) (h : Handle)
    (p : Handle → Bool) :
    (w.track r registryName name h).2.handles.countP p ≤ w.handles.countP p + [h].countP p := by
  have hset := w.countP_setRegistry r ((w.registry r).acquire h).2 p
  rw [Registry.handles_acquire, List.countP_append] at hset
  have htrack : (w.track r registryName name h).2.handles =
      (w.setRegistry r ((w.registry r).acquire h).2).handles := rfl
  rw [htrack]
  omega

theorem World.countP_hold_le (w : World) (name : String) (h : Handle) (p : Handle → Bool) :
    (w.hold name h).handles.countP p ≤ w.handles.countP p + [h].countP p := by
  have hb := countP_bindName_le w.held name h (p ∘ Prod.snd)
  simp only [handles, hold, List.countP_append, List.countP_map, List.countP_cons,
    List.countP_nil, Function.comp_apply] at hb ⊢
  omega

/-- A held handle leaves its place for good. -/
theorem World.countP_unhold_le {w : World} {name : String} {h : Handle}
    (hh : w.held.lookup name = some h) (p : Handle → Bool) :
    ({ w with held := unbindName w.held name } : World).handles.countP p + [h].countP p ≤
      w.handles.countP p := by
  have hb := countP_unbindName_le hh (p ∘ Prod.snd)
  simp only [handles, List.countP_append, List.countP_map, List.countP_cons, List.countP_nil,
    Function.comp_apply] at hb ⊢
  omega

/-- A drain takes the handles of its registry along. -/
theorem World.countP_drain_le (w : World) (r : Nat) (p : Handle → Bool) :
    (w.setRegistry r (w.registry r).drain.2).handles.countP p +
        (w.registry r).handles.countP p ≤ w.handles.countP p := by
  have hset := w.countP_setRegistry r (w.registry r).drain.2 p
  rw [Registry.handles_drain, List.countP_nil] at hset
  omega

/-- A count of handles, with what those that are still to be made will add to it. -/
structure Tally where
  counts : Handle → Bool
  /-- What is to come from the handles numbered from there on. -/
  toCome : Nat → Nat
  spent : ∀ h : Handle, counts { h with spent := true } = true → counts h = true
  made : ∀ n t, toCome (n + 1) + [⟨n, .teardown t, false⟩].countP counts ≤ toCome n

namespace Tally

/-- Unspent handles for one observer. A teardown is for nobody. -/
def observer (s id : Nat) : Tally where
  counts := Handle.isFor s id
  toCome _ := 0
  spent h hh := by simp [Handle.isFor] at hh
  made n t := by simp [Handle.isFor_teardown]

/-- The handle with that number, be it made or still to be made. -/
def number (n : Nat) : Tally where
  counts h := h.number == n
  toCome k := if k ≤ n then 1 else 0
  spent _ hh := hh
  made k t := by
    have hone : [Handle.mk k (.teardown t) false].countP (·.number == n) =
        if k = n then 1 else 0 := by
      simp [List.countP_singleton]
    rw [hone]
    repeat' split
    all_goals omega

theorem countP_spent (T : Tally) (n : Nat) (resource : Resource) (spent : Bool) :
    [⟨n, resource, true⟩].countP T.counts ≤ [⟨n, resource, spent⟩].countP T.counts := by
  have hh := T.spent ⟨n, resource, spent⟩
  rw [List.countP_singleton, List.countP_singleton]
  split <;> simp_all

end Tally

def Machine.tally (T : Tally) (m : Machine) : Nat :=
  m.handles.countP T.counts + T.toCome m.world.handleCount

end Subscriptions.Tracker
