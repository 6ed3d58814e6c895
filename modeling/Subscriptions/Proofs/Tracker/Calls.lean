import Subscriptions.Proofs.Tracker.Custody
import Subscriptions.Proofs.Tracker.Dealing

namespace Subscriptions.Tracker

def Handle.outcome (x : Handle) : Option ReleaseError :=
  if x.spent then some .alreadyReleased
  else match x.resource with
    | .teardown t => t.failure
    | .subscription .. => none

def Frame.isRegistry : Frame → Bool
  | .releasing _ | .draining .. => true
  | .program .. | .teardown .. | .delivery .. | .subscribing .. | .replaying .. | .holding _
  | .scope .. => false

namespace Machine

/-- The release of a handle is under way above a stack: its teardown runs, or it returns. -/
inductive Busy (x : Handle) (stack : List Frame) (m : Machine) : Prop
  | running (t : Teardown Program) (above : List Frame) (hr : x.resource = .teardown t)
      (hx : x.spent = false)
      (hs : m.stack = above ++ .teardown { x with spent := true } t.failure :: stack)
  | returned (y : Handle) (hy : y.number = x.number) (hc : m.control = .released y x.outcome)
      (hs : m.stack = stack)

variable {m m' a : Machine} {x y : Handle} {n : Nat} {f : Frame} {stack : List Frame}

/-- Every call comes to a teardown that runs, or returns at once. -/
theorem busy_of_invoke (hc : m.control = .invoke x) (h : m.move = some m') :
    Busy x m.stack m' := by
  obtain ⟨w, c, stack⟩ := m
  obtain rfl : c = .invoke x := hc
  obtain rfl := Option.some.inj h
  obtain ⟨number, resource, spent⟩ := x
  cases spent with
  | true => exact .returned _ rfl rfl rfl
  | false =>
    cases resource with
    | subscription s id => exact .returned ⟨number, .subscription s id, true⟩ rfl rfl rfl
    | teardown t =>
      simp only [invoke, Bool.false_eq_true, if_false]
      cases hp : t.program with
      | nil => exact .running t [] rfl rfl rfl
      | cons s rest => exact .running t [.program s.word rest] rfl rfl rfl

theorem Busy.length_le (hb : Busy x stack m) : stack.length ≤ m.stack.length := by
  cases hb with
  | returned y _ _ hs => exact Nat.le_of_eq (congrArg List.length hs).symm
  | running t above _ _ hs =>
    rw [hs, List.length_append, List.length_cons]
    omega

/-- A call stays under way until it has returned. -/
theorem Busy.next (hb : Busy x (f :: stack) m) (hm : m.Reachable) (hn : Next m m') :
    (f :: stack).length < m.stack.length ∧ Busy x (f :: stack) m' ∨
      ∃ y, y.number = x.number ∧ m.control = .released y x.outcome ∧
        m.stack = f :: stack ∧ m' = afterRelease m.world y x.outcome f stack := by
  cases hn with
  | step h s =>
    -- Nothing is left to do only where no frame is.
    have hnil := stack_of_move_eq_none h
    cases hb with
    | running t above _ _ hs => simp [hnil] at hs
    | returned y _ _ hs =>
      rw [hnil] at hs
      cases hs
  | move h =>
    cases hb with
    | returned y hy hc hs =>
      refine .inr ⟨y, hy, hc, hs, ?_⟩
      obtain ⟨w, c, stack'⟩ := m
      obtain rfl : c = _ := hc
      obtain rfl : stack' = _ := hs
      exact (Option.some.inj h).symm
    | running t above hr hx hs =>
      have hlen : (f :: stack).length < m.stack.length := by
        simp only [hs, List.length_append, List.length_cons]
        omega
      refine .inl ⟨hlen, ?_⟩
      cases above with
      | nil =>
        -- The teardown is done when control comes back to its frame.
        have hnested := hm.regular.nested
        obtain ⟨w, c, stack'⟩ := m
        obtain rfl : stack' = _ := hs
        have hcallback : c.outlet = .callback := by simpa [Frame.takes] using hnested.1
        cases c with
        | finished =>
          obtain rfl := Option.some.inj h
          refine .returned { x with spent := true } rfl ?_ rfl
          have houtcome : x.outcome = t.failure := by simp [Handle.outcome, hx, hr]
          rw [houtcome]
          rfl
        | run | answer | invoke | released | leave => cases hcallback
      | cons g above =>
        obtain ⟨more, hmore⟩ := tail_suffix_of_move hm.housed h
        rw [hs] at hmore
        refine .running t (more ++ above) hr hx ?_
        rw [List.append_assoc]
        exact hmore.symm

/-- A handle that its registry releases is gone once the call has returned. -/
theorem gone_afterRelease (hm : m.Reachable) {e : Option ReleaseError}
    (hc : m.control = .released y e) (hs : m.stack = f :: stack) (hf : f.isRegistry = true) :
    (afterRelease m.world y e f stack).Gone y.number := by
  have hle := hm.tally_le_one y.number
  obtain ⟨w, c, stack'⟩ := m
  obtain rfl : c = _ := hc
  obtain rfl : stack' = _ := hs
  have hone : (Control.released y e).handles.countP (Tally.number y.number).counts = 1 := by
    simp [Control.handles, Tally.number]
  have hgone (c' : Control) (stack'' : List Frame)
      (hh : c'.handles.countP (Tally.number y.number).counts +
        (stack''.flatMap Frame.handles).countP (Tally.number y.number).counts =
          ((f :: stack).flatMap Frame.handles).countP (Tally.number y.number).counts) :
      (Machine.mk w c' stack'').Gone y.number := by
    rw [tally, countP_handles] at hle
    rw [Gone, tally, countP_handles]
    dsimp only at hle ⊢
    omega
  cases f with
  | releasing r => exact hgone _ _ (by simp [Control.handles, Frame.handles])
  | draining r waiting report purpose =>
    cases waiting with
    | nil => cases purpose <;> exact hgone _ _ (by simp [Control.handles, Frame.handles])
    | cons next rest =>
      refine hgone _ _ ?_
      simp only [Control.handles, List.flatMap_cons, Frame.handles, List.countP_append,
        List.countP_cons (a := next), List.countP_nil]
      omega
  | program | teardown | delivery | subscribing | replaying | holding | scope => cases hf

theorem mem_handles_of_invoke (hc : m.control = .invoke x) : x ∈ m.handles := by
  rw [handles, hc]
  exact List.mem_cons_self

/-- What waits below a call is still there. -/
theorem Busy.mem_waiting {z : Handle} (hb : Busy x (f :: stack) m) (hz : z ∈ f.handles) :
    z ∈ m.stack.flatMap Frame.handles := by
  have hmem : z ∈ (f :: stack).flatMap Frame.handles := List.mem_append_left _ hz
  cases hb with
  | returned y _ _ hs => exact hs ▸ hmem
  | running t above _ _ hs =>
    rw [hs, List.flatMap_append]
    exact List.mem_append_right _ (List.mem_append_right _ hmem)

theorem Busy.exists_mem (hb : Busy x stack m) :
    ∃ y ∈ m.control.handles ++ m.stack.flatMap Frame.handles, y.number = x.number := by
  cases hb with
  | returned y hy hc hs =>
    refine ⟨y, List.mem_append_left _ ?_, hy⟩
    rw [hc]
    exact List.mem_cons_self
  | running t above _ _ hs =>
    refine ⟨{ x with spent := true }, List.mem_append_right _ ?_, rfl⟩
    rw [hs]
    simp [Frame.handles]

/-- A handle is not released once more while its release is under way. -/
theorem Busy.number_ne (hb : Busy x stack m) (hm : m.Reachable) (hc : m.control = .invoke y) :
    y.number ≠ x.number := by
  cases hb with
  | returned z hz hc' =>
    rw [hc] at hc'
    cases hc'
  | running t above hr hx hs =>
    refine hm.number_ne (x := y) (y := { x with spent := true }) rfl ?_ ?_
    · rw [hc]
      exact List.mem_cons_self
    · rw [hs]
      simp [Frame.handles]

/-- Once a registry releases a handle, it is under way until it is gone for good. -/
theorem busy_or_gone (hm : m.Reachable) (hc : m.control = .invoke x) (hs : m.stack = f :: stack)
    (hf : f.isRegistry = true) (hmove : m.move = some a) (h : Later a m') :
    Busy x (f :: stack) m' ∨ m'.Gone x.number := by
  have ha : a.Reachable := hm.tail (.move hmove)
  induction h with
  | refl => exact .inl (hs ▸ busy_of_invoke hc hmove)
  | @tail b d hb hn ih =>
    have hreach := ha.later hb
    rcases ih with hbusy | hgone
    · rcases hbusy.next hreach hn with ⟨-, hbusy⟩ | ⟨y, hy, hc', hs', rfl⟩
      · exact .inl hbusy
      · exact .inr (hy ▸ gone_afterRelease hreach hc' hs' hf)
    · exact .inr (hgone.later hreach (.single hn))

/-- A registry releases a handle for good: nobody releases it once more. -/
theorem not_invoke_again (hm : m.Reachable) (hc : m.control = .invoke x) (hs : m.stack = f :: stack)
    (hf : f.isRegistry = true) (hmove : m.move = some a) (h : Later a m')
    (hc' : m'.control = .invoke y) : y.number ≠ x.number := by
  have hm' : m'.Reachable := Relation.ReflTransGen.trans (hm.tail (.move hmove)) h
  rcases busy_or_gone hm hc hs hf hmove h with hbusy | hgone
  · exact hbusy.number_ne hm' hc'
  · exact hgone.number_ne (mem_handles_of_invoke hc')

end Machine

end Subscriptions.Tracker
