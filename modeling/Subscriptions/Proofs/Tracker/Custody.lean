import Subscriptions.Proofs.Tracker.Simulation

namespace Subscriptions.Tracker

/-- Any new handle was to come. -/
theorem Tally.number_made (n k : Nat) (resource : Resource) :
    (number n).toCome (k + 1) + [⟨k, resource, false⟩].countP (number n).counts =
      (number n).toCome k := by
  have hone : [Handle.mk k resource false].countP (number n).counts =
      if k = n then 1 else 0 := by
    simp [number, List.countP_singleton]
  rw [hone]
  simp only [number]
  repeat' split
  all_goals omega

namespace Machine

variable {w : World} {c : Control} {stack : List Frame}

theorem tally_deliver (name : String) (note : Notification) (T : Tally) :
    (deliver w name note stack).tally T ≤ (Machine.mk w c stack).tally T := by
  unfold deliver
  split
  · exact (quiet_failed w c stack _).tally T
  · rename_i s _
    split
    · exact (quiet_answered w c stack _).tally T
    · rename_i out subject _
      dsimp only
      refine tally_le_of_countP_le ?_ (fun p => ?_) T
      · rfl
      have hw : ({ w.setSubject s subject with deliveryCount := w.deliveryCount + 1 } :
          World).handles = w.handles := rfl
      rw [countP_handles, countP_handles, hw]
      simp [Control.handles, Frame.handles]

theorem tally_deliverOn {s number : Nat} {note : Notification}
    {served waiting : List (Nat × Observer Program)} (T : Tally) :
    (deliverOn w s number note served waiting stack).tally T ≤
      (Machine.mk w c (.delivery s number note served waiting :: stack)).tally T := by
  have hdone (w' : World) (stack' : List Frame) (hk : w'.handleCount = w.handleCount)
      (hw : w'.handles = w.handles)
      (hs : stack'.flatMap Frame.handles = stack.flatMap Frame.handles) :
      (Machine.mk w' .finished stack').tally T ≤
        (Machine.mk w c (.delivery s number note served waiting :: stack)).tally T := by
    refine tally_le_of_countP_le hk (fun p => ?_) T
    rw [countP_handles, countP_handles, hw, hs]
    simp [Control.handles, Frame.handles]
  cases waiting with
  | nil =>
    refine Nat.le_trans ((quiet_answered _ .finished stack .nothing).tally T) ?_
    exact hdone _ _ rfl rfl rfl
  | cons o rest =>
    simp only [deliverOn]
    split
    · exact hdone _ _ rfl rfl rfl
    · refine Nat.le_trans ((quiet_startProgram _ .finished _ _).tally T) ?_
      exact hdone _ _ rfl rfl rfl

theorem tally_invoke (h : Handle) (T : Tally) :
    (invoke w h stack).tally T ≤ (Machine.mk w (.invoke h) stack).tally T := by
  obtain ⟨number, resource, spent⟩ := h
  cases resource with
  | teardown t => exact (quiet_invoke w stack _ (.inr ⟨t, rfl⟩)).tally T
  | subscription s id =>
    cases spent with
    | true => exact (quiet_invoke w stack _ (.inl rfl)).tally T
    | false =>
      have hspent := T.countP_spent number (.subscription s id) false
      have hw : ((w.setSubject s ((w.subject s).detach id)).happen (.detached s id)).handles =
        w.handles := rfl
      refine Nat.add_le_add_right ?_ (T.toCome w.handleCount)
      simp only [invoke, Bool.false_eq_true, if_false]
      rw [countP_handles, countP_handles, hw]
      simp only [Control.handles]
      omega

theorem tally_subscribe (subject : String) (o : Observer Program) (name : String)
    (registry : Option String) (n : Nat) :
    (subscribe w subject o name registry stack).tally (.number n) ≤
      (Machine.mk w c stack).tally (.number n) := by
  unfold subscribe
  split
  · exact (quiet_failed w c stack _).tally _
  · rename_i s _
    split
    · exact (quiet_failed w c stack _).tally _
    · rename_i owner _
      -- The new handle, wherever it goes first.
      have hnew (w' : World) (c' : Control) (stack' : List Frame)
          (hk : w'.handleCount = w.handleCount + 1) (hw : w'.handles = w.handles)
          (hh : ∀ p : Handle → Bool, c'.handles.countP p +
            (stack'.flatMap Frame.handles).countP p =
              [⟨w.handleCount, .subscription s (w.subject s).nextId, false⟩].countP p +
                (stack.flatMap Frame.handles).countP p) :
          (Machine.mk w' c' stack').tally (.number n) ≤
            (Machine.mk w c stack).tally (.number n) := by
        have hmade := Tally.number_made n w.handleCount (.subscription s (w.subject s).nextId)
        have hh := hh (Tally.number n).counts
        rw [tally, tally, countP_handles, countP_handles, hw, hk]
        simp only
        omega
      dsimp only
      split
      · refine Nat.le_trans ((quiet_startProgram _ .finished _ _).tally _) ?_
        refine hnew _ _ _ rfl rfl fun p => ?_
        simp only [Control.handles, List.countP_nil, Nat.zero_add, List.flatMap_cons,
          List.countP_append]
        rfl
      · refine Nat.le_trans ((quiet_store _ stack owner name _ none).tally _) ?_
        refine hnew _ _ _ rfl rfl fun p => ?_
        simp [Control.handles, World.newHandle, World.setSubject, Subject.subscribe]

theorem tally_runStep (s : Step) (n : Nat) :
    (runStep w s stack).tally (.number n) ≤ (Machine.mk w c stack).tally (.number n) := by
  cases s with
  | registry name => exact (quiet_newRegistry w c stack name).tally _
  | dropRegistry name => exact (quiet_dropRegistry w c stack name).tally _
  | acquire registry t =>
    exact (quiet_withRegistry w c stack registry fun r => quiet_storeNew w c stack _ _ _).tally _
  | release handle registry => exact (quiet_release w c stack handle registry).tally _
  | releaseAll name | onDestroy name =>
    exact (quiet_withRegistry w c stack name fun r => quiet_drain w c stack r _).tally _
  | shutdownGlobal => exact (quiet_drain w c stack _ _).tally _
  | inspect name =>
    exact (quiet_withRegistry w c stack name fun r => quiet_answered w c stack _).tally _
  | scope name body =>
    exact (quiet_withRegistry w c stack name fun r => quiet_scopeOn w c stack r _ _).tally _
  | hold t => exact (quiet_storeNew w c stack none _ t).tally _
  | releaseHandle name => exact (quiet_releaseHandle w c stack name).tally _
  | trackHandle name registry => exact (quiet_trackHandle w c stack name registry).tally _
  | subject name cloneOf => exact (quiet_newSubject w c stack name cloneOf).tally _
  | dropSubject name => exact (quiet_dropSubject w c stack name).tally _
  | subscribe subject o name registry => exact tally_subscribe subject o name registry n
  | replay values sourceError o t name registry =>
    simp only [runStep]
    split
    · exact (quiet_failed w c stack _).tally _
    · exact (quiet_replayOn w c stack _ _ _ _ _).tally _
  | next subject value => exact tally_deliver _ _ _
  | error subject message => exact tally_deliver _ _ _
  | complete subject => exact tally_deliver _ _ _
  | observer o => exact (quiet_answered w c stack _).tally _

/-- No move makes a handle twice or puts it at two places. -/
theorem tally_move {m m' : Machine} (hn : m.WellNested) (h : m.move = some m') (n : Nat) :
    m'.tally (.number n) ≤ m.tally (.number n) := by
  obtain ⟨w, c, stack⟩ := m
  cases c with
  | run s =>
    cases h
    exact tally_runStep s n
  | invoke x =>
    cases h
    exact tally_invoke x _
  | leave r a =>
    cases h
    exact (quiet_leave w _ stack r a).tally _
  | answer a =>
    cases stack with
    | nil => cases h
    | cons f stack =>
      cases h
      exact (quiet_afterAnswer w _ stack a f hn.1).tally _
  | finished =>
    cases stack with
    | nil => cases h
    | cons f stack =>
      cases h
      cases f with
      | delivery s number note served waiting => exact tally_deliverOn _
      | program | teardown | subscribing | replaying | releasing | holding | draining | scope =>
        exact (quiet_afterCallback w stack _ hn.1 fun _ => rfl).tally _
  | released x e =>
    cases stack with
    | nil => cases h
    | cons f stack =>
      cases h
      exact (quiet_afterRelease w stack x e f hn.1).tally _

/-- The handle has been made, and it is nowhere any more. -/
def Gone (n : Nat) (m : Machine) : Prop := m.tally (.number n) = 0

variable {m m' : Machine} {n : Nat}

theorem Reachable.tally_next (hm : m.Reachable) (h : Next m m') (n : Nat) :
    m'.tally (.number n) ≤ m.tally (.number n) := by
  cases h with
  | move h => exact tally_move hm.regular.nested h n
  | step h s => exact (quiet_step h s).tally _

/-- A handle is at one place at most. -/
theorem Reachable.tally_le_one (hm : m.Reachable) (n : Nat) : m.tally (.number n) ≤ 1 := by
  induction hm with
  | refl => exact Nat.le_of_eq rfl
  | tail hlater hn ih => exact Nat.le_trans (Reachable.tally_next hlater hn n) ih

/-- No two handles there are have the same number. -/
theorem Reachable.nodup (hm : m.Reachable) : (m.handles.map Handle.number).Nodup := by
  rw [List.nodup_iff_count_le_one]
  intro n
  have hle := hm.tally_le_one n
  rw [List.count_eq_countP, List.countP_map]
  exact Nat.le_trans (Nat.le_add_right _ _) hle

theorem Reachable.number_ne (hm : m.Reachable) {before after : List Handle} {x y : Handle}
    (h : m.handles = before ++ after) (hx : x ∈ before) (hy : y ∈ after) :
    x.number ≠ y.number := by
  have hnodup := hm.nodup
  rw [h, List.map_append, List.nodup_append] at hnodup
  exact hnodup.2.2 _ (List.mem_map_of_mem hx) _ (List.mem_map_of_mem hy)

theorem Gone.number_ne (hg : m.Gone n) {x : Handle} (hx : x ∈ m.handles) : x.number ≠ n := by
  rintro rfl
  have hcount : 0 < m.handles.countP (Tally.number x.number).counts :=
    List.countP_pos_iff.mpr ⟨x, hx, beq_self_eq_true _⟩
  rw [Gone, tally] at hg
  omega

/-- What is gone does not come back. -/
theorem Gone.later (hg : m.Gone n) (hm : m.Reachable) (h : Later m m') : m'.Gone n := by
  induction h with
  | refl => exact hg
  | tail hlater hn ih =>
    have hle := (hm.later hlater).tally_next hn n
    rw [Gone] at ih
    exact Nat.le_zero.mp (ih ▸ hle)

end Machine

end Subscriptions.Tracker
