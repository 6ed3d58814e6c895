import Subscriptions.Proofs.Tracker.Listing
import Subscriptions.Proofs.Tracker.Quiet

namespace Subscriptions.Tracker.Machine

/-- Names and deliveries are of subjects there are, and an unspent handle is the only one for an
observer that has subscribed and has not been released. -/
structure Sound (m : Machine) : Prop where
  named : ∀ q ∈ m.world.subjectNames, q.2 < m.world.subjects.length
  delivering : ∀ s, m.deliveries s ≠ [] → s < m.world.subjects.length
  live : ∀ s id, 0 < m.handles.countP (Handle.isFor s id) →
    m.handles.countP (Handle.isFor s id) = 1 ∧ s < m.world.subjects.length ∧
      id < (m.view s).subject.nextId ∧ .released id ∉ (m.view s).history

/-- Every subject takes a step of its own, and soundness is kept. -/
structure Advances (m m' : Machine) : Prop where
  step : ∀ s, (m.view s).Step (m'.view s)
  sound : m'.Sound

theorem Quiet.sound {m m' : Machine} (h : Quiet m m') (hm : m.Sound) : m'.Sound where
  named q hq := by
    rcases h.named q hq with ⟨q', hq', he⟩ | hq
    · rw [← he]
      exact Nat.lt_of_lt_of_le (hm.named q' hq') h.subjects
    · exact hq
  delivering s hs := by
    have hd : m'.deliveries s = m.deliveries s := congrArg View.deliveries (h.view s)
    rw [hd] at hs
    exact Nat.lt_of_lt_of_le (hm.delivering s hs) h.subjects
  live s id hpos := by
    have hle := h.handles s id
    obtain ⟨hone, hs, hid, hr⟩ := hm.live s id (Nat.lt_of_lt_of_le hpos hle)
    rw [h.view s]
    exact ⟨by omega, Nat.lt_of_lt_of_le hs h.subjects, hid, hr⟩

theorem Quiet.advances {m m' : Machine} (h : Quiet m m') (hm : m.Sound) : Advances m m' where
  step s := by
    rw [h.view s]
    exact .idle _ (Nat.le_refl _)
  sound := h.sound hm

theorem Advances.quiet {m₁ m₂ m₃ : Machine} (h : Advances m₁ m₂) (hq : Quiet m₂ m₃) :
    Advances m₁ m₃ where
  step s := by
    rw [hq.view s]
    exact h.step s
  sound := hq.sound h.sound

/-- Where one subject takes part, the others go on as before. -/
structure Spares (s : Nat) (m m' : Machine) : Prop where
  subject : ∀ t, t ≠ s → m'.world.subject t = m.world.subject t
  deliveries : ∀ t, t ≠ s → m'.deliveries t = m.deliveries t
  history : ∀ t, t ≠ s → m'.world.history t = m.world.history t
  named : m'.world.subjectNames = m.world.subjectNames
  subjects : m'.world.subjects.length = m.world.subjects.length

theorem Spares.view {m m' : Machine} {s t : Nat} (h : Spares s m m') (ht : t ≠ s) :
    m'.view t = { m.view t with next := m'.world.deliveryCount + 1 } := by
  simp only [Machine.view, h.subject t ht, h.deliveries t ht, h.history t ht]

theorem Spares.advances {m m' : Machine} {s : Nat} (h : Spares s m m') (hm : m.Sound)
    (hs : s < m.world.subjects.length) (hstep : (m.view s).Step (m'.view s))
    (hlive : ∀ t id, 0 < m'.handles.countP (Handle.isFor t id) →
      m'.handles.countP (Handle.isFor t id) = 1 ∧ t < m.world.subjects.length ∧
        id < (m'.view t).subject.nextId ∧ .released id ∉ (m'.view t).history) :
    Advances m m' := by
  refine ⟨fun t => ?_, fun q hq => ?_, fun t ht => ?_, fun t id hpos => ?_⟩
  · by_cases hts : t = s
    · rw [hts]
      exact hstep
    · rw [h.view hts]
      exact .idle _ hstep.next_le
  · rw [h.subjects]
    exact hm.named q (h.named ▸ hq)
  · rw [h.subjects]
    by_cases hts : t = s
    · rw [hts]
      exact hs
    · rw [h.deliveries t hts] at ht
      exact hm.delivering t ht
  · rw [h.subjects]
    exact hlive t id hpos

/-- No handle comes, and none is released. -/
theorem Spares.advances_of_countP_le {m m' : Machine} {s : Nat} (h : Spares s m m')
    (hm : m.Sound) (hs : s < m.world.subjects.length) (hstep : (m.view s).Step (m'.view s))
    (hhandles : ∀ p, m'.handles.countP p ≤ m.handles.countP p)
    (hreleased : ∀ id, .released id ∈ (m'.view s).history → .released id ∈ (m.view s).history) :
    Advances m m' := by
  refine h.advances hm hs hstep fun t id hpos => ?_
  have hle := hhandles (Handle.isFor t id)
  obtain ⟨hone, ht, hid, hr⟩ := hm.live t id (Nat.lt_of_lt_of_le hpos hle)
  by_cases hts : t = s
  · subst hts
    exact ⟨by omega, ht, Nat.lt_of_lt_of_le hid hstep.nextId_le, fun h => hr (hreleased id h)⟩
  · rw [h.view hts]
    exact ⟨by omega, ht, hid, hr⟩

theorem step_view {v : View} {m : Machine} {s : Nat} {subject : Subject (Observer Program)}
    {ds : List Delivery} {history : List Happening} {next : Nat}
    (h : v.Step ⟨subject, ds, history, next⟩) (hs : m.world.subject s = subject)
    (hd : m.deliveries s = ds) (hh : m.world.history s = history)
    (hn : m.world.deliveryCount + 1 = next) : v.Step (m.view s) := by
  subst hs hd hh hn
  exact h

variable {w : World} {c : Control} {stack : List Frame}

theorem deliveries_cons_of_ne {s t : Nat} (h : t ≠ s) (c : Control) (number : Nat)
    (note : Notification) (served waiting : List (Nat × Observer Program)) :
    (Machine.mk w c (.delivery s number note served waiting :: stack)).deliveries t =
      (Machine.mk w c stack).deliveries t := by
  simp [deliveries, Frame.delivery?, h.symm]

theorem deliveries_cons_self (w : World) (stack : List Frame) (s : Nat) (c : Control)
    (number : Nat) (note : Notification) (served waiting : List (Nat × Observer Program)) :
    (Machine.mk w c (.delivery s number note served waiting :: stack)).deliveries s =
      ⟨number, note, served, waiting⟩ :: (Machine.mk w c stack).deliveries s := by
  simp [deliveries, Frame.delivery?]

theorem history_happen (w : World) (e : Event) (s : Nat) :
    (w.happen e).history s = w.history s ++ (e.on? s).toList := by
  simp only [World.history, World.happen, List.filterMap_cons]
  cases e.on? s <;> simp

/-- A delivery begins. -/
theorem advances_begin {s : Nat} {note : Notification} {out : List (Nat × Observer Program)}
    {subject : Subject (Observer Program)} (hm : (Machine.mk w c stack).Sound)
    (hs : s < w.subjects.length) (h : (w.subject s).begin? note.isTerminal = some (out, subject)) :
    Advances ⟨w, c, stack⟩
      ⟨{ w.setSubject s subject with deliveryCount := w.deliveryCount + 1 }, .finished,
        .delivery s (w.deliveryCount + 1) note [] out :: stack⟩ := by
  refine Spares.advances_of_countP_le (s := s) ?_ hm hs ?_ (fun p => ?_) fun id hid => hid
  · exact ⟨fun t ht => w.subject_setSubject_of_ne ht subject,
      fun t ht => deliveries_cons_of_ne ht _ _ _ _ _, fun _ _ => rfl, rfl,
      w.length_setSubject s subject⟩
  · exact step_view (View.Step.start (v := (Machine.mk w c stack).view s) note h)
      (World.subject_setSubject hs subject) (deliveries_cons_self _ _ s _ _ _ _ _) rfl rfl
  · have hw : ({ w.setSubject s subject with deliveryCount := w.deliveryCount + 1 } :
        World).handles = w.handles := rfl
    rw [countP_handles, countP_handles, hw]
    simp [Control.handles, Frame.handles]

/-- The turn of an observer passes, with what happens then to this subject alone. -/
theorem advances_turn {s number id : Nat} {note : Notification} {o : Observer Program}
    {served rest : List (Nat × Observer Program)} {w' : World} (happenings : List Happening)
    (hm : (Machine.mk w c (.delivery s number note served ((id, o) :: rest) :: stack)).Sound)
    (hw : { w with events := w'.events } = w')
    (hself : w'.history s = w.history s ++ happenings)
    (hother : ∀ t, t ≠ s → w'.history t = w.history t)
    (hreleased : ∀ x, .released x ∉ happenings)
    (hstep : ((Machine.mk w c (.delivery s number note served ((id, o) :: rest) ::
      stack)).view s).Step ⟨w.subject s, ⟨number, note, served ++ [(id, o)], rest⟩ ::
        (Machine.mk w c stack).deliveries s, w.history s ++ happenings, w.deliveryCount + 1⟩) :
    Advances ⟨w, c, .delivery s number note served ((id, o) :: rest) :: stack⟩
      ⟨w', .finished, .delivery s number note (served ++ [(id, o)]) rest :: stack⟩ := by
  have hd := deliveries_cons_self w stack s c number note served ((id, o) :: rest)
  have hsubjects : w'.subjects = w.subjects := by rw [← hw]
  have hsubject (t : Nat) : w'.subject t = w.subject t := by
    rw [World.subject, World.subject, hsubjects]
  refine Spares.advances_of_countP_le (s := s) ?_ hm (hm.delivering s (by simp [hd])) ?_
    (fun p => ?_) fun x hx => ?_
  · refine ⟨fun t _ => hsubject t, fun t ht => ?_, hother, ?_, congrArg List.length hsubjects⟩
    · rw [deliveries_cons_of_ne ht, deliveries_cons_of_ne ht]
      rfl
    · change w'.subjectNames = w.subjectNames
      rw [← hw]
  · refine step_view hstep (hsubject s) (deliveries_cons_self _ _ s _ _ _ _ _) hself ?_
    change w'.deliveryCount + 1 = w.deliveryCount + 1
    rw [← hw]
  · have hh : w'.handles = w.handles := by rw [← hw]; rfl
    rw [countP_handles, countP_handles, hh]
    simp [Control.handles, Frame.handles]
  · change .released x ∈ w'.history s at hx
    rw [hself, List.mem_append] at hx
    exact hx.resolve_right (hreleased x)

/-- An observer is called in its turn. -/
theorem advances_call {s number id : Nat} {note : Notification} {o : Observer Program}
    {served rest : List (Nat × Observer Program)} (heard : Bool)
    (hm : (Machine.mk w c (.delivery s number note served ((id, o) :: rest) :: stack)).Sound)
    (h : (w.subject s).isDetached id = false) :
    Advances ⟨w, c, .delivery s number note served ((id, o) :: rest) :: stack⟩
      ⟨w.happen (.called (.delivery s number id) o.name note heard), .finished,
        .delivery s number note (served ++ [(id, o)]) rest :: stack⟩ := by
  have hd := deliveries_cons_self w stack s c number note served ((id, o) :: rest)
  refine advances_turn [.called (some number) id note] hm rfl ?_ (fun t ht => ?_)
    (fun x => by simp) (View.Step.call (v := (Machine.mk w c
      (.delivery s number note served ((id, o) :: rest) :: stack)).view s) hd rfl h)
  · rw [history_happen]
    simp [Event.on?]
  · rw [history_happen]
    simp [Event.on?, ht.symm]

/-- An observer that has been released while it was out loses its turn. -/
theorem advances_skip {s number id : Nat} {note : Notification} {o : Observer Program}
    {served rest : List (Nat × Observer Program)}
    (hm : (Machine.mk w c (.delivery s number note served ((id, o) :: rest) :: stack)).Sound)
    (h : (w.subject s).isDetached id = true) :
    Advances ⟨w, c, .delivery s number note served ((id, o) :: rest) :: stack⟩
      ⟨w, .finished, .delivery s number note (served ++ [(id, o)]) rest :: stack⟩ := by
  have hd := deliveries_cons_self w stack s c number note served ((id, o) :: rest)
  have hstep := View.Step.skip (v := (Machine.mk w c
    (.delivery s number note served ((id, o) :: rest) :: stack)).view s) hd rfl h
  refine advances_turn [] hm rfl (List.append_nil _).symm (fun t ht => rfl)
    (fun x => List.not_mem_nil) ?_
  rw [List.append_nil]
  exact hstep

/-- A delivery ends. -/
theorem advances_finish {s number : Nat} {note : Notification}
    {served : List (Nat × Observer Program)} (a : Answer)
    (hm : (Machine.mk w c (.delivery s number note served [] :: stack)).Sound) :
    Advances ⟨w, c, .delivery s number note served [] :: stack⟩
      ⟨w.setSubject s ((w.subject s).finish note.isTerminal served), .answer a, stack⟩ := by
  have hd := deliveries_cons_self w stack s c number note served []
  have hs : s < w.subjects.length := hm.delivering s (by simp [hd])
  refine Spares.advances_of_countP_le (s := s) ?_ hm hs ?_ (fun p => ?_) fun id hid => hid
  · exact ⟨fun t ht => w.subject_setSubject_of_ne ht _,
      fun t ht => (deliveries_cons_of_ne ht _ _ _ _ _).symm, fun _ _ => rfl, rfl,
      w.length_setSubject s _⟩
  · exact step_view (View.Step.finish (v := (Machine.mk w c
      (.delivery s number note served [] :: stack)).view s) hd rfl)
      (World.subject_setSubject hs _) rfl rfl rfl
  · have hw : (w.setSubject s ((w.subject s).finish note.isTerminal served)).handles =
      w.handles := rfl
    rw [countP_handles, countP_handles, hw]
    simp [Control.handles, Frame.handles]

/-- An observer subscribes, and there is a handle for it. -/
theorem advances_subscribe {s : Nat} {o : Observer Program} {w' : World} {c' : Control}
    {stack' : List Frame} (hm : (Machine.mk w c stack).Sound) (hs : s < w.subjects.length)
    (hv : ((Machine.mk w c stack).view s).Reachable)
    (hw : { ((w.setSubject s ((w.subject s).subscribe o).2).newHandle
      (.subscription s (w.subject s).nextId)).2 with events := w'.events } = w')
    (hother : ∀ t, t ≠ s → w'.history t = w.history t)
    (hreleased : ∀ x, .released x ∈ w'.history s → .released x ∈ w.history s)
    (hd : ∀ t, stack'.filterMap (Frame.delivery? t) = stack.filterMap (Frame.delivery? t))
    (hh : ∀ p : Handle → Bool, c'.handles.countP p + (stack'.flatMap Frame.handles).countP p =
      [⟨w.handleCount, .subscription s (w.subject s).nextId, false⟩].countP p +
        (stack.flatMap Frame.handles).countP p)
    (hstep : ((Machine.mk w c stack).view s).Step ⟨((w.subject s).subscribe o).2,
      (Machine.mk w c stack).deliveries s, w'.history s, w.deliveryCount + 1⟩) :
    Advances ⟨w, c, stack⟩ ⟨w', c', stack'⟩ := by
  have hsubjects : w'.subjects = (w.setSubject s ((w.subject s).subscribe o).2).subjects := by
    rw [← hw]; rfl
  have hsubject (t : Nat) : w'.subject t =
      (w.setSubject s ((w.subject s).subscribe o).2).subject t := by
    rw [World.subject, World.subject, hsubjects]
  have hself : w'.subject s = ((w.subject s).subscribe o).2 := by
    rw [hsubject, World.subject_setSubject hs]
  have hview : ((Machine.mk w c stack).view s).Step ((Machine.mk w' c' stack').view s) := by
    refine step_view hstep hself (hd s) rfl ?_
    change w'.deliveryCount + 1 = w.deliveryCount + 1
    rw [← hw]; rfl
  have hspares : Spares s ⟨w, c, stack⟩ ⟨w', c', stack'⟩ := by
    refine ⟨fun t ht => ?_, fun t _ => hd t, hother, ?_, ?_⟩
    · exact (hsubject t).trans (w.subject_setSubject_of_ne ht _)
    · change w'.subjectNames = w.subjectNames
      rw [← hw]; rfl
    · exact (congrArg List.length hsubjects).trans (w.length_setSubject s _)
  refine hspares.advances hm hs hview fun t x hpos => ?_
  have hhandles : w'.handles = w.handles := by rw [← hw]; rfl
  have hcount := hh (Handle.isFor t x)
  have hold := hm.live t x
  rw [countP_handles] at hold
  rw [countP_handles, hhandles] at hpos ⊢
  by_cases hx : s = t ∧ (w.subject s).nextId = x
  · obtain ⟨rfl, rfl⟩ := hx
    -- No handle could be for an observer that has not subscribed.
    have hzero : c.handles.countP (Handle.isFor s (w.subject s).nextId) +
        ((stack.flatMap Frame.handles).countP (Handle.isFor s (w.subject s).nextId) +
          w.handles.countP (Handle.isFor s (w.subject s).nextId)) = 0 := by
      refine Nat.eq_zero_of_not_pos fun h => ?_
      exact Nat.lt_irrefl _ (hold h).2.2.1
    have hnew : [Handle.mk w.handleCount (.subscription s (w.subject s).nextId) false].countP
        (Handle.isFor s (w.subject s).nextId) = 1 := by
      simp [Handle.isFor_subscription]
    refine ⟨by omega, hs, ?_, fun hr => ?_⟩
    · change (w.subject s).nextId < (w'.subject s).nextId
      rw [hself]
      exact Nat.lt_succ_self _
    · exact Nat.lt_irrefl _ (hv.history_lt _ (hreleased _ hr))
  · have hnew : [Handle.mk w.handleCount (.subscription s (w.subject s).nextId) false].countP
        (Handle.isFor t x) = 0 := by
      simpa [Handle.isFor_subscription] using hx
    obtain ⟨hone, ht, hlt, hr⟩ := hold (by omega)
    refine ⟨by omega, ht, ?_⟩
    by_cases hts : t = s
    · subst hts
      exact ⟨Nat.lt_of_lt_of_le hlt hview.nextId_le, fun h => hr (hreleased x h)⟩
    · rw [hspares.view hts]
      exact ⟨hlt, hr⟩

theorem view_release {s : Nat} (c : Control) (stack : List Frame) (id : Nat)
    (hs : s < w.subjects.length) :
    (Machine.mk ((w.setSubject s ((w.subject s).detach id)).happen (.detached s id)) c
      stack).view s = ⟨(w.subject s).detach id, (Machine.mk w c stack).deliveries s,
        w.history s ++ [.released id], w.deliveryCount + 1⟩ := by
  have hsubject : (w.setSubject s ((w.subject s).detach id)).subject s =
      (w.subject s).detach id := World.subject_setSubject hs _
  have hhistory : ((w.setSubject s ((w.subject s).detach id)).happen (.detached s id)).history s =
      w.history s ++ [.released id] := by
    rw [history_happen]
    simp [Event.on?, World.history, World.setSubject]
  rw [view, hhistory]
  exact congrArg (View.mk · _ _ _) hsubject

/-- The subscription of an observer is released. -/
theorem advances_release {s id number : Nat}
    (hm : (Machine.mk w (.invoke ⟨number, .subscription s id, false⟩) stack).Sound) :
    Advances ⟨w, .invoke ⟨number, .subscription s id, false⟩, stack⟩
      ⟨(w.setSubject s ((w.subject s).detach id)).happen (.detached s id),
        .released ⟨number, .subscription s id, true⟩ none, stack⟩ := by
  have hself : [Handle.mk number (.subscription s id) false].countP (Handle.isFor s id) = 1 := by
    simp [Handle.isFor_subscription]
  have hlive := hm.live
  simp only [countP_handles, Control.handles] at hlive
  obtain ⟨-, hs, hid, hr⟩ := hlive s id (by omega)
  have hafter := view_release (.released ⟨number, .subscription s id, true⟩ none) stack id hs
  have hspares : Spares s ⟨w, .invoke ⟨number, .subscription s id, false⟩, stack⟩
      ⟨(w.setSubject s ((w.subject s).detach id)).happen (.detached s id),
        .released ⟨number, .subscription s id, true⟩ none, stack⟩ := by
    refine ⟨fun t ht => w.subject_setSubject_of_ne ht _, fun t ht => rfl, fun t ht => ?_, rfl,
      w.length_setSubject s _⟩
    rw [history_happen]
    simp [Event.on?, World.history, World.setSubject, ht.symm]
  have hview : ((Machine.mk w (.invoke ⟨number, .subscription s id, false⟩) stack).view s).Step
      ((Machine.mk ((w.setSubject s ((w.subject s).detach id)).happen (.detached s id))
        (.released ⟨number, .subscription s id, true⟩ none) stack).view s) := by
    rw [hafter]
    exact View.Step.release (v := (Machine.mk w
      (.invoke ⟨number, .subscription s id, false⟩) stack).view s) id hid hr
  refine hspares.advances hm hs hview fun t x hpos => ?_
  have hhandles : ((w.setSubject s ((w.subject s).detach id)).happen (.detached s id)).handles =
      w.handles := rfl
  have hspent : [Handle.mk number (.subscription s id) true].countP (Handle.isFor t x) = 0 := by
    simp [Handle.isFor]
  rw [countP_handles, hhandles] at hpos ⊢
  simp only [Control.handles] at hpos ⊢
  obtain ⟨hone, ht, hlt, hr'⟩ := hlive t x (by omega)
  by_cases hts : t = s
  · subst hts
    have hx : x ≠ id := by
      rintro rfl
      omega
    refine ⟨by omega, ht, Nat.lt_of_lt_of_le hlt hview.nextId_le, fun h => hr' ?_⟩
    rw [hafter] at h
    rcases List.mem_append.mp h with h | h
    · exact h
    · exact absurd (Happening.released.inj (List.mem_singleton.mp h)) hx
  · rw [hspares.view hts]
    exact ⟨by omega, ht, hlt, hr'⟩

theorem advances_deliver (name : String) (note : Notification)
    (hm : (Machine.mk w c stack).Sound) :
    Advances ⟨w, c, stack⟩ (deliver w name note stack) := by
  unfold deliver
  split
  · exact (quiet_failed w c stack _).advances hm
  · rename_i s hs
    split
    · exact (quiet_answered w c stack _).advances hm
    · rename_i out subject h
      exact advances_begin hm (hm.named _ (mem_of_lookup hs)) h

theorem advances_step_subscribe (subject : String) (o : Observer Program) (name : String)
    (registry : Option String) (hm : (Machine.mk w c stack).Sound)
    (hv : ∀ s, ((Machine.mk w c stack).view s).Reachable) :
    Advances ⟨w, c, stack⟩ (subscribe w subject o name registry stack) := by
  unfold subscribe
  split
  · exact (quiet_failed w c stack _).advances hm
  · rename_i s hs
    have hs' : s < w.subjects.length := hm.named _ (mem_of_lookup hs)
    split
    · exact (quiet_failed w c stack _).advances hm
    · rename_i owner _
      dsimp only
      split
      · rename_i hclosed
        have hclosed : (w.subject s).closed = true := hclosed
        refine Advances.quiet ?_ (quiet_startProgram _ .finished _ _)
        refine advances_subscribe (o := o) hm hs' (hv s) rfl (fun t ht => ?_) (fun x hx => ?_)
          (fun t => List.filterMap_cons_none rfl) (fun p => ?_) ?_
        · rw [history_happen]
          simp [Event.on?, ht.symm, World.history, World.newHandle, World.setSubject]
        · rw [history_happen] at hx
          simpa [Event.on?, World.history, World.newHandle, World.setSubject] using hx
        · simp only [Control.handles, List.countP_nil, Nat.zero_add, List.flatMap_cons,
            List.countP_append]
          rfl
        · have hstep := View.Step.late (v := (Machine.mk w c stack).view s) o hclosed
          rw [history_happen]
          simp only [Event.on?, if_true, Option.toList_some]
          exact hstep
      · rename_i hopen
        have hopen : (w.subject s).closed = false := eq_false_of_ne_true hopen
        refine Advances.quiet ?_ (quiet_store _ stack owner name _ none)
        refine advances_subscribe (o := o) hm hs' (hv s) rfl (fun t _ => rfl) (fun x hx => hx)
          (fun t => rfl) (fun p => ?_) ?_
        · simp [Control.handles, World.newHandle, World.setSubject, Subject.subscribe]
        · exact View.Step.subscribe (v := (Machine.mk w c stack).view s) o hopen

theorem advances_runStep (s : Step) (hm : (Machine.mk w c stack).Sound)
    (hv : ∀ s, ((Machine.mk w c stack).view s).Reachable) :
    Advances ⟨w, c, stack⟩ (runStep w s stack) := by
  cases s with
  | registry name => exact (quiet_newRegistry w c stack name).advances hm
  | dropRegistry name => exact (quiet_dropRegistry w c stack name).advances hm
  | acquire registry t =>
    exact (quiet_withRegistry w c stack registry fun r =>
      quiet_storeNew w c stack _ _ _).advances hm
  | release handle registry => exact (quiet_release w c stack handle registry).advances hm
  | releaseAll name | onDestroy name =>
    exact (quiet_withRegistry w c stack name fun r => quiet_drain w c stack r _).advances hm
  | shutdownGlobal => exact (quiet_drain w c stack _ _).advances hm
  | inspect name =>
    exact (quiet_withRegistry w c stack name fun r => quiet_answered w c stack _).advances hm
  | scope name body =>
    exact (quiet_withRegistry w c stack name fun r => quiet_scopeOn w c stack r _ _).advances hm
  | hold t => exact (quiet_storeNew w c stack none _ t).advances hm
  | releaseHandle name => exact (quiet_releaseHandle w c stack name).advances hm
  | trackHandle name registry => exact (quiet_trackHandle w c stack name registry).advances hm
  | subject name cloneOf => exact (quiet_newSubject w c stack name cloneOf).advances hm
  | dropSubject name => exact (quiet_dropSubject w c stack name).advances hm
  | subscribe subject o name registry => exact advances_step_subscribe subject o name registry hm hv
  | replay values sourceError o t name registry =>
    simp only [runStep]
    split
    · exact (quiet_failed w c stack _).advances hm
    · exact (quiet_replayOn w c stack _ _ _ _ _).advances hm
  | next subject value => exact advances_deliver _ _ hm
  | error subject message => exact advances_deliver _ _ hm
  | complete subject => exact advances_deliver _ _ hm
  | observer o => exact (quiet_answered w c stack _).advances hm

theorem advances_invoke (h : Handle) (hm : (Machine.mk w (.invoke h) stack).Sound) :
    Advances ⟨w, .invoke h, stack⟩ (invoke w h stack) := by
  obtain ⟨number, resource, spent⟩ := h
  cases spent with
  | true => exact (quiet_invoke w stack _ (.inl rfl)).advances hm
  | false =>
    cases resource with
    | teardown t => exact (quiet_invoke w stack _ (.inr ⟨t, rfl⟩)).advances hm
    | subscription s id => exact advances_release hm

theorem advances_deliverOn {s number : Nat} {note : Notification}
    {served waiting : List (Nat × Observer Program)}
    (hm : (Machine.mk w c (.delivery s number note served waiting :: stack)).Sound) :
    Advances ⟨w, c, .delivery s number note served waiting :: stack⟩
      (deliverOn w s number note served waiting stack) := by
  cases waiting with
  | nil => exact advances_finish .nothing hm
  | cons p rest =>
    obtain ⟨id, o⟩ := p
    simp only [deliverOn]
    split
    · rename_i h
      exact advances_skip hm h
    · rename_i h
      exact (advances_call _ hm (eq_false_of_ne_true h)).quiet
        (quiet_startProgram _ .finished _ _)

/-- A move is a step of every subject. -/
theorem advances_move {m m' : Machine} (hm : m.Sound) (hn : m.WellNested)
    (hv : ∀ s, (m.view s).Reachable) (h : m.move = some m') : Advances m m' := by
  obtain ⟨w, c, stack⟩ := m
  cases c with
  | run s =>
    cases h
    exact advances_runStep s hm hv
  | invoke x =>
    cases h
    exact advances_invoke x hm
  | leave r a =>
    cases h
    exact (quiet_leave w _ stack r a).advances hm
  | answer a =>
    cases stack with
    | nil => cases h
    | cons f stack =>
      cases h
      exact (quiet_afterAnswer w _ stack a f hn.1).advances hm
  | finished =>
    cases stack with
    | nil => cases h
    | cons f stack =>
      cases h
      cases f with
      | delivery s number note served waiting => exact advances_deliverOn hm
      | program | teardown | subscribing | replaying | releasing | holding | draining | scope =>
        exact (quiet_afterCallback w stack _ hn.1 fun _ => rfl).advances hm
  | released x e =>
    cases stack with
    | nil => cases h
    | cons f stack =>
      cases h
      exact (quiet_afterRelease w stack x e f hn.1).advances hm

/-- A run goes on where nothing is left to do. -/
theorem quiet_step {m : Machine} (h : m.move = none) (s : Step) :
    Quiet m ⟨m.world, .run s, []⟩ := by
  obtain ⟨w, c, stack⟩ := m
  obtain rfl := stack_of_move_eq_none h
  exact quiet_of_countP_le w _ _ (fun _ => rfl) fun p => by simp [Control.handles]

/-- What a run keeps, so that every subject takes steps of its own. -/
structure Regular (m : Machine) : Prop where
  sound : m.Sound
  nested : m.WellNested
  view : ∀ s, (m.view s).Reachable

theorem Regular.next {m m' : Machine} (hm : m.Regular) (h : Next m m') :
    Advances m m' ∧ m'.WellNested := by
  cases h with
  | move h => exact ⟨advances_move hm.sound hm.nested hm.view h, hm.nested.move h⟩
  | step h s => exact ⟨(quiet_step h s).advances hm.sound, rfl⟩

theorem Reachable.regular {m : Machine} (hm : m.Reachable) : m.Regular := by
  have hidle : idle.Regular := by
    refine ⟨⟨fun q hq => ?_, fun t ht => ?_, fun t id hpos => ?_⟩, rfl, fun t => .refl⟩
    · cases hq
    · exact absurd rfl ht
    · exact absurd hpos (Nat.lt_irrefl _)
  refine hm.invariant hidle fun m m' hm h => ?_
  obtain ⟨hadv, hn⟩ := hm.next h
  exact ⟨hadv.sound, hn, fun s => (hm.view s).step (hadv.step s)⟩

/-- Every subject has a view of its own on a run. -/
theorem Reachable.view {m : Machine} (hm : m.Reachable) (s : Nat) : (m.view s).Reachable :=
  hm.regular.view s

theorem Reachable.view_step {m m' : Machine} (hm : m.Reachable) (h : Next m m') (s : Nat) :
    (m.view s).Step (m'.view s) :=
  (hm.regular.next h).1.step s

theorem Reachable.view_later {m m' : Machine} (hm : m.Reachable) (h : Later m m') (s : Nat) :
    Relation.ReflTransGen View.Step (m.view s) (m'.view s) := by
  induction h with
  | refl => exact .refl
  | tail h hn ih => exact ih.tail ((hm.later h).view_step hn s)

theorem history_grows_of_later {m m' : Machine} (hm : m.Reachable) (h : Later m m') (s : Nat) :
    (m.view s).history <+: (m'.view s).history := by
  induction h with
  | refl => exact List.prefix_rfl
  | tail hlater hnext ih =>
    exact ih.trans ((hm.later hlater).view_step hnext s).history_grows

theorem nextId_le_of_later {m m' : Machine} (hm : m.Reachable) (h : Later m m') (s : Nat) :
    (m.view s).subject.nextId ≤ (m'.view s).subject.nextId := by
  induction h with
  | refl => exact Nat.le_refl _
  | tail hlater hnext ih =>
    exact Nat.le_trans ih ((hm.later hlater).view_step hnext s).nextId_le

def tell (subject : String) : Notification → Step
  | .next value => .next subject value
  | .error message => .error subject message
  | .complete => .complete subject

/-- A call on an open subject begins a delivery to all observers at home. -/
theorem Reachable.view_told {m m₁ : Machine} {s : Nat} {name : String} {note : Notification}
    (hm : m.Reachable) (hc : m.control = .run (tell name note))
    (hs : m.world.subjectNames.lookup name = some s) (hopen : (m.world.subject s).closed = false)
    (hmove : m.move = some m₁) :
    m₁.view s = ⟨{ (m.view s).subject with observers := [], closed := note.isTerminal },
      ⟨(m.view s).next, note, [], (m.view s).subject.observers⟩ :: (m.view s).deliveries,
      (m.view s).history, (m.view s).next + 1⟩ := by
  have hlt : s < m.world.subjects.length := hm.regular.sound.named _ (mem_of_lookup hs)
  obtain ⟨w, c, stack⟩ := m
  subst hc
  have hdeliver : runStep w (tell name note) stack = deliver w name note stack := by
    cases note <;> rfl
  have hb : (w.subject s).begin? note.isTerminal = some ((w.subject s).observers,
      { w.subject s with observers := [], closed := note.isTerminal }) := by
    simp [Subject.begin?, hopen]
  obtain rfl := Option.some.inj hmove
  change (runStep w (tell name note) stack).view s = _
  rw [hdeliver]
  simp only [deliver, hs, hb, Machine.view, deliveries_cons_self]
  congr 1
  exact World.subject_setSubject hlt _

end Subscriptions.Tracker.Machine
