import Subscriptions.Proofs.Tracker.Handles
import Subscriptions.Proofs.Tracker.Nesting
import Subscriptions.Proofs.Tracker.View

namespace Subscriptions.Tracker.Machine

/-- Something in which no subject takes part, and which brings no handle of a subject. -/
structure Quiet (m m' : Machine) : Prop where
  view : ∀ s, m'.view s = m.view s
  tally : ∀ T, m'.tally T ≤ m.tally T
  named : ∀ q ∈ m'.world.subjectNames,
    (∃ q' ∈ m.world.subjectNames, q'.2 = q.2) ∨ q.2 < m'.world.subjects.length
  subjects : m.world.subjects.length ≤ m'.world.subjects.length

theorem Quiet.trans {a b d : Machine} (h : Quiet a b) (h' : Quiet b d) : Quiet a d where
  view s := (h'.view s).trans (h.view s)
  tally T := Nat.le_trans (h'.tally T) (h.tally T)
  named q hq := by
    rcases h'.named q hq with ⟨q', hq', he⟩ | hq
    · rcases h.named q' hq' with ⟨q'', hq'', he'⟩ | hq'
      · exact .inl ⟨q'', hq'', he'.trans he⟩
      · exact .inr (he ▸ Nat.lt_of_lt_of_le hq' h'.subjects)
    · exact .inr hq
  subjects := Nat.le_trans h.subjects h'.subjects

theorem Quiet.handles {m m' : Machine} (h : Quiet m m') (s id : Nat) :
    m'.handles.countP (Handle.isFor s id) ≤ m.handles.countP (Handle.isFor s id) :=
  h.tally (Tally.observer s id)

theorem countP_handles (w : World) (c : Control) (stack : List Frame) (p : Handle → Bool) :
    (Machine.mk w c stack).handles.countP p =
      c.handles.countP p + ((stack.flatMap Frame.handles).countP p + w.handles.countP p) := by
  simp [handles]

/-- What no handle is made in counts no more than before, unless handles come from elsewhere. -/
theorem tally_le_of_countP_le {m m' : Machine} (hk : m'.world.handleCount = m.world.handleCount)
    (hh : ∀ p : Handle → Bool, m'.handles.countP p ≤ m.handles.countP p) (T : Tally) :
    m'.tally T ≤ m.tally T := by
  rw [tally, tally, hk]
  exact Nat.add_le_add_right (hh T.counts) _

variable (w : World) (c : Control) (stack : List Frame)

/-- Only what runs next and what is left to do changes. -/
theorem quiet_of_countP_le {c : Control} {stack : List Frame} (c' : Control) (stack' : List Frame)
    (hd : ∀ s, stack'.filterMap (Frame.delivery? s) = stack.filterMap (Frame.delivery? s))
    (hh : ∀ p : Handle → Bool, c'.handles.countP p + (stack'.flatMap Frame.handles).countP p ≤
      c.handles.countP p + (stack.flatMap Frame.handles).countP p) :
    Quiet ⟨w, c, stack⟩ ⟨w, c', stack'⟩ where
  view s := by simp only [view, deliveries, hd]
  tally := tally_le_of_countP_le rfl fun p => by
    have h := hh p
    rw [countP_handles, countP_handles]
    omega
  named q hq := .inl ⟨q, hq, rfl⟩
  subjects := Nat.le_refl _

/-- Only the handles change. -/
theorem quiet_of_world {w w' : World} {c c' : Control} {stack stack' : List Frame}
    (hs : w'.subjects = w.subjects) (hn : w'.subjectNames = w.subjectNames)
    (he : ∀ s, w'.history s = w.history s) (hc : w'.deliveryCount = w.deliveryCount)
    (hd : ∀ s, stack'.filterMap (Frame.delivery? s) = stack.filterMap (Frame.delivery? s))
    (hk : w'.handleCount = w.handleCount)
    (hh : ∀ p : Handle → Bool, (Machine.mk w' c' stack').handles.countP p ≤
      (Machine.mk w c stack).handles.countP p) :
    Quiet ⟨w, c, stack⟩ ⟨w', c', stack'⟩ where
  view s := by
    have hw : w'.subject s = w.subject s := by rw [World.subject, World.subject, hs]
    simp only [view, deliveries, hd, hw, he, hc]
  tally := tally_le_of_countP_le hk hh
  named q hq := .inl ⟨q, hn ▸ hq, rfl⟩
  subjects := Nat.le_of_eq (congrArg List.length hs).symm

theorem quiet_answered (a : Answer) : Quiet ⟨w, c, stack⟩ (answered w a stack) :=
  quiet_of_countP_le w _ _ (fun _ => rfl) fun p => by simp [Control.handles]

theorem quiet_failed (e : StepError) : Quiet ⟨w, c, stack⟩ (failed w e stack) :=
  quiet_answered w c stack _

/-- A frame other than a delivery is done. -/
theorem quiet_pop (f : Frame) (hf : ∀ s, f.delivery? s = none) :
    Quiet ⟨w, c, f :: stack⟩ ⟨w, c, stack⟩ :=
  quiet_of_countP_le w _ _ (fun s => by simp [hf]) fun p => by simp

/-- A frame with one handle is done, and its handle goes on. -/
theorem quiet_take (h : Handle) (e : Option ReleaseError) (f : Frame)
    (hf : ∀ s, f.delivery? s = none) (hh : f.handles = [h]) :
    Quiet ⟨w, .finished, f :: stack⟩ ⟨w, .released h e, stack⟩ :=
  quiet_of_countP_le w _ _ (fun s => by simp [hf]) fun p => by
    simp [Control.handles, hh, List.countP_cons, Nat.add_comm]

theorem quiet_happen (e : Event) (he : ∀ s, e.on? s = none) :
    Quiet ⟨w, c, stack⟩ ⟨w.happen e, c, stack⟩ := by
  refine quiet_of_world rfl rfl (fun s => ?_) rfl (fun _ => rfl) rfl fun p => Nat.le_refl _
  simp [World.history, World.happen, he]

theorem quiet_startProgram (p : Program) : Quiet ⟨w, c, stack⟩ (startProgram w p stack) := by
  cases p with
  | nil => exact quiet_of_countP_le w _ _ (fun _ => rfl) fun p => by simp [Control.handles]
  | cons s rest =>
    exact quiet_of_countP_le w _ _ (fun _ => List.filterMap_cons_none rfl) fun p => by
      simp [Control.handles, Frame.handles]

theorem quiet_hold (name : String) (h : Handle) (e : Option ReleaseError) (a : Answer) :
    Quiet ⟨w, .released h e, stack⟩ (answered (w.hold name h) a stack) := by
  refine quiet_of_world rfl rfl (fun _ => rfl) rfl (fun _ => rfl) rfl fun p => ?_
  have hle := w.countP_hold_le name h p
  rw [countP_handles, countP_handles]
  simp only [Control.handles, List.countP_nil]
  omega

/-- A handle that has just been made or taken goes to its place. -/
theorem quiet_store (owner : Option Owner) (name : String) (h : Handle)
    (e : Option ReleaseError) :
    Quiet ⟨w, .released h e, stack⟩ (store w owner name h stack) := by
  cases owner with
  | none => exact quiet_hold w stack name h e _
  | some o =>
    change Quiet _ ⟨(w.track o.number o.name name h).2,
      .leave o.number (w.track o.number o.name name h).1, stack⟩
    refine quiet_of_world rfl rfl (fun _ => rfl) rfl (fun _ => rfl) rfl fun p => ?_
    have hle := w.countP_track_le o.number o.name name h p
    rw [countP_handles, countP_handles]
    simp only [Control.handles, List.countP_nil]
    omega

/-- A new handle that is for no observer. -/
theorem quiet_newHandle (t : Teardown Program) :
    Quiet ⟨w, c, stack⟩ ⟨(w.newHandle (.teardown t)).2,
      .released (w.newHandle (.teardown t)).1 none, stack⟩ where
  view _ := rfl
  tally T := by
    have hmade := T.made w.handleCount t
    have hw : (w.newHandle (.teardown t)).2.handles = w.handles := rfl
    rw [tally, tally, countP_handles, countP_handles, hw]
    simp only [Control.handles, World.newHandle]
    omega
  named q hq := .inl ⟨q, hq, rfl⟩
  subjects := Nat.le_refl _

theorem quiet_drained (r : Nat) (report : ReleaseReport) (purpose : DrainPurpose) :
    Quiet ⟨w, c, stack⟩ (drained w r report purpose stack) := by
  cases purpose <;>
    exact quiet_of_countP_le w _ _ (fun _ => rfl) fun p => by simp [Control.handles]

theorem quiet_drain (r : Nat) (purpose : DrainPurpose) :
    Quiet ⟨w, c, stack⟩ (drain w r purpose stack) := by
  have hle (p : Handle → Bool) := w.countP_drain_le r p
  cases hr : (w.registry r).handles with
  | nil =>
    rw [drain_of_nil hr]
    refine quiet_of_world rfl rfl (fun _ => rfl) rfl (fun _ => List.filterMap_cons_none rfl)
      rfl fun p => ?_
    have h := hle p
    rw [countP_handles, countP_handles]
    simp only [List.flatMap_cons, List.countP_append, Frame.handles, Control.handles,
      List.countP_nil]
    omega
  | cons h rest =>
    rw [drain_of_cons hr]
    refine quiet_of_world rfl rfl (fun _ => rfl) rfl (fun _ => List.filterMap_cons_none rfl)
      rfl fun p => ?_
    have hle := hle p
    rw [hr, ← List.singleton_append, List.countP_append] at hle
    rw [countP_handles, countP_handles]
    simp only [List.flatMap_cons, List.countP_append, Frame.handles, Control.handles]
    omega

theorem quiet_withRegistry (name : String) {f : Nat → Machine}
    (hf : ∀ r, Quiet ⟨w, c, stack⟩ (f r)) :
    Quiet ⟨w, c, stack⟩ (withRegistry w name stack f) := by
  unfold withRegistry
  split
  · exact quiet_failed w c stack _
  · exact hf _

theorem quiet_newRegistry (name : String) :
    Quiet ⟨w, c, stack⟩ (newRegistry w name stack) := by
  have hh (p : Handle → Bool) (names : List (String × Nat)) :
      ({ w with registries := w.registries ++ [.empty], registryNames := names } :
        World).handles.countP p = w.handles.countP p := by
    simp [World.handles, Registry.empty, Registry.handles]
  simp only [newRegistry]
  split
  all_goals
    refine quiet_of_world rfl rfl (fun _ => rfl) rfl (fun _ => rfl) rfl fun p => ?_
    rw [countP_handles, countP_handles, hh]
    simp [Control.handles]

theorem quiet_dropRegistry (name : String) :
    Quiet ⟨w, c, stack⟩ (dropRegistry w name stack) := by
  unfold dropRegistry
  split
  · exact quiet_answered w c stack _
  · refine quiet_of_world rfl rfl (fun _ => rfl) rfl (fun _ => rfl) rfl fun p => ?_
    have hw (names : List (String × Nat)) :
        ({ w with registryNames := names } : World).handles = w.handles := rfl
    rw [countP_handles, countP_handles, hw]
    simp [Control.handles]

theorem quiet_release (handle : String) (registry : Option String) :
    Quiet ⟨w, c, stack⟩ (release w handle registry stack) := by
  unfold release
  split
  · exact quiet_failed w c stack _
  · rename_i acquisition _
    refine quiet_withRegistry w c stack _ fun r => ?_
    split
    · exact quiet_answered w c stack _
    · rename_i h hh
      refine quiet_of_world rfl rfl (fun _ => rfl) rfl (fun _ => List.filterMap_cons_none rfl)
        rfl fun p => ?_
      have hset := w.countP_setRegistry r ((w.registry r).clear acquisition.id)
        p
      have hclear := Registry.countP_handles_clear hh p
      rw [countP_handles, countP_handles]
      simp only [List.flatMap_cons, List.countP_append, Frame.handles, Control.handles,
        List.countP_nil]
      omega

theorem quiet_releaseHandle (name : String) :
    Quiet ⟨w, c, stack⟩ (releaseHandle w name stack) := by
  unfold releaseHandle
  split
  · exact quiet_failed w c stack _
  · rename_i h hh
    refine quiet_of_world rfl rfl (fun _ => rfl) rfl (fun _ => List.filterMap_cons_none rfl)
      rfl fun p => ?_
    have hle := World.countP_unhold_le hh p
    rw [countP_handles, countP_handles]
    simp only [List.flatMap_cons, List.countP_append, Frame.handles, Control.handles,
      List.countP_nil]
    omega

theorem quiet_trackHandle (name registry : String) :
    Quiet ⟨w, c, stack⟩ (trackHandle w name registry stack) := by
  refine quiet_withRegistry w c stack _ fun r => ?_
  split
  · exact quiet_failed w c stack _
  · rename_i h hh
    refine Quiet.trans (b := ⟨{ w with held := unbindName w.held name }, .released h none, stack⟩)
      ?_ (quiet_store _ _ _ _ _ _)
    refine quiet_of_world rfl rfl (fun _ => rfl) rfl (fun _ => rfl) rfl fun p => ?_
    have hle := World.countP_unhold_le hh p
    rw [countP_handles, countP_handles]
    simp only [Control.handles]
    omega

/-- A new subject is as if it had always been there, and nothing had happened to it. -/
theorem quiet_newSubject (name : String) (cloneOf : Option String) :
    Quiet ⟨w, c, stack⟩ (newSubject w name cloneOf stack) := by
  have hh (subjects : List (Subject (Observer Program))) (names : List (String × Nat)) :
      ({ w with subjects := subjects, subjectNames := names } : World).handles = w.handles := rfl
  unfold newSubject
  cases cloneOf with
  | none =>
    refine ⟨fun s => ?_, tally_le_of_countP_le rfl fun p => ?_, fun q hq => ?_, ?_⟩
    · exact congrArg (View.mk · _ _ _) (w.subject_append_empty _ s)
    · simp only [answered]
      rw [countP_handles, countP_handles, hh]
      simp [Control.handles]
    · rcases mem_bindName hq with hq | rfl
      · exact .inl ⟨q, hq, rfl⟩
      · right
        simp [answered]
    · simp [answered]
  | some known =>
    dsimp only
    split
    · exact quiet_failed w c stack _
    · rename_i t ht
      refine ⟨fun s => rfl, tally_le_of_countP_le rfl fun p => ?_, fun q hq => ?_,
        Nat.le_refl _⟩
      · have hw := hh w.subjects (bindName w.subjectNames name t)
        simp only [answered]
        rw [countP_handles, countP_handles, hw]
        simp [Control.handles]
      · rcases mem_bindName hq with hq | rfl
        · exact .inl ⟨q, hq, rfl⟩
        · exact .inl ⟨_, mem_of_lookup ht, rfl⟩

theorem quiet_dropSubject (name : String) :
    Quiet ⟨w, c, stack⟩ (dropSubject w name stack) := by
  refine ⟨fun s => rfl, tally_le_of_countP_le rfl fun p => ?_, fun q hq => ?_, Nat.le_refl _⟩
  · have hw : ({ w with subjectNames := unbindName w.subjectNames name } : World).handles =
      w.handles := rfl
    simp only [dropSubject, answered]
    rw [countP_handles, countP_handles, hw]
    simp [Control.handles]
  · exact .inl ⟨q, (List.mem_filter.mp hq).1, rfl⟩

theorem quiet_storeNew (owner : Option Owner) (name : String) (t : Teardown Program) :
    Quiet ⟨w, c, stack⟩ (store (w.newHandle (.teardown t)).2 owner name
      (w.newHandle (.teardown t)).1 stack) :=
  (quiet_newHandle w c stack t).trans (quiet_store _ _ _ _ _ _)

/-- A source that replays what it has is no subject. -/
theorem quiet_replayOn (owner : Option Owner) (name : String) (o : Observer Program)
    (t : Teardown Program) (notes : List Notification) :
    Quiet ⟨w, c, stack⟩ (replayOn w owner name o t notes stack) := by
  cases notes with
  | nil => exact quiet_storeNew w c stack owner name t
  | cons note rest =>
    refine Quiet.trans (b := ⟨w, .finished, .replaying owner name o t rest :: stack⟩) ?_ ?_
    · exact quiet_of_countP_le w _ _ (fun _ => List.filterMap_cons_none rfl) fun p => by
        simp [Control.handles, Frame.handles]
    · exact (quiet_happen w _ _ _ fun s => rfl).trans (quiet_startProgram _ _ _ _)

theorem quiet_scopeOn (r : Nat) (p : Program) (answers : List Answer) :
    Quiet ⟨w, c, stack⟩ (scopeOn w r p answers stack) := by
  cases p with
  | nil => exact quiet_drain w c stack r _
  | cons s rest =>
    exact quiet_of_countP_le w _ _ (fun _ => List.filterMap_cons_none rfl) fun p => by
      simp [Control.handles, Frame.handles]

theorem quiet_leave (r : Nat) (a : Answer) : Quiet ⟨w, c, stack⟩ (leave w r a stack) := by
  unfold leave
  split
  · exact quiet_answered w c stack a
  · exact quiet_drain w c stack r _

theorem quiet_afterAnswer (a : Answer) (f : Frame) (ht : f.takes .answer = true) :
    Quiet ⟨w, c, f :: stack⟩ (afterAnswer w a f stack) := by
  cases f with
  | program word rest =>
    exact (quiet_pop w c stack _ fun _ => rfl).trans
      ((quiet_happen w c stack _ fun _ => rfl).trans (quiet_startProgram _ _ _ _))
  | scope r rest answers =>
    exact (quiet_pop w c stack _ fun _ => rfl).trans (quiet_scopeOn w c stack _ _ _)
  | teardown | delivery | subscribing | replaying | releasing | holding | draining => cases ht

theorem quiet_afterRelease (h : Handle) (e : Option ReleaseError) (f : Frame)
    (ht : f.takes .release = true) :
    Quiet ⟨w, .released h e, f :: stack⟩ (afterRelease w h e f stack) := by
  cases f with
  | releasing r =>
    exact quiet_of_countP_le w _ _ (fun _ => (List.filterMap_cons_none rfl).symm) fun p => by
      simp [Control.handles, Frame.handles]
  | holding name =>
    exact (quiet_pop w _ stack _ fun _ => rfl).trans (quiet_hold w stack name h e _)
  | draining r waiting report purpose =>
    cases waiting with
    | nil =>
      exact (quiet_pop w _ stack _ fun _ => rfl).trans (quiet_drained w _ stack _ _ _)
    | cons next rest =>
      refine quiet_of_countP_le w _ _ (fun _ => ?_) fun p => ?_
      · rw [List.filterMap_cons_none rfl, List.filterMap_cons_none rfl]
      · simp only [List.flatMap_cons, List.countP_append, Frame.handles, Control.handles,
          List.countP_cons, List.countP_nil]
        omega
  | program | teardown | delivery | subscribing | replaying | scope => cases ht

/-- What comes after a callback of anything but a delivery. -/
theorem quiet_afterCallback (f : Frame) (ht : f.takes .callback = true)
    (hf : ∀ s, f.delivery? s = none) :
    Quiet ⟨w, .finished, f :: stack⟩ (afterCallback w f stack) := by
  cases f with
  | teardown h failure => exact quiet_take w stack h failure _ (fun _ => rfl) rfl
  | delivery s number note served waiting =>
    have h := hf s
    simp [Frame.delivery?] at h
  | subscribing owner name h =>
    exact (quiet_take w stack h none _ (fun _ => rfl) rfl).trans (quiet_store w stack owner name h _)
  | replaying owner name o t rest =>
    exact (quiet_pop w _ stack _ fun _ => rfl).trans (quiet_replayOn w _ stack _ _ _ _ _)
  | draining r waiting report purpose =>
    exact (quiet_pop w _ stack _ fun _ => rfl).trans (quiet_drained w _ stack _ _ _)
  | program | releasing | holding | scope => cases ht

/-- A spent handle is not released again, and a teardown detaches nobody. -/
theorem quiet_invoke (h : Handle) (hh : h.spent = true ∨ ∃ t, h.resource = .teardown t) :
    Quiet ⟨w, .invoke h, stack⟩ (invoke w h stack) := by
  obtain ⟨number, resource, spent⟩ := h
  unfold invoke
  split
  · exact quiet_of_countP_le w _ _ (fun _ => rfl) fun p => by simp [Control.handles]
  · rename_i hs
    obtain ⟨t, rfl⟩ := hh.resolve_left hs
    refine Quiet.trans (b := ⟨w, .finished, .teardown ⟨number, .teardown t, true⟩ t.failure :: stack⟩)
      ?_ ?_
    · refine ⟨fun s => ?_, fun T => ?_, fun q hq => .inl ⟨q, hq, rfl⟩, Nat.le_refl _⟩
      · simp only [view, deliveries, List.filterMap_cons_none (show Frame.delivery? s (.teardown
          ⟨number, .teardown t, true⟩ t.failure) = none from rfl)]
      · have hspent := T.countP_spent number (.teardown t) spent
        rw [tally, tally, countP_handles, countP_handles]
        simp only [List.flatMap_cons, List.countP_append, Frame.handles, Control.handles,
          List.countP_nil]
        omega
    · exact (quiet_happen w _ _ _ fun s => rfl).trans (quiet_startProgram _ _ _ _)

end Subscriptions.Tracker.Machine
