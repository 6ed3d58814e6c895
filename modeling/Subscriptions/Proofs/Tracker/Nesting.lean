import Subscriptions.Proofs.Tracker.Run

namespace Subscriptions.Tracker

/-- What comes back to a frame. -/
inductive Outlet
  | answer
  | callback
  | release
deriving DecidableEq

def Control.outlet : Control → Outlet
  | .run _ | .answer _ | .leave .. => .answer
  | .finished => .callback
  | .invoke _ | .released .. => .release

def Frame.outlet : Frame → Outlet
  | .program .. => .callback
  | .teardown .. => .release
  | .delivery .. | .subscribing .. | .replaying .. | .releasing _ | .holding _ | .draining ..
  | .scope .. => .answer

/-- What a frame waits for. A drain of no handles goes on as if a callback were done. -/
def Frame.takes : Frame → Outlet → Bool
  | .program .., o | .scope .., o => o == .answer
  | .teardown .., o | .delivery .., o | .subscribing .., o | .replaying .., o => o == .callback
  | .releasing _, o | .holding _, o => o == .release
  | .draining .., o => o != .answer

/-- Each frame waits for what the one above it comes to. -/
def Nested : Outlet → List Frame → Prop
  | o, [] => o = .answer
  | o, f :: stack => f.takes o = true ∧ Nested f.outlet stack

namespace Machine

variable {w : World} {stack : List Frame}

def WellNested (m : Machine) : Prop := Nested m.control.outlet m.stack

theorem wellNested_startProgram (p : Program) (h : Nested .callback stack) :
    (startProgram w p stack).WellNested := by
  cases p with
  | nil => exact h
  | cons s rest => exact ⟨rfl, h⟩

theorem wellNested_drained (r : Nat) (report : ReleaseReport) (purpose : DrainPurpose)
    (h : Nested .answer stack) : (drained w r report purpose stack).WellNested := by
  cases purpose <;> exact h

theorem wellNested_drain (r : Nat) (purpose : DrainPurpose) (h : Nested .answer stack) :
    (drain w r purpose stack).WellNested := by
  cases hr : (w.registry r).handles with
  | nil => rw [drain_of_nil hr]; exact ⟨rfl, h⟩
  | cons x rest => rw [drain_of_cons hr]; exact ⟨rfl, h⟩

theorem wellNested_store (owner : Option Owner) (name : String) (x : Handle)
    (h : Nested .answer stack) : (store w owner name x stack).WellNested := by
  cases owner <;> exact h

theorem wellNested_withRegistry (name : String) {f : Nat → Machine} (h : Nested .answer stack)
    (hf : ∀ r, (f r).WellNested) : (withRegistry w name stack f).WellNested := by
  unfold withRegistry
  split
  · exact h
  · exact hf _

theorem wellNested_deliver (name : String) (note : Notification) (h : Nested .answer stack) :
    (deliver w name note stack).WellNested := by
  unfold deliver
  repeat' split
  · exact h
  · exact h
  · exact ⟨rfl, h⟩

theorem wellNested_newRegistry (name : String) (h : Nested .answer stack) :
    (newRegistry w name stack).WellNested := by
  simp only [newRegistry]
  split <;> exact h

theorem wellNested_dropRegistry (name : String) (h : Nested .answer stack) :
    (dropRegistry w name stack).WellNested := by
  unfold dropRegistry
  split <;> exact h

theorem wellNested_release (handle : String) (registry : Option String)
    (h : Nested .answer stack) : (release w handle registry stack).WellNested := by
  unfold release
  split
  · exact h
  · refine wellNested_withRegistry _ h fun r => ?_
    split
    · exact h
    · exact ⟨rfl, h⟩

theorem wellNested_releaseHandle (name : String) (h : Nested .answer stack) :
    (releaseHandle w name stack).WellNested := by
  unfold releaseHandle
  split
  · exact h
  · exact ⟨rfl, h⟩

theorem wellNested_trackHandle (name registry : String) (h : Nested .answer stack) :
    (trackHandle w name registry stack).WellNested := by
  refine wellNested_withRegistry _ h fun r => ?_
  split <;> exact h

theorem wellNested_newSubject (name : String) (cloneOf : Option String)
    (h : Nested .answer stack) : (newSubject w name cloneOf stack).WellNested := by
  unfold newSubject
  repeat' split
  all_goals exact h

theorem wellNested_subscribe (subject : String) (o : Observer Program) (name : String)
    (registry : Option String) (h : Nested .answer stack) :
    (subscribe w subject o name registry stack).WellNested := by
  unfold subscribe
  split
  · exact h
  · split
    · exact h
    · dsimp only
      split
      · exact wellNested_startProgram _ ⟨rfl, h⟩
      · exact wellNested_store _ _ _ h

theorem wellNested_replayOn (owner : Option Owner) (name : String) (o : Observer Program)
    (t : Teardown Program) (notes : List Notification) (h : Nested .answer stack) :
    (replayOn w owner name o t notes stack).WellNested := by
  cases notes with
  | nil => exact wellNested_store _ _ _ h
  | cons note rest => exact wellNested_startProgram _ ⟨rfl, h⟩

theorem wellNested_scopeOn (r : Nat) (p : Program) (answers : List Answer)
    (h : Nested .answer stack) : (scopeOn w r p answers stack).WellNested := by
  cases p with
  | nil => exact wellNested_drain _ _ h
  | cons s rest => exact ⟨rfl, h⟩

theorem wellNested_runStep (s : Step) (h : Nested .answer stack) :
    (runStep w s stack).WellNested := by
  cases s with
  | registry name => exact wellNested_newRegistry name h
  | dropRegistry name => exact wellNested_dropRegistry name h
  | acquire registry t =>
    exact wellNested_withRegistry _ h fun r => wellNested_store _ _ _ h
  | release handle registry => exact wellNested_release handle registry h
  | releaseAll name | onDestroy name =>
    exact wellNested_withRegistry _ h fun r => wellNested_drain _ _ h
  | shutdownGlobal => exact wellNested_drain _ _ h
  | inspect name => exact wellNested_withRegistry _ h fun r => h
  | scope name body => exact wellNested_withRegistry _ h fun r => wellNested_scopeOn _ _ _ h
  | hold t => exact wellNested_store _ _ _ h
  | releaseHandle name => exact wellNested_releaseHandle name h
  | trackHandle name registry => exact wellNested_trackHandle name registry h
  | subject name cloneOf => exact wellNested_newSubject name cloneOf h
  | dropSubject name => exact h
  | subscribe subject o name registry => exact wellNested_subscribe subject o name registry h
  | replay values sourceError o t name registry =>
    simp only [runStep]
    split
    · exact h
    · exact wellNested_replayOn _ _ _ _ _ h
  | next subject value => exact wellNested_deliver _ _ h
  | error subject message => exact wellNested_deliver _ _ h
  | complete subject => exact wellNested_deliver _ _ h
  | observer o => exact h

/-- A move keeps frames nested. -/
theorem WellNested.move {m m' : Machine} (hm : m.WellNested) (h : m.move = some m') :
    m'.WellNested := by
  obtain ⟨w, c, stack⟩ := m
  cases c with
  | run s =>
    cases h
    exact wellNested_runStep s hm
  | invoke x =>
    cases h
    unfold invoke
    repeat' split
    · exact hm
    · exact wellNested_startProgram _ ⟨rfl, hm⟩
    · exact hm
  | leave r a =>
    cases h
    unfold leave
    split
    · exact hm
    · exact wellNested_drain _ _ hm
  | answer a =>
    cases stack with
    | nil => cases h
    | cons f stack =>
      cases h
      obtain ⟨ht, hn⟩ := hm
      cases f with
      | program word rest => exact wellNested_startProgram _ hn
      | scope r rest answers => exact wellNested_scopeOn _ _ _ hn
      | teardown | delivery | subscribing | replaying | releasing | holding | draining => cases ht
  | finished =>
    cases stack with
    | nil => cases h
    | cons f stack =>
      cases h
      obtain ⟨ht, hn⟩ := hm
      cases f with
      | teardown x failure => exact hn
      | delivery s number note served waiting =>
        simp only [afterCallback, deliverOn]
        split
        · exact hn
        · split
          · exact ⟨rfl, hn⟩
          · exact wellNested_startProgram _ ⟨rfl, hn⟩
      | subscribing owner name x => exact wellNested_store _ _ _ hn
      | replaying owner name o t rest => exact wellNested_replayOn _ _ _ _ _ hn
      | draining r waiting report purpose => exact wellNested_drained _ _ _ hn
      | program | releasing | holding | scope => cases ht
  | released x e =>
    cases stack with
    | nil => cases h
    | cons f stack =>
      cases h
      obtain ⟨ht, hn⟩ := hm
      cases f with
      | releasing r => exact hn
      | holding name => exact hn
      | draining r waiting report purpose =>
        cases waiting with
        | nil => exact wellNested_drained _ _ _ hn
        | cons next rest => exact ⟨rfl, hn⟩
      | program | teardown | delivery | subscribing | replaying | scope => cases ht

end Machine

end Subscriptions.Tracker
