import Subscriptions.Proofs.Tracker.Run

namespace Subscriptions.Tracker

/-- The frame keeps none but the first `n` registries. -/
def Frame.Within (n : Nat) (f : Frame) : Prop := ∀ r, f.keeps r = true → r < n

/-- A step that lets go of a registry lets go of one of the first `n`. -/
def Control.Within (n : Nat) : Control → Prop
  | .leave r _ => r < n
  | .run _ | .answer _ | .finished | .invoke _ | .released .. => True

/-- A new handle goes nowhere else than to one of the first `n` registries. -/
def Owned (n : Nat) (owner : Option Owner) : Prop := ∀ o, owner = some o → o.number < n

theorem within_of_keeps_eq {n r : Nat} {f : Frame} (hr : r < n)
    (hf : ∀ x, f.keeps x = (r == x)) : f.Within n := by
  intro x hx
  rw [hf x] at hx
  exact eq_of_beq hx ▸ hr

theorem within_iff_owned {n : Nat} {owner : Option Owner} {f : Frame}
    (hk : ∀ r, f.keeps r = owner.any (·.number == r)) : f.Within n ↔ Owned n owner := by
  constructor
  · rintro hf o rfl
    refine hf o.number ?_
    rw [hk]
    exact beq_self_eq_true _
  · intro ho r hr
    rw [hk] at hr
    cases owner with
    | none => cases hr
    | some o => exact eq_of_beq hr ▸ ho o rfl

namespace World

/-- Names are of registries there are. -/
structure Furnished (w : World) : Prop where
  start : globalRegistry < w.registries.length
  named : ∀ p ∈ w.registryNames, p.2 < w.registries.length

theorem Furnished.of_eq {w w' : World} (h : w.Furnished)
    (hr : w'.registries.length = w.registries.length)
    (hn : ∀ p ∈ w'.registryNames, p ∈ w.registryNames) : w'.Furnished where
  start := hr ▸ h.start
  named p hp := hr ▸ h.named p (hn p hp)

theorem Furnished.lt {w : World} (h : w.Furnished) {name : String} {r : Nat}
    (hr : w.registryNumber? name = some r) : r < w.registries.length := by
  unfold registryNumber? at hr
  split at hr
  · obtain rfl := Option.some.inj hr
    exact h.start
  · exact h.named _ (mem_of_lookup hr)

theorem length_setRegistry (w : World) (r : Nat) (value : Registry Handle) :
    (w.setRegistry r value).registries.length = w.registries.length := by
  simp [setRegistry]

end World

namespace Machine

/-- All registries that are named or kept are there. -/
structure Housed (m : Machine) : Prop where
  world : m.world.Furnished
  control : m.control.Within m.world.registries.length
  stack : ∀ f ∈ m.stack, f.Within m.world.registries.length

variable {w : World} {stack : List Frame}

theorem housed_push {n : Nat} {f : Frame} (hf : f.Within n) (h : ∀ f ∈ stack, f.Within n) :
    ∀ g ∈ f :: stack, g.Within n := by
  intro g hg
  rcases List.mem_cons.mp hg with rfl | hg
  · exact hf
  · exact h g hg

theorem housed_startProgram (p : Program) (hw : w.Furnished)
    (h : ∀ f ∈ stack, f.Within w.registries.length) : (startProgram w p stack).Housed := by
  cases p with
  | nil => exact ⟨hw, trivial, h⟩
  | cons s rest => exact ⟨hw, trivial, housed_push (fun r hr => nomatch hr) h⟩

theorem housed_failed (e : StepError) (hw : w.Furnished)
    (h : ∀ f ∈ stack, f.Within w.registries.length) : (failed w e stack).Housed :=
  ⟨hw, trivial, h⟩

theorem housed_drained {r : Nat} (report : ReleaseReport) (purpose : DrainPurpose)
    (hw : w.Furnished) (hr : r < w.registries.length)
    (h : ∀ f ∈ stack, f.Within w.registries.length) : (drained w r report purpose stack).Housed := by
  cases purpose with
  | report => exact ⟨hw, hr, h⟩
  | scopeEnd answers => exact ⟨hw, hr, h⟩
  | dropped a => exact ⟨hw, trivial, h⟩

theorem housed_drain {r : Nat} (purpose : DrainPurpose) (hw : w.Furnished)
    (hr : r < w.registries.length) (h : ∀ f ∈ stack, f.Within w.registries.length) :
    (drain w r purpose stack).Housed := by
  have hlen := w.length_setRegistry r (w.registry r).drain.2
  have hw' : (w.setRegistry r (w.registry r).drain.2).Furnished := hw.of_eq hlen fun p hp => hp
  have hframe (waiting : List Handle) (report : ReleaseReport) :
      Frame.Within w.registries.length (.draining r waiting report purpose) :=
    within_of_keeps_eq hr fun _ => rfl
  rw [← hlen] at h hframe
  cases hh : (w.registry r).handles with
  | nil => rw [drain_of_nil hh]; exact ⟨hw', trivial, housed_push (hframe _ _) h⟩
  | cons x rest => rw [drain_of_cons hh]; exact ⟨hw', trivial, housed_push (hframe _ _) h⟩

theorem housed_store {owner : Option Owner} (name : String) (x : Handle) (hw : w.Furnished)
    (ho : Owned w.registries.length owner) (h : ∀ f ∈ stack, f.Within w.registries.length) :
    (store w owner name x stack).Housed := by
  cases owner with
  | none => exact ⟨hw.of_eq rfl fun p hp => hp, trivial, h⟩
  | some o =>
    have hlen := w.length_setRegistry o.number ((w.registry o.number).acquire x).2
    refine ⟨hw.of_eq hlen fun p hp => hp, ?_, ?_⟩
    · exact Nat.lt_of_lt_of_eq (ho o rfl) hlen.symm
    · rw [← hlen] at h
      exact h

theorem housed_withRegistry (name : String) {f : Nat → Machine} (hw : w.Furnished)
    (h : ∀ f ∈ stack, f.Within w.registries.length)
    (hf : ∀ r < w.registries.length, (f r).Housed) : (withRegistry w name stack f).Housed := by
  unfold withRegistry
  split
  · exact housed_failed _ hw h
  · rename_i hr
    exact hf _ (hw.lt hr)

theorem owned_of_owner? {registry : Option String} {owner : Option Owner} (hw : w.Furnished)
    (ho : owner? w registry = .ok owner) : Owned w.registries.length owner := by
  intro o he
  subst he
  unfold owner? at ho
  repeat' split at ho
  · cases ho
  · cases ho
  · rename_i hr
    cases ho
    exact hw.lt hr

theorem housed_deliver (name : String) (note : Notification) (hw : w.Furnished)
    (h : ∀ f ∈ stack, f.Within w.registries.length) : (deliver w name note stack).Housed := by
  unfold deliver
  repeat' split
  · exact housed_failed _ hw h
  · exact ⟨hw, trivial, h⟩
  · exact ⟨hw.of_eq rfl fun p hp => hp, trivial, housed_push (fun r hr => nomatch hr) h⟩

theorem housed_newRegistry (name : String) (hw : w.Furnished)
    (h : ∀ f ∈ stack, f.Within w.registries.length) : (newRegistry w name stack).Housed := by
  have hlen : w.registries.length ≤ (w.registries ++ [Registry.empty]).length := by simp
  have hw' : World.Furnished { w with
      registries := w.registries ++ [.empty],
      registryNames := bindName w.registryNames name w.registries.length } := by
    refine ⟨Nat.lt_of_lt_of_le hw.start hlen, fun p hp => ?_⟩
    rcases mem_bindName hp with hp | rfl
    · exact Nat.lt_of_lt_of_le (hw.named p hp) hlen
    · simp
  have h' : ∀ f ∈ stack, f.Within (w.registries ++ [Registry.empty]).length := fun f hf r hr =>
    Nat.lt_of_lt_of_le (h f hf r hr) hlen
  simp only [newRegistry]
  split
  · exact ⟨hw', trivial, h'⟩
  · rename_i hr
    exact ⟨hw', Nat.lt_of_lt_of_le (hw.named _ (mem_of_lookup hr)) hlen, h'⟩

theorem housed_dropRegistry (name : String) (hw : w.Furnished)
    (h : ∀ f ∈ stack, f.Within w.registries.length) : (dropRegistry w name stack).Housed := by
  unfold dropRegistry
  split
  · exact ⟨hw, trivial, h⟩
  · rename_i hr
    refine ⟨hw.of_eq rfl fun p hp => (List.mem_filter.mp hp).1, ?_, h⟩
    exact hw.named _ (mem_of_lookup hr)

theorem housed_release (handle : String) (registry : Option String) (hw : w.Furnished)
    (h : ∀ f ∈ stack, f.Within w.registries.length) :
    (release w handle registry stack).Housed := by
  unfold release
  split
  · exact housed_failed _ hw h
  · rename_i acquisition _
    refine housed_withRegistry _ hw h fun r hr => ?_
    split
    · exact ⟨hw, trivial, h⟩
    · have hlen := w.length_setRegistry r ((w.registry r).clear acquisition.id)
      refine ⟨hw.of_eq hlen fun p hp => hp, trivial, ?_⟩
      have hframe : Frame.Within w.registries.length (.releasing r) :=
        within_of_keeps_eq hr fun _ => rfl
      rw [← hlen] at h hframe
      exact housed_push hframe h

theorem housed_releaseHandle (name : String) (hw : w.Furnished)
    (h : ∀ f ∈ stack, f.Within w.registries.length) : (releaseHandle w name stack).Housed := by
  unfold releaseHandle
  split
  · exact housed_failed _ hw h
  · exact ⟨hw.of_eq rfl fun p hp => hp, trivial, housed_push (fun r hr => nomatch hr) h⟩

theorem housed_trackHandle (name registry : String) (hw : w.Furnished)
    (h : ∀ f ∈ stack, f.Within w.registries.length) :
    (trackHandle w name registry stack).Housed := by
  refine housed_withRegistry _ hw h fun r hr => ?_
  split
  · exact housed_failed _ hw h
  · refine housed_store name _ (hw.of_eq rfl fun p hp => hp) (fun o ho => ?_) h
    obtain rfl := Option.some.inj ho
    exact hr

theorem housed_newSubject (name : String) (cloneOf : Option String) (hw : w.Furnished)
    (h : ∀ f ∈ stack, f.Within w.registries.length) :
    (newSubject w name cloneOf stack).Housed := by
  unfold newSubject
  repeat' split
  · exact ⟨hw.of_eq rfl fun p hp => hp, trivial, h⟩
  · exact housed_failed _ hw h
  · exact ⟨hw.of_eq rfl fun p hp => hp, trivial, h⟩

theorem housed_subscribe (subject : String) (o : Observer Program) (name : String)
    (registry : Option String) (hw : w.Furnished)
    (h : ∀ f ∈ stack, f.Within w.registries.length) :
    (subscribe w subject o name registry stack).Housed := by
  unfold subscribe
  split
  · exact housed_failed _ hw h
  · split
    · exact housed_failed _ hw h
    · rename_i ho
      have ho := owned_of_owner? hw ho
      dsimp only
      split
      · exact housed_startProgram _ (hw.of_eq rfl fun p hp => hp)
          (housed_push ((within_iff_owned fun _ => rfl).mpr ho) h)
      · exact housed_store _ _ (hw.of_eq rfl fun p hp => hp) ho h

theorem housed_replayOn {owner : Option Owner} (name : String) (o : Observer Program)
    (t : Teardown Program) (notes : List Notification) (hw : w.Furnished)
    (ho : Owned w.registries.length owner) (h : ∀ f ∈ stack, f.Within w.registries.length) :
    (replayOn w owner name o t notes stack).Housed := by
  cases notes with
  | nil => exact housed_store _ _ (hw.of_eq rfl fun p hp => hp) ho h
  | cons note rest =>
    exact housed_startProgram _ (hw.of_eq rfl fun p hp => hp)
      (housed_push ((within_iff_owned fun _ => rfl).mpr ho) h)

theorem housed_scopeOn {r : Nat} (p : Program) (answers : List Answer) (hw : w.Furnished)
    (hr : r < w.registries.length) (h : ∀ f ∈ stack, f.Within w.registries.length) :
    (scopeOn w r p answers stack).Housed := by
  cases p with
  | nil => exact housed_drain _ hw hr h
  | cons s rest =>
    exact ⟨hw, trivial, housed_push (within_of_keeps_eq hr fun _ => rfl) h⟩

theorem housed_runStep (s : Step) (hw : w.Furnished)
    (h : ∀ f ∈ stack, f.Within w.registries.length) : (runStep w s stack).Housed := by
  have hsome (r : Nat) (name : String) (hr : r < w.registries.length) :
      Owned w.registries.length (some ⟨r, name⟩) := by
    intro o ho
    obtain rfl := Option.some.inj ho
    exact hr
  cases s with
  | registry name => exact housed_newRegistry name hw h
  | dropRegistry name => exact housed_dropRegistry name hw h
  | acquire registry t =>
    exact housed_withRegistry _ hw h fun r hr =>
      housed_store _ _ (hw.of_eq rfl fun p hp => hp) (hsome r registry hr) h
  | release handle registry => exact housed_release handle registry hw h
  | releaseAll name | onDestroy name =>
    exact housed_withRegistry _ hw h fun r hr => housed_drain _ hw hr h
  | shutdownGlobal => exact housed_drain _ hw hw.start h
  | inspect name => exact housed_withRegistry _ hw h fun r hr => ⟨hw, trivial, h⟩
  | scope name body => exact housed_withRegistry _ hw h fun r hr => housed_scopeOn _ _ hw hr h
  | hold t =>
    have hnone : Owned w.registries.length none := fun o ho => by cases ho
    have hw' : (w.newHandle (.teardown t)).2.Furnished := hw.of_eq rfl fun p hp => hp
    exact housed_store t.name (w.newHandle (.teardown t)).1 hw' hnone h
  | releaseHandle name => exact housed_releaseHandle name hw h
  | trackHandle name registry => exact housed_trackHandle name registry hw h
  | subject name cloneOf => exact housed_newSubject name cloneOf hw h
  | dropSubject name => exact ⟨hw.of_eq rfl fun p hp => hp, trivial, h⟩
  | subscribe subject o name registry => exact housed_subscribe subject o name registry hw h
  | replay values sourceError o t name registry =>
    simp only [runStep]
    split
    · exact housed_failed _ hw h
    · rename_i ho
      exact housed_replayOn _ _ _ _ hw (owned_of_owner? hw ho) h
  | next subject value => exact housed_deliver _ _ hw h
  | error subject message => exact housed_deliver _ _ hw h
  | complete subject => exact housed_deliver _ _ hw h
  | observer o => exact ⟨hw, trivial, h⟩

theorem housed_deliverOn {s number : Nat} {note : Notification}
    {served waiting : List (Nat × Observer Program)} (hw : w.Furnished)
    (h : ∀ f ∈ stack, f.Within w.registries.length) :
    (deliverOn w s number note served waiting stack).Housed := by
  unfold deliverOn
  split
  · exact ⟨hw.of_eq rfl fun p hp => hp, trivial, h⟩
  · dsimp only
    split
    · exact ⟨hw, trivial, housed_push (fun r hr => nomatch hr) h⟩
    · exact housed_startProgram _ (hw.of_eq rfl fun p hp => hp)
        (housed_push (fun r hr => nomatch hr) h)

theorem Housed.move {m m' : Machine} (hm : m.Housed) (h : m.move = some m') : m'.Housed := by
  obtain ⟨w, c, stack⟩ := m
  obtain ⟨hw, hc, hs⟩ := hm
  cases c with
  | run s =>
    cases h
    exact housed_runStep s hw hs
  | invoke x =>
    cases h
    unfold invoke
    repeat' split
    · exact ⟨hw, trivial, hs⟩
    · exact housed_startProgram _ (hw.of_eq rfl fun p hp => hp)
        (housed_push (fun r hr => by cases hr) hs)
    · exact ⟨hw.of_eq rfl fun p hp => hp, trivial, hs⟩
  | leave r a =>
    cases h
    unfold leave
    split
    · exact ⟨hw, trivial, hs⟩
    · exact housed_drain _ hw hc hs
  | answer a =>
    cases stack with
    | nil => cases h
    | cons f stack =>
      cases h
      have hf := hs f List.mem_cons_self
      have hs' : ∀ g ∈ stack, g.Within w.registries.length := fun g hg =>
        hs g (List.mem_cons_of_mem _ hg)
      cases f with
      | program word rest => exact housed_startProgram _ (hw.of_eq rfl fun p hp => hp) hs'
      | scope r rest answers => exact housed_scopeOn _ _ hw (hf r (beq_self_eq_true r)) hs'
      | teardown | delivery | subscribing | replaying | releasing | holding | draining =>
        exact ⟨hw, trivial, hs'⟩
  | finished =>
    cases stack with
    | nil => cases h
    | cons f stack =>
      cases h
      have hf := hs f List.mem_cons_self
      have hs' : ∀ g ∈ stack, g.Within w.registries.length := fun g hg =>
        hs g (List.mem_cons_of_mem _ hg)
      cases f with
      | teardown x failure => exact ⟨hw, trivial, hs'⟩
      | delivery s number note served waiting => exact housed_deliverOn hw hs'
      | subscribing owner name x => exact housed_store _ _ hw ((within_iff_owned fun _ => rfl).mp hf) hs'
      | replaying owner name o t rest => exact housed_replayOn _ _ _ _ hw ((within_iff_owned fun _ => rfl).mp hf) hs'
      | draining r waiting report purpose =>
        exact housed_drained _ _ hw (hf r (beq_self_eq_true r)) hs'
      | program | releasing | holding | scope => exact ⟨hw, trivial, hs'⟩
  | released x e =>
    cases stack with
    | nil => cases h
    | cons f stack =>
      cases h
      have hf := hs f List.mem_cons_self
      have hs' : ∀ g ∈ stack, g.Within w.registries.length := fun g hg =>
        hs g (List.mem_cons_of_mem _ hg)
      cases f with
      | releasing r => exact ⟨hw, hf r (beq_self_eq_true r), hs'⟩
      | holding name => exact ⟨hw.of_eq rfl fun p hp => hp, trivial, hs'⟩
      | draining r waiting report purpose =>
        have hr := hf r (beq_self_eq_true r)
        cases waiting with
        | nil => exact housed_drained _ _ hw hr hs'
        | cons next rest => exact ⟨hw, trivial, housed_push (within_of_keeps_eq hr fun _ => rfl) hs'⟩
      | program | teardown | delivery | subscribing | replaying | scope => exact ⟨hw, trivial, hs'⟩

theorem Reachable.housed {m : Machine} (hm : m.Reachable) : m.Housed := by
  refine hm.invariant ⟨⟨by decide, fun p hp => nomatch hp⟩, trivial, fun f hf => nomatch hf⟩ ?_
  intro m m' hm h
  cases h with
  | move h => exact hm.move h
  | step h s => exact ⟨hm.world, trivial, fun f hf => nomatch hf⟩

end Machine

end Subscriptions.Tracker
