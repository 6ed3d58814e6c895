import Subscriptions.Proofs.Tracker.Housing

namespace Subscriptions.Tracker.Machine

def Asks (m : Machine) (r : Nat) (id : TrackedId) : Prop :=
  ∃ handle registry acquisition, m.control = .run (.release handle registry) ∧
    m.world.acquisitions.lookup handle = some acquisition ∧
    m.world.registryNumber? (registry.getD acquisition.registry) = some r ∧ acquisition.id = id

def Drains (m : Machine) (r : Nat) : Prop :=
  ∃ purpose stack, m.move = some (drain m.world r purpose stack)

def Acquires (m : Machine) (r : Nat) (id : TrackedId) (x : Handle) : Prop :=
  ∃ m', m.move = some m' ∧ (m.world.registry r).acquire x = (id, m'.world.registry r)

/-- What comes of a world and a stack, but for the release of one handle of a registry. -/
inductive Deal (w : World) (stack : List Frame) (m' : Machine) : Prop
  | still (h : m'.world.registries = w.registries) (hs : stack <:+ m'.stack)
  | opened (h : m'.world.registries = w.registries ++ [.empty]) (hs : m'.stack = stack)
  | stored (r : Nat) (x : Handle) (hr : r < w.registries.length)
      (h : m'.world.registries = w.registries.set r ((w.registry r).acquire x).2)
      (hc : m'.control = .leave r (@Answer.issued r ((w.registry r).acquire x).1))
      (hs : m'.stack = stack)
  | drained (r : Nat) (purpose : DrainPurpose) (h : m' = drain w r purpose stack)

variable {w w₁ : World} {stack : List Frame} {m' : Machine}

theorem suffix_drain (w : World) (r : Nat) (purpose : DrainPurpose) (stack : List Frame) :
    stack <:+ (drain w r purpose stack).stack := by
  cases hr : (w.registry r).handles with
  | nil => rw [drain_of_nil hr]; exact List.suffix_cons _ _
  | cons x rest => rw [drain_of_cons hr]; exact List.suffix_cons _ _

/-- What is left to do stays so. -/
theorem Deal.suffix (h : Deal w stack m') : stack <:+ m'.stack := by
  cases h with
  | still _ hs => exact hs
  | opened _ hs => exact hs ▸ List.suffix_refl _
  | stored _ _ _ _ _ hs => exact hs ▸ List.suffix_refl _
  | drained r purpose h => exact h ▸ suffix_drain w r purpose stack

theorem deal_answered (a : Answer) (h : w₁.registries = w.registries) :
    Deal w stack (answered w₁ a stack) := .still h (List.suffix_refl _)

theorem deal_failed (e : StepError) : Deal w stack (failed w e stack) := deal_answered _ rfl

theorem deal_startProgram (p : Program) {stack' : List Frame} (hs : stack <:+ stack')
    (h : w₁.registries = w.registries) : Deal w stack (startProgram w₁ p stack') := by
  cases p with
  | nil => exact .still h hs
  | cons s rest => exact .still h (hs.trans (List.suffix_cons _ _))

theorem deal_drained (r : Nat) (report : ReleaseReport) (purpose : DrainPurpose) :
    Deal w stack (drained w r report purpose stack) := by
  cases purpose <;> exact .still rfl (List.suffix_refl _)

theorem deal_store {owner : Option Owner} (name : String) (x : Handle)
    (ho : Owned w.registries.length owner) (h : w₁.registries = w.registries) :
    Deal w stack (store w₁ owner name x stack) := by
  cases owner with
  | none => exact deal_answered _ h
  | some o =>
    have hr : w₁.registry o.number = w.registry o.number := by
      rw [World.registry, World.registry, h]
    refine .stored o.number x (ho o rfl) ?_ ?_ rfl
    · change w₁.registries.set o.number ((w₁.registry o.number).acquire x).2 = _
      rw [h, hr]
    · change Control.leave o.number (@Answer.issued o.number ((w₁.registry o.number).acquire x).1) = _
      rw [hr]

theorem deal_withRegistry (name : String) {f : Nat → Machine} (hw : w.Furnished)
    (hf : ∀ r < w.registries.length, Deal w stack (f r)) :
    Deal w stack (withRegistry w name stack f) := by
  unfold withRegistry
  split
  · exact deal_failed _
  · rename_i hr
    exact hf _ (hw.lt hr)

theorem deal_deliver (name : String) (note : Notification) :
    Deal w stack (deliver w name note stack) := by
  unfold deliver
  repeat' split
  · exact deal_failed _
  · exact deal_answered _ rfl
  · exact .still rfl (List.suffix_cons _ _)

theorem deal_newRegistry (name : String) : Deal w stack (newRegistry w name stack) := by
  simp only [newRegistry]
  split
  · exact .opened rfl rfl
  · exact .opened rfl rfl

theorem deal_dropRegistry (name : String) : Deal w stack (dropRegistry w name stack) := by
  unfold dropRegistry
  split
  · exact deal_answered _ rfl
  · exact .still rfl (List.suffix_refl _)

theorem deal_releaseHandle (name : String) : Deal w stack (releaseHandle w name stack) := by
  unfold releaseHandle
  split
  · exact deal_failed _
  · exact .still rfl (List.suffix_cons _ _)

theorem deal_trackHandle (name registry : String) (hw : w.Furnished) :
    Deal w stack (trackHandle w name registry stack) := by
  refine deal_withRegistry _ hw fun r hr => ?_
  split
  · exact deal_failed _
  · exact deal_store name _ (fun o ho => Option.some.inj ho ▸ hr) rfl

theorem deal_newSubject (name : String) (cloneOf : Option String) :
    Deal w stack (newSubject w name cloneOf stack) := by
  unfold newSubject
  repeat' split
  · exact deal_answered _ rfl
  · exact deal_failed _
  · exact deal_answered _ rfl

theorem deal_subscribe (subject : String) (o : Observer Program) (name : String)
    (registry : Option String) (hw : w.Furnished) :
    Deal w stack (subscribe w subject o name registry stack) := by
  unfold subscribe
  split
  · exact deal_failed _
  · split
    · exact deal_failed _
    · rename_i ho
      dsimp only
      split
      · exact deal_startProgram _ (List.suffix_cons _ _) rfl
      · exact deal_store _ _ (owned_of_owner? hw ho) rfl

theorem deal_replayOn {owner : Option Owner} (name : String) (o : Observer Program)
    (t : Teardown Program) (notes : List Notification) (ho : Owned w.registries.length owner) :
    Deal w stack (replayOn w owner name o t notes stack) := by
  cases notes with
  | nil => exact deal_store _ _ ho rfl
  | cons note rest => exact deal_startProgram _ (List.suffix_cons _ _) rfl

theorem deal_scopeOn (r : Nat) (p : Program) (answers : List Answer) :
    Deal w stack (scopeOn w r p answers stack) := by
  cases p with
  | nil => exact .drained r _ rfl
  | cons s rest => exact .still rfl (List.suffix_cons _ _)

theorem deal_runStep (s : Step) (hw : w.Furnished)
    (hs : ∀ handle registry, s ≠ .release handle registry) : Deal w stack (runStep w s stack) := by
  have hsome (r : Nat) (name : String) (hr : r < w.registries.length) :
      Owned w.registries.length (some ⟨r, name⟩) := fun o ho => Option.some.inj ho ▸ hr
  cases s with
  | registry name => exact deal_newRegistry name
  | dropRegistry name => exact deal_dropRegistry name
  | acquire registry t =>
    exact deal_withRegistry _ hw fun r hr => deal_store _ _ (hsome r registry hr) rfl
  | release handle registry => exact absurd rfl (hs handle registry)
  | releaseAll name | onDestroy name =>
    exact deal_withRegistry _ hw fun r hr => .drained r _ rfl
  | shutdownGlobal => exact .drained _ _ rfl
  | inspect name => exact deal_withRegistry _ hw fun r hr => deal_answered _ rfl
  | scope name body => exact deal_withRegistry _ hw fun r hr => deal_scopeOn r _ _
  | hold t => exact deal_answered _ rfl
  | releaseHandle name => exact deal_releaseHandle name
  | trackHandle name registry => exact deal_trackHandle name registry hw
  | subject name cloneOf => exact deal_newSubject name cloneOf
  | dropSubject name => exact deal_answered _ rfl
  | subscribe subject o name registry => exact deal_subscribe subject o name registry hw
  | replay values sourceError o t name registry =>
    simp only [runStep]
    split
    · exact deal_failed _
    · rename_i ho
      exact deal_replayOn _ _ _ _ (owned_of_owner? hw ho)
  | next subject value => exact deal_deliver _ _
  | error subject message => exact deal_deliver _ _
  | complete subject => exact deal_deliver _ _
  | observer o => exact deal_answered _ rfl

theorem deal_invoke (x : Handle) : Deal w stack (invoke w x stack) := by
  unfold invoke
  repeat' split
  · exact .still rfl (List.suffix_refl _)
  · exact deal_startProgram _ (List.suffix_cons _ _) rfl
  · exact .still rfl (List.suffix_refl _)

theorem deal_leave (r : Nat) (a : Answer) : Deal w stack (leave w r a stack) := by
  unfold leave
  split
  · exact deal_answered _ rfl
  · exact .drained r _ rfl

theorem deal_deliverOn {s number : Nat} {note : Notification}
    {served waiting : List (Nat × Observer Program)} :
    Deal w stack (deliverOn w s number note served waiting stack) := by
  unfold deliverOn
  split
  · exact deal_answered _ rfl
  · dsimp only
    split
    · exact .still rfl (List.suffix_cons _ _)
    · exact deal_startProgram _ (List.suffix_cons _ _) rfl

theorem deal_afterAnswer (a : Answer) (f : Frame) : Deal w stack (afterAnswer w a f stack) := by
  cases f with
  | program word rest => exact deal_startProgram _ (List.suffix_refl _) rfl
  | scope r rest answers => exact deal_scopeOn r _ _
  | teardown | delivery | subscribing | replaying | releasing | holding | draining =>
    exact .still rfl (List.suffix_refl _)

theorem deal_afterCallback {f : Frame} (hf : f.Within w.registries.length) :
    Deal w stack (afterCallback w f stack) := by
  cases f with
  | delivery s number note served waiting => exact deal_deliverOn
  | subscribing owner name x => exact deal_store _ _ ((within_iff_owned fun _ => rfl).mp hf) rfl
  | replaying owner name o t rest => exact deal_replayOn _ _ _ _ ((within_iff_owned fun _ => rfl).mp hf)
  | draining r waiting report purpose => exact deal_drained r _ _
  | teardown | program | releasing | holding | scope => exact .still rfl (List.suffix_refl _)

theorem deal_afterRelease (x : Handle) (e : Option ReleaseError) (f : Frame) :
    Deal w stack (afterRelease w x e f stack) := by
  cases f with
  | holding name => exact deal_answered _ rfl
  | draining r waiting report purpose =>
    cases waiting with
    | nil => exact deal_drained r _ _
    | cons next rest => exact .still rfl (List.suffix_cons _ _)
  | releasing | teardown | program | delivery | subscribing | replaying | scope =>
    exact .still rfl (List.suffix_refl _)

variable {m : Machine} {r : Nat} {id : TrackedId} {x : Handle}

/-- What a move does where an identity is asked for depends on the handle of it alone. -/
theorem move_of_asks (ha : m.Asks r id) :
    m.move = some (((m.world.registry r).handle? id).elim (answered m.world (.flag false) m.stack)
      fun x => ⟨m.world.setRegistry r ((m.world.registry r).clear id), .invoke x,
        .releasing r :: m.stack⟩) := by
  obtain ⟨w, c, stack⟩ := m
  obtain ⟨handle, registry, acquisition, hc, hl, hr, rfl⟩ := ha
  subst hc
  change some (release w handle registry stack) = _
  simp only [release, withRegistry] at hl hr ⊢
  simp only [hl, hr]
  cases (w.registry r).handle? acquisition.id <;> rfl

/-- An identity that finds nothing changes nothing. -/
theorem move_of_not_found (ha : m.Asks r id) (hx : (m.world.registry r).handle? id = none) :
    m.move = some (answered m.world (.flag false) m.stack) := by
  rw [move_of_asks ha, hx, Option.elim_none]

/-- A handle that is found leaves its place and is released. -/
theorem move_of_found (ha : m.Asks r id) (hx : (m.world.registry r).handle? id = some x) :
    m.move = some ⟨m.world.setRegistry r ((m.world.registry r).clear id), .invoke x,
      .releasing r :: m.stack⟩ := by
  rw [move_of_asks ha, hx, Option.elim_some]

theorem Asks.unique {q : Nat} {id' : TrackedId} (ha : m.Asks r id) (ha' : m.Asks q id') :
    r = q ∧ id = id' := by
  obtain ⟨handle, registry, acquisition, hc, hl, hr, rfl⟩ := ha
  obtain ⟨handle', registry', acquisition', hc', hl', hq, rfl⟩ := ha'
  rw [hc] at hc'
  cases hc'
  rw [hl] at hl'
  cases hl'
  rw [hr] at hq
  exact ⟨Option.some.inj hq, rfl⟩

/-- A move looks for one handle in a registry, or makes something of the world above the frames
that are left to do. -/
theorem deal_move (hm : m.Housed) (h : m.move = some m') :
    (∃ r id, m.Asks r id) ∨ ∃ stack, m.stack.tail <:+ stack ∧ Deal m.world stack m' := by
  obtain ⟨w, c, stack⟩ := m
  have htail : stack.tail <:+ stack := List.tail_suffix stack
  cases c with
  | run s =>
    by_cases hs : ∃ handle registry, s = .release handle registry
    · obtain ⟨handle, registry, rfl⟩ := hs
      cases h
      cases hl : w.acquisitions.lookup handle with
      | none =>
        refine .inr ⟨stack, htail, ?_⟩
        simp only [runStep, release, hl]
        exact deal_failed _
      | some acquisition =>
        cases hr : w.registryNumber? (registry.getD acquisition.registry) with
        | none =>
          refine .inr ⟨stack, htail, ?_⟩
          simp only [runStep, release, hl, withRegistry, hr]
          exact deal_failed _
        | some r => exact .inl ⟨r, _, handle, registry, acquisition, rfl, hl, hr, rfl⟩
    · cases h
      refine .inr ⟨stack, htail, deal_runStep s hm.world fun handle registry he => ?_⟩
      exact hs ⟨handle, registry, he⟩
  | invoke x =>
    cases h
    exact .inr ⟨stack, htail, deal_invoke x⟩
  | leave r a =>
    cases h
    exact .inr ⟨stack, htail, deal_leave r a⟩
  | answer a =>
    cases stack with
    | nil => cases h
    | cons f stack =>
      cases h
      exact .inr ⟨stack, List.suffix_refl _, deal_afterAnswer a f⟩
  | finished =>
    cases stack with
    | nil => cases h
    | cons f stack =>
      cases h
      exact .inr ⟨stack, List.suffix_refl _, deal_afterCallback (hm.stack f List.mem_cons_self)⟩
  | released x e =>
    cases stack with
    | nil => cases h
    | cons f stack =>
      cases h
      exact .inr ⟨stack, List.suffix_refl _, deal_afterRelease x e f⟩

/-- No move touches what is left to do below the topmost frame. -/
theorem tail_suffix_of_move (hm : m.Housed) (h : m.move = some m') :
    m.stack.tail <:+ m'.stack := by
  rcases deal_move hm h with ⟨r, id, ha⟩ | ⟨stack, hs, hd⟩
  · have htail : m.stack.tail <:+ m.stack := List.tail_suffix _
    cases hx : (m.world.registry r).handle? id with
    | none =>
      rw [move_of_not_found ha hx] at h
      exact Option.some.inj h ▸ htail
    | some x =>
      rw [move_of_found ha hx] at h
      exact Option.some.inj h ▸ htail.trans (List.suffix_cons _ _)
  · exact hs.trans hd.suffix

end Subscriptions.Tracker.Machine
