import Subscriptions.Proofs.Tracker.Notices
import Subscriptions.Proofs.Tracker.Simulation

namespace Subscriptions.Tracker

namespace View

variable {v v' : View} {id : Nat}

/-- The observer awaits nothing, or it is marked and will be passed over. -/
def Silent (v : View) (id : Nat) : Prop := v.Awaits id → id ∈ v.subject.detached

theorem not_silent_iff : ¬ v.Silent id ↔ v.Awaits id ∧ id ∉ v.subject.detached := by
  rw [Silent, Classical.not_imp]

/-- Only the innermost delivery may be terminal. -/
theorem Reachable.tail_open (hv : v.Reachable) : ∀ d ds, v.deliveries = d :: ds →
    ∀ d' ∈ ds, d'.note.isTerminal = false := by
  refine hv.invariant (by simp [fresh]) ?_
  intro v v' hv ih h d ds hd d' hd'
  cases h with
  | idle | subscribe | late | release => exact ih d ds hd d' hd'
  | start note h =>
    have hopen := (Subject.begin?_eq_some h).1
    obtain ⟨-, rfl⟩ := List.cons.inj hd
    refine Bool.eq_false_iff.mpr fun ht => ?_
    rw [hv.closed.1 d' hd' ht] at hopen
    cases hopen
  | call he | skip he =>
    obtain ⟨-, rfl⟩ := List.cons.inj hd
    exact ih _ _ he d' hd'
  | finish he =>
    obtain rfl : _ = d :: ds := hd
    exact ih _ _ he d' (List.mem_cons_of_mem _ hd')

theorem notes_grow (h : v.history <+: v'.history) (id : Nat) : v.notes id <+: v'.notes id :=
  h.filterMap _

theorem notes_release {x : Nat} (h : v'.history = v.history ++ [.released x]) :
    v'.notes id = v.notes id := by
  simp [notes, h, Happening.noteTo?]

/-- Silence is kept until a delivery ends while the observer is out with an enclosing one. -/
theorem Reachable.silent_step (hv : v.Reachable) (h : v.Step v') (hid : id < v.subject.nextId)
    (hs : v.Silent id) : v'.notes id = v.notes id ∧
      (v'.Silent id ∨ ∃ d, v.deliveries = d :: v'.deliveries ∧ id ∈ outIds v'.deliveries) := by
  have hmarked (ha : v'.Awaits id) : id ∈ v.subject.detached := by
    rcases ha.of_step h with ha | ⟨rfl, -⟩
    · exact hs ha
    · exact absurd hid (Nat.lt_irrefl _)
  cases h with
  | idle | subscribe | skip => exact ⟨rfl, .inl hmarked⟩
  | late o h =>
    refine ⟨?_, .inl fun ha => ?_⟩
    · have hne : v.subject.nextId ≠ id := Nat.ne_of_gt hid
      simp [notes, Happening.noteTo?, hne]
    · have h := hmarked ha
      rwa [Subject.subscribe_of_closed ‹_›]
  | start note h =>
    obtain ⟨-, -, rfl⟩ := Subject.begin?_eq_some h
    exact ⟨rfl, .inl hmarked⟩
  | @call d ds x o rest hd hw h =>
    refine ⟨?_, .inl hmarked⟩
    -- Whose turn it is awaits it, so it would have been passed over.
    have hne : x ≠ id := by
      rintro rfl
      have hm := hs (.inr ⟨d, by simp [hd], .inl (by simp [hw])⟩)
      simp [Subject.isDetached, hm] at h
    simp [notes, Happening.noteTo?, hne]
  | @finish d ds hd hw =>
    refine ⟨rfl, ?_⟩
    by_cases hout : id ∈ outIds ds
    · exact .inr ⟨d, hd, hout⟩
    · left
      intro ha
      have hm := hmarked ha
      exfalso
      rcases ha with ha | ⟨d', hd', ha⟩
      · cases ht : d.note.isTerminal with
        | true =>
          rw [ht, Subject.ids_finish_true] at ha
          exact (hv.marked id hm).1 ha
        | false =>
          rw [ht, Subject.ids_finish_false] at ha
          rcases List.mem_append.mp ha with ha | ha
          · simp [hm] at ha
          · exact (hv.marked id hm).1 ha
      · exact hout (mem_outIds_of_awaits hd' ha)
  | release x hx h =>
    refine ⟨notes_release rfl, .inl fun ha => ?_⟩
    exact Subject.detached_subset_detach _ x (hmarked ha)

theorem Step.mem_detached (h : v.Step v') (hm : id ∈ v'.subject.detached) :
    id ∈ v.subject.detached ∨ .released id ∉ v.history := by
  cases h with
  | idle | subscribe | call | skip => exact .inl hm
  | late o h =>
    rw [Subject.subscribe_of_closed h] at hm
    exact .inl hm
  | start note h =>
    obtain ⟨-, -, rfl⟩ := Subject.begin?_eq_some h
    exact .inl hm
  | finish =>
    rw [Subject.detached_finish] at hm
    cases hm
  | release x hx h =>
    rcases Subject.mem_detached_detach hm with hm | ⟨rfl, -⟩
    · exact .inl hm
    · exact .inr h

/-- A released observer that is not silent stays so until it is called. -/
theorem not_silent_step (h : v.Step v') (hr : .released id ∈ v.history) (hs : ¬ v.Silent id) :
    ¬ v'.Silent id ∨ (v.notes id).length < (v'.notes id).length := by
  obtain ⟨ha, hm⟩ := not_silent_iff.mp hs
  rcases ha.step h with ha | hm' | ⟨number, note, hh, -⟩ | ⟨hr', -⟩
  · left
    rw [not_silent_iff]
    refine ⟨ha, fun hm' => ?_⟩
    exact (h.mem_detached hm').elim hm fun hr' => hr' hr
  · exact absurd hm' hm
  · right
    simp [notes, hh, Happening.noteTo?]
  · exact absurd hr hr'

/-- The end of a delivery takes all marks with it. -/
theorem Reachable.not_silent_of_finish (hv : v.Reachable) (h : v.Step v') {d : Delivery}
    (hd : v.deliveries = d :: v'.deliveries) (hid : id ∈ outIds v'.deliveries) :
    ¬ v'.Silent id := by
  have hawaits : v'.Awaits id := by
    obtain ⟨d', hd', hid⟩ := mem_outIds.mp hid
    have hopen := hv.tail_open d _ hd d' hd'
    refine .inr ⟨d', hd', ?_⟩
    rcases List.mem_append.mp hid with hid | hid
    · exact .inr ⟨hopen, hid⟩
    · exact .inl hid
  have hdetached : v'.subject.detached = [] := by
    cases h with
    | finish => exact Subject.detached_finish _ _ _
    | idle | subscribe | late | release | start =>
      have hlen := congrArg List.length hd
      simp only [List.length_cons] at hlen
      omega
    | call he | skip he =>
      rw [he] at hd
      have hlen := congrArg List.length hd
      simp at hlen
  rw [not_silent_iff, hdetached]
  exact ⟨hawaits, List.not_mem_nil⟩

/-- A release silences its observer, unless the subject is closed and the observer still attached. -/
theorem Reachable.silent_release (hv : v.Reachable) (hid : id < v.subject.nextId)
    (hr : .released id ∉ v.history) :
    View.Silent ⟨v.subject.detach id, v.deliveries, v.history ++ [.released id], v.next⟩ id ↔
      ¬ (v.subject.closed = true ∧ v.Attached id) := by
  cases hc : v.subject.closed with
  | true =>
    have hm : id ∉ v.subject.detached := fun hm => hr (hv.marked id hm).2
    simp only [true_and, Silent, Subject.detach_of_closed hc]
    constructor
    · intro hs hatt
      exact hm (hs (hv.awaits_of_attached hatt))
    · intro hatt ha
      exact absurd ⟨hid, hr, hv.not_ended id ha⟩ hatt
  | false =>
    simp only [Bool.false_eq_true, false_and, not_false_eq_true, iff_true]
    intro ha
    by_cases hhome : id ∈ v.subject.ids
    · -- Nobody is at home and out at once, and at home it is no longer.
      have hn := hv.nodup
      rw [listed, List.nodup_append] at hn
      exfalso
      rcases ha with ha | ⟨d, hd, ha⟩
      · exact Subject.not_mem_ids_detach hc hn.2.1 ha
      · exact hn.2.2 id (mem_outIds_of_awaits hd ha) id hhome rfl
    · exact (Subject.detach_of_not_mem hc hhome).2

end View

namespace Machine

/-- A delivery has ended, and all marks with it, while the observer was out with an enclosing one. -/
def Forgotten (m m' : Machine) (s id : Nat) : Prop :=
  ∃ a b, Later m a ∧ Next a b ∧ Later b m' ∧
    ∃ d, a.deliveries s = d :: b.deliveries s ∧ id ∈ outIds (b.deliveries s)

/-- The release of a subscription has no effect: it comes while the subject is closed and the
observer still attached, or it is forgotten. -/
def Unheeded (m m₁ m' : Machine) (s id : Nat) : Prop :=
  ((m.world.subject s).closed = true ∧ (m.view s).Attached id) ∨ m₁.Forgotten m' s id

theorem silent_or_forgotten {m m' : Machine} {s id : Nat} (hm : m.Reachable)
    (hid : id < (m.view s).subject.nextId) (hs : (m.view s).Silent id) (h : Later m m') :
    (m'.view s).Silent id ∧ (m'.view s).notes id = (m.view s).notes id ∨ m.Forgotten m' s id := by
  induction h with
  | refl => exact .inl ⟨hs, rfl⟩
  | @tail a b hlater hnext ih =>
    rcases ih with ⟨hsilent, hnotes⟩ | ⟨a', b', ha', hnext', hb', hrest⟩
    · have hid' := Nat.lt_of_lt_of_le hid (nextId_le_of_later hm hlater s)
      have hreach := (hm.later hlater).view s
      obtain ⟨hsame, hsilent' | hforgets⟩ :=
        hreach.silent_step ((hm.later hlater).view_step hnext s) hid' hsilent
      · exact .inl ⟨hsilent', hsame.trans hnotes⟩
      · exact .inr ⟨a, b, hlater, hnext, .refl, hforgets⟩
    · exact .inr ⟨a', b', ha', hnext', hb'.tail hnext, hrest⟩

theorem not_silent_later {m m' : Machine} {s id : Nat} (hm : m.Reachable)
    (hr : .released id ∈ (m.view s).history) (hs : ¬ (m.view s).Silent id) (h : Later m m') :
    ¬ (m'.view s).Silent id ∨ ((m.view s).notes id).length < ((m'.view s).notes id).length := by
  induction h with
  | refl => exact .inl hs
  | @tail a b hlater hnext ih =>
    have hstep := (hm.later hlater).view_step hnext s
    have hr' := (history_grows_of_later hm hlater s).subset hr
    have hle := (View.notes_grow (history_grows_of_later hm hlater s) id).length_le
    have hle' := (View.notes_grow hstep.history_grows id).length_le
    rcases ih with hs' | hlt
    · rcases View.not_silent_step hstep hr' hs' with hs' | hlt
      · exact .inl hs'
      · exact .inr (Nat.lt_of_le_of_lt hle hlt)
    · exact .inr (Nat.lt_of_lt_of_le hlt hle')

theorem Forgotten.not_silent {m m' : Machine} {s id : Nat} (hm : m.Reachable)
    (hr : .released id ∈ (m.view s).history) (hf : m.Forgotten m' s id) :
    ¬ (m'.view s).Silent id ∨ ((m.view s).notes id).length < ((m'.view s).notes id).length := by
  obtain ⟨a, b, ha, hnext, hb, d, hd, hid⟩ := hf
  have hla : Later m b := ha.tail hnext
  have hs : ¬ (b.view s).Silent id := by
    have hstep := (hm.later ha).view_step hnext s
    exact ((hm.later ha).view s).not_silent_of_finish hstep hd hid
  have hle := (View.notes_grow (history_grows_of_later hm hla s) id).length_le
  have hr' := (history_grows_of_later hm hla s).subset hr
  rcases not_silent_later (hm.later hla) hr' hs hb with hs | hlt
  · exact .inl hs
  · exact .inr (Nat.lt_of_le_of_lt hle hlt)

theorem Reachable.view_released {m m₁ : Machine} {s id number : Nat} (hm : m.Reachable)
    (hc : m.control = .invoke ⟨number, .subscription s id, false⟩) (hmove : m.move = some m₁) :
    id < (m.view s).subject.nextId ∧ .released id ∉ (m.view s).history ∧
      m₁.view s = ⟨(m.view s).subject.detach id, (m.view s).deliveries,
        (m.view s).history ++ [.released id], (m.view s).next⟩ := by
  have hlive := hm.regular.sound.live s id
  obtain ⟨w, c, stack⟩ := m
  subst hc
  obtain rfl := Option.some.inj hmove
  have hself : [Handle.mk number (.subscription s id) false].countP (Handle.isFor s id) = 1 := by
    simp [Handle.isFor_subscription]
  simp only [countP_handles, Control.handles] at hlive
  obtain ⟨-, hs, hid, hr⟩ := hlive (by omega)
  exact ⟨hid, hr, view_release _ stack id hs⟩

/-- A released observer is not called again and no longer counted unless its release is unheeded, and
then it is called again or counted for ever. -/
theorem release_final_iff {m m₁ m' : Machine} {s id number : Nat} (hm : m.Reachable)
    (hc : m.control = .invoke ⟨number, .subscription s id, false⟩) (hmove : m.move = some m₁)
    (hlater : Later m₁ m') :
    (¬ m.Unheeded m₁ m' s id → (m'.view s).notes id = (m.view s).notes id) ∧
      (m'.deliveries s = [] →
        ((m'.view s).notes id = (m.view s).notes id ∧ id ∉ (m'.world.subject s).ids ↔
          ¬ m.Unheeded m₁ m' s id)) := by
  have hm₁ : m₁.Reachable := hm.later (.single (.move hmove))
  obtain ⟨hid, hr, hview⟩ := hm.view_released hc hmove
  have hsilent : (m₁.view s).Silent id ↔
      ¬ ((m.view s).subject.closed = true ∧ (m.view s).Attached id) := by
    rw [hview]
    exact (hm.view s).silent_release hid hr
  have hhistory : (m₁.view s).history = (m.view s).history ++ [.released id] :=
    congrArg View.history hview
  have hnotes : (m₁.view s).notes id = (m.view s).notes id := View.notes_release hhistory
  have hr₁ : .released id ∈ (m₁.view s).history := by simp [hhistory]
  have hid₁ : id < (m₁.view s).subject.nextId :=
    Nat.lt_of_lt_of_le hid (nextId_le_of_later hm (.single (.move hmove)) s)
  have hquiet (h : ¬ m.Unheeded m₁ m' s id) :
      (m'.view s).Silent id ∧ (m'.view s).notes id = (m.view s).notes id := by
    rw [Unheeded, not_or] at h
    rw [← hnotes]
    exact (silent_or_forgotten hm₁ hid₁ (hsilent.mpr h.1) hlater).resolve_right h.2
  have hloud (h : m.Unheeded m₁ m' s id) : ¬ (m'.view s).Silent id ∨
      ((m.view s).notes id).length < ((m'.view s).notes id).length := by
    rw [← hnotes]
    rcases h with h | hforgotten
    · exact not_silent_later hm₁ hr₁ (fun hs => hsilent.mp hs h) hlater
    · exact hforgotten.not_silent hm₁ hr₁
  refine ⟨fun h => (hquiet h).2, fun hd => ⟨?_, fun h => ⟨(hquiet h).2, fun hids => ?_⟩⟩⟩
  · rintro ⟨hsame, hids⟩ hunheeded
    rcases hloud hunheeded with hs | hlt
    · obtain ⟨ha | ⟨d, hmem, -⟩, -⟩ := View.not_silent_iff.mp hs
      · exact hids ha
      · have hnil : (m'.view s).deliveries = [] := hd
        rw [hnil] at hmem
        cases hmem
    · rw [hsame] at hlt
      exact Nat.lt_irrefl _ hlt
  · have hmarked := (hquiet h).1 (.inl hids)
    exact (((hm₁.later hlater).view s).marked id hmarked).1 hids

/-- The first of two observers is released, releases the other one and tells one more value. -/
def overtaking : List Step :=
  [.subject "s" none,
    .subscribe "s" ⟨"A", [.releaseHandle "a", .releaseHandle "b", .next "s" 2], none, none⟩ "a"
      none,
    .subscribe "s" ⟨"B", [], none, none⟩ "b" none]

def overtaken (s : Step) (moves : Nat) : Machine := run moves ⟨(after overtaking).world, .run s, []⟩

theorem reachable_overtaken (s : Step) (moves : Nat) : (overtaken s moves).Reachable :=
  (reachable_after overtaking).later (later_step rfl s moves)

theorem overtaken_release_final :
    (((overtaken (.releaseHandle "b") 4).view 0).notes 1 =
        ((overtaken (.releaseHandle "b") 1).view 0).notes 1 ∧
        1 ∉ ((overtaken (.releaseHandle "b") 4).world.subject 0).ids ↔
      ¬ (overtaken (.releaseHandle "b") 1).Unheeded (overtaken (.releaseHandle "b") 2)
        (overtaken (.releaseHandle "b") 4) 0 1) ∧
    (((overtaken (.next "s" 1) 15).view 0).notes 1 = ((overtaken (.next "s" 1) 7).view 0).notes 1 ∧
        1 ∉ ((overtaken (.next "s" 1) 15).world.subject 0).ids ↔
      ¬ (overtaken (.next "s" 1) 7).Unheeded (overtaken (.next "s" 1) 8)
        (overtaken (.next "s" 1) 15) 0 1) := by
  have hfirst : Later (overtaken (.releaseHandle "b") 2) (overtaken (.releaseHandle "b") 4) :=
    later_run 2 _
  have hsecond : Later (overtaken (.next "s" 1) 8) (overtaken (.next "s" 1) 15) := later_run 7 _
  constructor
  · exact (release_final_iff (reachable_overtaken _ _) rfl rfl hfirst).2 rfl
  · exact (release_final_iff (reachable_overtaken _ _) rfl rfl hsecond).2 rfl

/-- The second observer is released, hears one more value, and is counted to the end. -/
theorem overtaken_unheeded : ∃ (m m₁ m' : Machine) (h : Handle), m.Reachable ∧
    m.control = .invoke ⟨h.number, .subscription 0 1, false⟩ ∧ m.move = some m₁ ∧
    m₁.control = .released ⟨h.number, .subscription 0 1, true⟩ none ∧ Later m₁ m' ∧
    m'.deliveries 0 = [] ∧ .called (some 1) 1 (.next 1) ∉ m₁.world.history 0 ∧
    .called (some 1) 1 (.next 1) ∈ m'.world.history 0 ∧ 1 ∈ (m'.world.subject 0).ids := by
  refine ⟨overtaken (.next "s" 1) 7, overtaken (.next "s" 1) 8, overtaken (.next "s" 1) 15,
    ⟨1, .subscription 0 1, false⟩, reachable_overtaken _ _, rfl, rfl, rfl, later_run 7 _, rfl,
    ?_, ?_, ?_⟩
  · decide
  · decide
  · decide

end Machine

end Subscriptions.Tracker
