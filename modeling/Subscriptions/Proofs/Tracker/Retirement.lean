import Subscriptions.Proofs.Tracker.Draining
import Subscriptions.Proofs.Tracker.Release

namespace Subscriptions.Tracker

namespace View

variable {v v' : View} {id : Nat}

/-- Nothing comes to the observer any more: it awaits nothing, or its subject is closed and nothing
is in progress there. -/
structure Retired (v : View) (id : Nat) : Prop where
  subscribed : id < v.subject.nextId
  quiet : ¬ v.Awaits id ∨ v.subject.closed = true ∧ v.deliveries = []

theorem Retired.step (hr : v.Retired id) (h : v.Step v') :
    v'.Retired id ∧ v'.notes id = v.notes id := by
  obtain ⟨hid, hquiet⟩ := hr
  have hid' : id < v'.subject.nextId := Nat.lt_of_lt_of_le hid h.nextId_le
  rcases hquiet with hna | ⟨hclosed, hnone⟩
  · have hna' : ¬ v'.Awaits id := by
      intro ha
      rcases ha.of_step h with ha | ⟨rfl, -⟩
      · exact hna ha
      · exact Nat.lt_irrefl _ hid
    refine ⟨⟨hid', .inl hna'⟩, ?_⟩
    cases h with
    | idle | subscribe | start | skip | finish => rfl
    | late o h =>
      have hne : v.subject.nextId ≠ id := Nat.ne_of_gt hid
      simp [notes, Happening.noteTo?, hne]
    | @call d ds x o rest hd hw h =>
      have hne : x ≠ id := by
        rintro rfl
        exact hna (.inr ⟨d, by simp [hd], .inl (by simp [hw])⟩)
      simp [notes, Happening.noteTo?, hne]
    | release x hx h => exact notes_release rfl
  · cases h with
    | idle => exact ⟨⟨hid', .inr ⟨hclosed, hnone⟩⟩, rfl⟩
    | subscribe o h =>
      rw [hclosed] at h
      cases h
    | late o h =>
      have hne : v.subject.nextId ≠ id := Nat.ne_of_gt hid
      exact ⟨⟨hid', .inr ⟨hclosed, hnone⟩⟩, by simp [notes, Happening.noteTo?, hne]⟩
    | start note h =>
      have hopen := (Subject.begin?_eq_some h).1
      rw [hclosed] at hopen
      cases hopen
    | call hd | skip hd | finish hd =>
      rw [hnone] at hd
      cases hd
    | release x hx h =>
      refine ⟨⟨hid', .inr ⟨?_, hnone⟩⟩, notes_release rfl⟩
      exact (Subject.closed_detach _ _).trans hclosed

theorem Retired.later (hr : v.Retired id) (h : Relation.ReflTransGen Step v v') :
    v'.Retired id ∧ v'.notes id = v.notes id := by
  induction h with
  | refl => exact ⟨hr, rfl⟩
  | tail _ h ih =>
    obtain ⟨hr', hsame⟩ := ih.1.step h
    exact ⟨hr', hsame.trans ih.2⟩

/-- A release while no delivery is in progress takes the observer out of its subject. -/
theorem Reachable.retired_release (hv : v.Reachable) (hid : id < v.subject.nextId)
    (hnone : v.deliveries = []) (history : List Happening) (next : Nat) :
    View.Retired ⟨v.subject.detach id, v.deliveries, history, next⟩ id := by
  refine ⟨Nat.lt_of_lt_of_eq hid (Subject.nextId_detach _ _).symm, ?_⟩
  cases hc : v.subject.closed with
  | true => exact .inr ⟨(Subject.closed_detach _ _).trans hc, hnone⟩
  | false =>
    refine .inl ?_
    rintro (hhome | ⟨d, hd, -⟩)
    · have hn := hv.nodup
      rw [listed, List.nodup_append] at hn
      exact Subject.not_mem_ids_detach hc hn.2.1 hhome
    · simp only [hnone] at hd
      cases hd

end View

namespace Machine

variable {m m' : Machine} {ms : List Machine} {r s id : Nat} {purpose : DrainPurpose}
  {base : List Frame} {x : Handle}

/-- A drain that begins while nothing is delivered has no delivery below it. -/
theorem deliveries_base (hm : m.Reachable) (hnone : m.deliveries s = [])
    (hmove : m.move = some (drain m.world r purpose base)) :
    base.filterMap (Frame.delivery? s) = [] := by
  have hdrain : (drain m.world r purpose base).deliveries s = base.filterMap (Frame.delivery? s) ∧
      ((drain m.world r purpose base).view s).next = (m.view s).next := by
    cases hr : (m.world.registry r).handles with
    | nil =>
      rw [drain_of_nil hr]
      exact ⟨List.filterMap_cons_none rfl, rfl⟩
    | cons y rest =>
      rw [drain_of_cons hr]
      exact ⟨List.filterMap_cons_none rfl, rfl⟩
  have hm' : (m.view s).deliveries = [] := hnone
  rcases (hm.view_step (.move hmove) s).deliveries with hd | ⟨note, out, -, hnext⟩ | ⟨d, ds, hd, -⟩
  · rw [← hdrain.1]
    exact hd.trans hm'
  · rw [hdrain.2] at hnext
    exact absurd hnext (Nat.ne_of_lt (Nat.lt_succ_self _))
  · rw [hm'] at hd
    cases hd

/-- In a drain that begins while nothing is delivered each subscription that was stored has its turn,
and from then on its observer hears nothing, unless the subscription is spent and the observer is
still attached. -/
theorem drain_final_iff (hm : m.Reachable) (hnone : ∀ s, m.deliveries s = [])
    (hmove : m.move = some (drain m.world r purpose base))
    (h : Trail (drain m.world r purpose base) ms m')
    (hdeep : ∀ a ∈ ms, base.length < a.stack.length) (hle : m'.stack.length ≤ base.length)
    (hx : x ∈ (m.world.registry r).handles) (hs : x.resource = .subscription s id) :
    ∃ before a after b, ms = before ++ a :: after ∧ a.control = .invoke x ∧ Next a b ∧
      Trail b after m' ∧
      ((b.view s).Retired id ↔ x.spent = false ∨ (a.view s).Retired id) ∧
      ((b.view s).Retired id →
        ∀ m'', Later m' m'' → (m''.view s).notes id = (a.view s).notes id) := by
  obtain ⟨before, a, after, b, he, hc, hbefore, hn, hafter, rest, report, hstack⟩ :=
    exists_turn hm hmove h hdeep hle hx
  have ha : a.Reachable := hbefore.reachable (hm.tail (.move hmove))
  have hb : b.Reachable := ha.tail hn
  have hnone' : (a.view s).deliveries = [] := by
    change a.stack.filterMap (Frame.delivery? s) = []
    rw [hstack, List.filterMap_cons_none rfl]
    exact deliveries_base hm (hnone s) hmove
  have hmove' : a.move = some (invoke a.world x a.stack) := by
    obtain ⟨w, c, stack⟩ := a
    obtain rfl : c = _ := hc
    rfl
  obtain rfl := hn.eq_of_move hmove'
  obtain ⟨number, resource, spent⟩ := x
  obtain rfl : resource = .subscription s id := hs
  have hturn : spent = false ∧
      ((invoke a.world ⟨number, .subscription s id, spent⟩ a.stack).view s).Retired id ∧
      ((invoke a.world ⟨number, .subscription s id, spent⟩ a.stack).view s).notes id =
        (a.view s).notes id ∨ spent = true ∧
      (invoke a.world ⟨number, .subscription s id, spent⟩ a.stack).view s = a.view s := by
    cases spent with
    | true => exact .inr ⟨rfl, rfl⟩
    | false =>
      obtain ⟨hid, -, hview⟩ := ha.view_released hc hmove'
      rw [hview]
      exact .inl ⟨rfl, (ha.view s).retired_release hid hnone' _ _, View.notes_release rfl⟩
  refine ⟨before, a, after, _, he, hc, hn, hafter, ?_, fun hr m'' hlater => ?_⟩
  · rcases hturn with ⟨hfresh, hr, -⟩ | ⟨hspent, hview⟩
    · exact ⟨fun _ => .inl hfresh, fun _ => hr⟩
    · rw [hview]
      simp [hspent]
  · have hlast := (hr.later (hb.view_later (hafter.later.trans hlater) s)).2
    rcases hturn with ⟨-, -, hnotes⟩ | ⟨-, hview⟩
    · exact hlast.trans hnotes
    · rw [hlast, hview]

/-- A registry with a teardown that tells a value and fails, and with the subscription of the observer
that hears it. -/
def dismissing : List Step :=
  [.registry "r",
    .subject "s" none,
    .acquire "r" ⟨"a", [.next "s" 1], some (.failed "late")⟩,
    .subscribe "s" ⟨"B", [], none, none⟩ "b" (some "r")]

def dismissed : Machine := ⟨(after dismissing).world, .run (.releaseAll "r"), []⟩

theorem dismissed_final : ∃ ms m', Trail (drain dismissed.world 1 .report []) ms m' ∧
    m'.stack = [] ∧ (m'.view 0).notes 0 = [.next 1] ∧
    ∀ m'', Later m' m'' → (m''.view 0).notes 0 = [.next 1] := by
  have hreach : dismissed.Reachable := (reachable_after dismissing).tail (.step rfl _)
  have htrail := trail_run 9 (drain dismissed.world 1 .report [])
  have hdeep : ∀ a ∈ trace 9 (drain dismissed.world 1 .report []), 0 < a.stack.length := by
    decide
  have hx : ⟨1, .subscription 0 0, false⟩ ∈ (dismissed.world.registry 1).handles :=
    List.mem_cons_of_mem _ List.mem_cons_self
  have hnotes : ((run 9 (drain dismissed.world 1 .report [])).view 0).notes 0 = [.next 1] := by
    decide
  obtain ⟨before, a, after, b, -, -, -, -, hretired, hfinal⟩ :=
    drain_final_iff hreach (fun s => rfl) rfl htrail hdeep (Nat.le_refl _) hx rfl
  have hlast := hfinal (hretired.mpr (.inl rfl))
  refine ⟨_, _, htrail, rfl, hnotes, fun m'' hlater => ?_⟩
  rw [hlast m'' hlater, ← hlast _ .refl, hnotes]

/-- Two observers: the first one releases the other, tells one more value and leaves. The
subscription of the other one then goes to a registry. -/
def outlasting : List Step :=
  [.subject "s" none,
    .subscribe "s" ⟨"A", [.releaseHandle "b", .next "s" 2, .releaseHandle "a"], none, none⟩ "a"
      none,
    .subscribe "s" ⟨"B", [], none, none⟩ "b" none,
    .next "s" 1,
    .registry "r",
    .trackHandle "b" "r"]

def outlasted : Machine := ⟨(after outlasting).world, .run (.releaseAll "r"), []⟩

theorem reachable_outlasted : outlasted.Reachable :=
  (reachable_after outlasting).tail (.step rfl _)

theorem outlasted_not_final : ∃ (ms : List Machine) (m' m'' : Machine) (x : Handle),
    outlasted.Reachable ∧ (∀ s, outlasted.deliveries s = []) ∧
    outlasted.move = some (drain outlasted.world 1 .report []) ∧
    x ∈ (outlasted.world.registry 1).handles ∧ x.resource = .subscription 0 1 ∧
    Trail (drain outlasted.world 1 .report []) ms m' ∧ (∀ a ∈ ms, 0 < a.stack.length) ∧
    m'.stack = [] ∧ Later m' m'' ∧ (m'.view 0).notes 1 = [.next 1] ∧
    (m''.view 0).notes 1 = [.next 1, .next 3] := by
  have hlast : Later (run 2 (drain outlasted.world 1 .report [])) (run patience
      ⟨(run 3 (drain outlasted.world 1 .report [])).world, .run (.next "s" 3), []⟩) :=
    (later_run 1 (run 2 (drain outlasted.world 1 .report []))).trans (later_step rfl _ _)
  refine ⟨_, _, _, ⟨1, .subscription 0 1, true⟩, reachable_outlasted, fun s => rfl, rfl, ?_, rfl,
    trail_run 2 _, ?_, rfl, hlast, ?_, ?_⟩
  · exact List.mem_cons_self
  · decide
  · decide
  · decide

end Machine

end Subscriptions.Tracker
