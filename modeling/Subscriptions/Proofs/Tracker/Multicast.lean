import Subscriptions.Proofs.Tracker.Notices
import Subscriptions.Proofs.Tracker.Simulation

namespace Subscriptions.Tracker

namespace View

variable {v v' : View} {n id : Nat} {note : Notification}

/-- The observer is out with that delivery and has its turn before it. -/
def Waits (v : View) (n : Nat) (note : Notification) (id : Nat) : Prop :=
  ∃ d ∈ v.deliveries, d.number = n ∧ d.note = note ∧ id ∈ d.waiting.map Prod.fst

theorem Waits.step (hw : v.Waits n note id) (h : v.Step v') :
    v'.Waits n note id ∨ .called (some n) id note ∈ v'.history ∨ id ∈ v.subject.detached := by
  obtain ⟨d, hm, hn, hnote, hid⟩ := hw
  -- A turn that passes is that of the observer itself, or changes nothing for it.
  have hturn {d' : Delivery} {ds : List Delivery} {x : Nat} {o : Observer Program}
      {rest : List (Nat × Observer Program)} (hd : v.deliveries = d' :: ds)
      (hw : d'.waiting = (x, o) :: rest) :
      (d = d' ∧ id = x) ∨ ∃ e ∈ d'.pass :: ds,
        e.number = n ∧ e.note = note ∧ id ∈ e.waiting.map Prod.fst := by
    rw [hd] at hm
    rcases List.mem_cons.mp hm with rfl | hm
    · rcases (Delivery.mem_waiting hw).mp hid with hid | hid
      · exact .inl ⟨rfl, hid⟩
      · exact .inr ⟨d.pass, List.mem_cons_self, hn, hnote, hid⟩
    · exact .inr ⟨d, List.mem_cons_of_mem _ hm, hn, hnote, hid⟩
  cases h with
  | idle | subscribe | late | release => exact .inl ⟨d, hm, hn, hnote, hid⟩
  | start => exact .inl ⟨d, List.mem_cons_of_mem _ hm, hn, hnote, hid⟩
  | call hd hw h =>
    rcases hturn hd hw with ⟨rfl, rfl⟩ | hturn
    · subst hn hnote
      exact .inr (.inl (by simp))
    · exact .inl hturn
  | skip hd hw h =>
    rcases hturn hd hw with ⟨-, rfl⟩ | hturn
    · exact .inr (.inr (by simpa [Subject.isDetached] using h))
    · exact .inl hturn
  | finish hd hw =>
    rw [hd] at hm
    rcases List.mem_cons.mp hm with rfl | hm
    · simp [hw] at hid
    · exact .inl ⟨d, hm, hn, hnote, hid⟩

/-- A delivery has to do with no observers but these. -/
structure Confined (v : View) (n : Nat) (ids : List Nat) : Prop where
  begun : n < v.next
  out : ∀ d ∈ v.deliveries, d.number = n → ∀ id ∈ d.ids, id ∈ ids
  called : ∀ id note, .called (some n) id note ∈ v.history → id ∈ ids

theorem Confined.step {ids : List Nat} (hc : v.Confined n ids) (h : v.Step v') :
    v'.Confined n ids := by
  refine ⟨Nat.lt_of_lt_of_le hc.begun h.next_le, ?_, ?_⟩
  · intro d hd hn id hid
    rcases h.deliveries with he | ⟨note, out, he, -⟩ | ⟨d', ds, hd', he | he⟩
    · exact hc.out d (he ▸ hd) hn id hid
    · rw [he] at hd
      rcases List.mem_cons.mp hd with rfl | hd
      · exact absurd hc.begun (Nat.not_lt_of_ge (Nat.le_of_eq hn))
      · exact hc.out d hd hn id hid
    · rw [he] at hd
      rcases List.mem_cons.mp hd with rfl | hd
      · rw [Delivery.ids_pass] at hid
        exact hc.out d' (by simp [hd']) hn id hid
      · exact hc.out d (by simp [hd', hd]) hn id hid
    · rw [he] at hd
      exact hc.out d (by simp [hd', hd]) hn id hid
  · intro id note hm
    cases h with
    | idle | subscribe | start | skip | finish => exact hc.called id note hm
    | late | release => exact hc.called id note (by simpa using hm)
    | @call d ds x o rest hd hw h =>
      rcases List.mem_append.mp hm with hm | hm
      · exact hc.called id note hm
      · simp only [List.mem_singleton, Happening.called.injEq, Option.some.injEq] at hm
        obtain ⟨hn, rfl, -⟩ := hm
        exact hc.out d (by simp [hd]) hn.symm id (by simp [Delivery.ids, hw])

theorem Waits.mem_of_confined {ids : List Nat} (hw : v.Waits n note id) (hc : v.Confined n ids) :
    id ∈ ids := by
  obtain ⟨d, hd, hn, -, hid⟩ := hw
  exact hc.out d hd hn id (List.mem_append_right _ hid)

end View

namespace Machine

/-- The delivery with that number has called the observer, or has passed it over since it had been
released before its turn. -/
def Reaches (m m' : Machine) (s n : Nat) (note : Notification) (id : Nat) : Prop :=
  .called (some n) id note ∈ m'.world.history s ∨
    ∃ a, Later m a ∧ Later a m' ∧ (a.view s).Waits n note id ∧ .released id ∈ a.world.history s

theorem waits_or_reaches {m m' : Machine} {s n id : Nat} {note : Notification}
    (hm : m.Reachable) (hw : (m.view s).Waits n note id) (h : Later m m') :
    (m'.view s).Waits n note id ∨ m.Reaches m' s n note id := by
  induction h with
  | refl => exact .inl hw
  | @tail a b hlater hnext ih =>
    have hstep := (hm.later hlater).view_step hnext s
    rcases ih with ih | hcalled | ⟨a', hma', ha', hrest⟩
    · rcases ih.step hstep with hwaits | hcalled | hmarked
      · exact .inl hwaits
      · exact .inr (.inl hcalled)
      · have hreleased := (((hm.later hlater).view s).marked id hmarked).2
        exact .inr (.inr ⟨a, hlater, .single hnext, ih, hreleased⟩)
    · exact .inr (.inl (hstep.history_grows.subset hcalled))
    · exact .inr (.inr ⟨a', hma', ha'.tail hnext, hrest⟩)

theorem confined_of_later {m m' : Machine} {s n : Nat} {ids : List Nat} (hm : m.Reachable)
    (hc : (m.view s).Confined n ids) (h : Later m m') : (m'.view s).Confined n ids := by
  induction h with
  | refl => exact hc
  | tail hlater hnext ih => exact ih.step ((hm.later hlater).view_step hnext s)

/-- A value that is told while the subject is open goes to those subscribed observers that are not out
with a delivery in progress, and to no others: at any time they wait for it or it has reached them. -/
theorem next_reaches_iff {m m₁ m' : Machine} {s id : Nat} {name : String} {value : Int}
    (hm : m.Reachable) (hc : m.control = .run (tell name (.next value)))
    (hs : m.world.subjectNames.lookup name = some s) (hopen : (m.world.subject s).closed = false)
    (hmove : m.move = some m₁) (hlater : Later m₁ m') (hid : id < (m.world.subject s).nextId)
    (hr : .released id ∉ m.world.history s) :
    ((m'.view s).Waits (m.world.deliveryCount + 1) (.next value) id ∨
        m₁.Reaches m' s (m.world.deliveryCount + 1) (.next value) id ↔ id ∉ (m.view s).out) ∧
      ((∀ d ∈ m'.deliveries s, d.number ≠ m.world.deliveryCount + 1) →
        (m₁.Reaches m' s (m.world.deliveryCount + 1) (.next value) id ↔
          id ∉ (m.view s).out)) := by
  have hv := hm.view s
  have hm₁ : m₁.Reachable := hm.later (.single (.move hmove))
  have hhome := hv.mem_ids_iff (hv.attached_of_open hopen hid hr)
  have hview := hm.view_told hc hs hopen hmove
  have hconfined : (m₁.view s).Confined (m.world.deliveryCount + 1) (m.world.subject s).ids := by
    rw [hview]
    refine ⟨Nat.lt_succ_self _, fun d hd hn x hx => ?_, fun x note hx => ?_⟩
    · rcases List.mem_cons.mp hd with rfl | hd
      · exact hx
      · exact absurd (hv.numbered.2 d hd) (Nat.not_lt_of_ge (Nat.le_of_eq hn.symm))
    · exact absurd (hv.called _ x note hx).1 (Nat.lt_irrefl _)
  have hreached (h : m₁.Reaches m' s (m.world.deliveryCount + 1) (.next value) id) :
      id ∈ (m.world.subject s).ids := by
    rcases h with hcalled | ⟨a, ha, -, hwaits, -⟩
    · exact (confined_of_later hm₁ hconfined hlater).called id _ hcalled
    · exact hwaits.mem_of_confined (confined_of_later hm₁ hconfined ha)
  have hiff : (m'.view s).Waits (m.world.deliveryCount + 1) (.next value) id ∨
      m₁.Reaches m' s (m.world.deliveryCount + 1) (.next value) id ↔ id ∉ (m.view s).out := by
    rw [← hhome]
    constructor
    · rintro (hwaits | hreaches)
      · exact hwaits.mem_of_confined (confined_of_later hm₁ hconfined hlater)
      · exact hreached hreaches
    · intro hmem
      have hwaits : (m₁.view s).Waits (m.world.deliveryCount + 1) (.next value) id := by
        rw [hview]
        exact ⟨_, List.mem_cons_self, rfl, rfl, hmem⟩
      exact waits_or_reaches hm₁ hwaits hlater
  refine ⟨hiff, fun hover => ?_⟩
  rw [← hiff]
  constructor
  · exact .inr
  · rintro (⟨d, hd, hn, -⟩ | hreaches)
    · exact absurd hn (hover d hd)
    · exact hreaches

/-- The first of two observers is released and tells one more value, all from inside its callback. -/
def relaying : List Step :=
  [.subject "s" none,
    .subscribe "s" ⟨"A", [.releaseHandle "a", .next "s" 2], none, none⟩ "a" none,
    .subscribe "s" ⟨"B", [], none, none⟩ "b" none]

def relayed (moves : Nat) : Machine := run moves ⟨(after relaying).world, .run (.next "s" 1), []⟩

theorem reachable_relayed (moves : Nat) : (relayed moves).Reachable :=
  (reachable_after relaying).later (later_step rfl _ moves)

theorem relayed_reaches :
    ((relayed 1).Reaches (relayed 11) 0 1 (.next 1) 1 ↔ 1 ∉ ((relayed 0).view 0).out) ∧
      ((relayed 7).Reaches (relayed 11) 0 2 (.next 2) 1 ↔ 1 ∉ ((relayed 6).view 0).out) := by
  have hfirst : (relayed 0).control = .run (tell "s" (.next 1)) := rfl
  have hsecond : (relayed 6).control = .run (tell "s" (.next 2)) := rfl
  have hlater : Later (relayed 1) (relayed 11) := later_run 10 _
  have hlater' : Later (relayed 7) (relayed 11) := later_run 4 _
  constructor
  · exact (next_reaches_iff (reachable_relayed 0) hfirst rfl rfl rfl hlater (by decide)
      (by decide)).2 (by decide)
  · exact (next_reaches_iff (reachable_relayed 6) hsecond rfl rfl rfl hlater' (by decide)
      (by decide)).2 (by decide)

/-- The second observer is subscribed all the time, and never hears the second value. -/
theorem relayed_misses : ∃ m m₁ m' : Machine, m.Reachable ∧ m.control = .run (.next "s" 2) ∧
    m.world.subjectNames.lookup "s" = some 0 ∧ (m.world.subject 0).closed = false ∧
    m.move = some m₁ ∧ Later m₁ m' ∧ m'.deliveries 0 = [] ∧ m'.move = none ∧
    1 < (m.world.subject 0).nextId ∧ .released 1 ∉ m'.world.history 0 ∧
    (m'.world.subject 0).closed = false ∧
    ∀ number, .called number 1 (.next 2) ∉ m'.world.history 0 := by
  have hhistory : (relayed 11).world.history 0 =
    [.called (some 1) 0 (.next 1), .released 0, .called (some 1) 1 (.next 1)] := rfl
  refine ⟨relayed 6, relayed 7, relayed 11, reachable_relayed 6, rfl, rfl, rfl, rfl,
    later_run 4 _, rfl, rfl, by decide, ?_, rfl, ?_⟩
  · rw [hhistory]
    simp
  · rw [hhistory]
    simp

end Machine

end Subscriptions.Tracker
