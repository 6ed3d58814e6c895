import Subscriptions.Proofs.Tracker.Listing

namespace Subscriptions.Tracker

def Happening.noteTo? (x : Nat) : Happening → Option Notification
  | .called _ id note => if id = x then some note else none
  | .released _ => none

def Happening.callBy? (n : Nat) : Happening → Option (Nat × Notification)
  | .called (some number) id note => if number = n then some (id, note) else none
  | .called none .. | .released _ => none

namespace View

variable {v v' : View}

def notes (v : View) (id : Nat) : List Notification := v.history.filterMap (Happening.noteTo? id)

def calls (v : View) (n : Nat) : List (Nat × Notification) :=
  v.history.filterMap (Happening.callBy? n)

theorem mem_notes {id : Nat} {note : Notification} :
    note ∈ v.notes id ↔ ∃ number, .called number id note ∈ v.history := by
  simp only [notes, List.mem_filterMap]
  constructor
  · rintro ⟨x, hx, h⟩
    cases x with
    | called number id' note' =>
      simp only [Happening.noteTo?, Option.ite_none_right_eq_some, Option.some.injEq] at h
      obtain ⟨rfl, rfl⟩ := h
      exact ⟨number, hx⟩
    | released id' => cases h
  · rintro ⟨number, h⟩
    exact ⟨_, h, by simp [Happening.noteTo?]⟩

theorem mem_calls {n id : Nat} {note : Notification} :
    (id, note) ∈ v.calls n ↔ .called (some n) id note ∈ v.history := by
  simp only [calls, List.mem_filterMap]
  constructor
  · rintro ⟨x, hx, h⟩
    cases x with
    | called number id' note' =>
      cases number with
      | none => cases h
      | some k =>
        simp only [Happening.callBy?, Option.ite_none_right_eq_some, Option.some.injEq,
          Prod.mk.injEq] at h
        obtain ⟨rfl, rfl, rfl⟩ := h
        exact hx
    | released id' => cases h
  · intro h
    exact ⟨_, h, by simp [Happening.callBy?]⟩

theorem ended_iff {id : Nat} : v.Ended id ↔ ∃ note ∈ v.notes id, note.isTerminal = true := by
  constructor
  · rintro ⟨number, note, h, ht⟩
    exact ⟨note, mem_notes.mpr ⟨number, h⟩, ht⟩
  · rintro ⟨note, h, ht⟩
    obtain ⟨number, h⟩ := mem_notes.mp h
    exact ⟨number, note, h, ht⟩

theorem Ended.mono {id : Nat} (h : v.history <+: v'.history) (he : v.Ended id) : v'.Ended id := by
  obtain ⟨number, note, hm, ht⟩ := he
  exact ⟨number, note, h.subset hm, ht⟩

/-- No observer comes to await anything but by subscribing. -/
theorem Awaits.of_step {id : Nat} (h : v.Step v') (ha : v'.Awaits id) :
    v.Awaits id ∨ id = v.subject.nextId ∧ v.subject.closed = false := by
  cases h with
  | idle => exact .inl ha
  | subscribe o h =>
    rcases ha with ha | ha
    · rw [Subject.ids_subscribe_of_open h] at ha
      rcases List.mem_append.mp ha with ha | ha
      · exact .inl (.inl ha)
      · exact .inr ⟨List.mem_singleton.mp ha, h⟩
    · exact .inl (.inr ha)
  | late o h =>
    rw [Subject.subscribe_of_closed h] at ha
    exact .inl ha
  | start note h =>
    obtain ⟨-, rfl, rfl⟩ := Subject.begin?_eq_some h
    left
    rcases ha with ha | ⟨d, hd, ha⟩
    · cases ha
    · rcases List.mem_cons.mp hd with rfl | hd
      · rcases ha with ha | ⟨-, ha⟩
        · exact .inl ha
        · cases ha
      · exact .inr ⟨d, hd, ha⟩
  | @call d ds x o rest hd hw h | @skip d ds x o rest hd hw h =>
    left
    rcases ha with ha | ⟨d', hd', ha⟩
    · exact .inl ha
    · rcases List.mem_cons.mp hd' with rfl | hd'
      · refine .inr ⟨d, by simp [hd], ?_⟩
        rw [Delivery.note_pass, Delivery.mem_served_pass hw] at ha
        rw [Delivery.mem_waiting hw]
        tauto
      · exact .inr ⟨d', by simp [hd, hd'], ha⟩
  | @finish d ds hd hw =>
    left
    rcases ha with ha | ⟨d', hd', ha⟩
    · cases ht : d.note.isTerminal with
      | true =>
        rw [ht, Subject.ids_finish_true] at ha
        exact .inl ha
      | false =>
        rw [ht, Subject.ids_finish_false] at ha
        rcases List.mem_append.mp ha with ha | ha
        · exact .inr ⟨d, by simp [hd], .inr ⟨ht, (List.mem_filter.mp ha).1⟩⟩
        · exact .inl ha
    · exact .inr ⟨d', by simp [hd, hd'], ha⟩
  | release x hx h =>
    left
    rcases ha with ha | ha
    · exact .inl ((Subject.ids_detach_sublist _ _).subset ha)
    · exact .inr ha

/-- Whoever awaits something has not heard the end. -/
theorem Reachable.not_ended (hv : v.Reachable) : ∀ id, v.Awaits id → ¬ v.Ended id := by
  refine hv.invariant (fun id _ h => by simp [fresh, Ended] at h) ?_
  intro v v' hv ih h id ha he
  have hlt : v.Awaits id ∨ id = v.subject.nextId ∧ v.subject.closed = false := ha.of_step h
  -- An observer that subscribes just now has no history.
  have hnew : ¬ v.Ended id := by
    rcases hlt with hlt | ⟨rfl, -⟩
    · exact ih id hlt
    · rintro ⟨number, note, hm, -⟩
      exact Nat.lt_irrefl _ (hv.history_lt _ hm)
  obtain ⟨number, note, hm, ht⟩ := he
  cases h with
  | idle | subscribe | start | skip | finish => exact hnew ⟨number, note, hm, ht⟩
  | late o h =>
    rcases List.mem_append.mp hm with hm | hm
    · exact hnew ⟨number, note, hm, ht⟩
    · obtain ⟨-, rfl, -⟩ := Happening.called.inj (List.mem_singleton.mp hm)
      rcases hlt with hlt | ⟨-, hopen⟩
      · exact Nat.lt_irrefl _ (hv.lt_of_awaits hlt)
      · rw [h] at hopen; cases hopen
  | @call d ds x o rest hd hw h =>
    rcases List.mem_append.mp hm with hm | hm
    · exact hnew ⟨number, note, hm, ht⟩
    · obtain ⟨-, rfl, rfl⟩ := Happening.called.inj (List.mem_singleton.mp hm)
      obtain ⟨-, hrest, hds, hids⟩ := hv.turn_unique hd hw
      rcases ha with ha | ⟨d', hd', ha⟩
      · exact hids ha
      · rcases List.mem_cons.mp hd' with rfl | hd'
        · rcases ha with ha | ⟨hf, -⟩
          · rw [Delivery.waiting_pass hw] at ha
            exact hrest ha
          · rw [Delivery.note_pass, ht] at hf
            cases hf
        · exact hds (mem_outIds_of_awaits hd' ha)
  | release x hx h =>
    rcases List.mem_append.mp hm with hm | hm
    · exact hnew ⟨number, note, hm, ht⟩
    · cases List.mem_singleton.mp hm

/-- Whoever awaits something goes on to, unless it is marked, has just heard the end, or has just
been released. -/
theorem Awaits.step {id : Nat} (ha : v.Awaits id) (h : v.Step v') :
    v'.Awaits id ∨ id ∈ v.subject.detached ∨
      (∃ number note, v'.history = v.history ++ [.called number id note] ∧
        note.isTerminal = true) ∨
      .released id ∉ v.history ∧ v'.history = v.history ++ [.released id] := by
  -- A turn taken leaves the others where they were.
  have hturn {d : Delivery} {ds : List Delivery} {x : Nat} {o : Observer Program}
      {rest : List (Nat × Observer Program)} (hd : v.deliveries = d :: ds)
      (hw : d.waiting = (x, o) :: rest) (hx : id ≠ x ∨ d.note.isTerminal = false) :
      id ∈ v.subject.ids ∨ ∃ d' ∈ d.pass :: ds, id ∈ d'.waiting.map Prod.fst ∨
        d'.note.isTerminal = false ∧ id ∈ d'.served.map Prod.fst := by
    rcases ha with ha | ⟨d', hd', ha⟩
    · exact .inl ha
    · rw [hd] at hd'
      rcases List.mem_cons.mp hd' with rfl | hd'
      · refine .inr ⟨d'.pass, List.mem_cons_self, ?_⟩
        rw [Delivery.mem_waiting hw] at ha
        rw [Delivery.note_pass, Delivery.mem_served_pass hw]
        tauto
      · exact .inr ⟨d', List.mem_cons_of_mem _ hd', ha⟩
  cases h with
  | idle => exact .inl ha
  | subscribe o h =>
    refine .inl (ha.imp_left fun ha => ?_)
    rw [Subject.ids_subscribe_of_open h]
    exact List.mem_append_left _ ha
  | late o h =>
    left
    rw [Subject.subscribe_of_closed h]
    exact ha
  | start note h =>
    obtain ⟨-, rfl, rfl⟩ := Subject.begin?_eq_some h
    rcases ha with ha | ⟨d, hd, ha⟩
    · exact .inl (.inr ⟨_, List.mem_cons_self, .inl ha⟩)
    · exact .inl (.inr ⟨d, List.mem_cons_of_mem _ hd, ha⟩)
  | @call d ds x o rest hd hw h =>
    by_cases hx : id = x
    · subst hx
      cases ht : d.note.isTerminal with
      | true => exact .inr (.inr (.inl ⟨some d.number, d.note, rfl, ht⟩))
      | false => exact .inl (hturn hd hw (.inr ht))
    · exact .inl (hturn hd hw (.inl hx))
  | @skip d ds x o rest hd hw h =>
    by_cases hx : id = x
    · subst hx
      exact .inr (.inl (by simpa [Subject.isDetached] using h))
    · exact .inl (hturn hd hw (.inl hx))
  | @finish d ds hd hw =>
    by_cases hm : id ∈ v.subject.detached
    · exact .inr (.inl hm)
    · left
      rcases ha with ha | ⟨d', hd', ha⟩
      · left
        cases d.note.isTerminal with
        | true => exact ha
        | false =>
          rw [Subject.ids_finish_false]
          exact List.mem_append_right _ ha
      · rw [hd] at hd'
        rcases List.mem_cons.mp hd' with rfl | hd'
        · rcases ha with ha | ⟨ht, ha⟩
          · rw [hw] at ha
            cases ha
          · left
            rw [ht, Subject.ids_finish_false]
            exact List.mem_append_left _ (List.mem_filter.mpr ⟨ha, by simpa using hm⟩)
        · exact .inr ⟨d', hd', ha⟩
  | release x hx h =>
    rcases ha with ha | ha
    · by_cases hm : id ∈ (v.subject.detach x).ids
      · exact .inl (.inl hm)
      · rw [Subject.eq_of_not_mem_ids_detach ha hm]
        exact .inr (.inr (.inr ⟨h, rfl⟩))
    · exact .inl (.inr ha)

/-- No observer is lost: one that awaits nothing has been released or has heard the end. -/
theorem Reachable.accounted (hv : v.Reachable) :
    ∀ id < v.subject.nextId, v.Awaits id ∨ .released id ∈ v.history ∨ v.Ended id := by
  refine hv.invariant (fun id h => absurd h (Nat.not_lt_zero id)) ?_
  intro v v' hv ih h id hid
  have hpre := h.history_grows
  by_cases hold : id < v.subject.nextId
  · rcases ih id hold with ha | hr | he
    · rcases ha.step h with ha | hm | ⟨number, note, hh, ht⟩ | ⟨-, hh⟩
      · exact .inl ha
      · exact .inr (.inl (hpre.subset (hv.marked id hm).2))
      · exact .inr (.inr ⟨number, note, by simp [hh], ht⟩)
      · exact .inr (.inl (by simp [hh]))
    · exact .inr (.inl (hpre.subset hr))
    · exact .inr (.inr (he.mono hpre))
  · cases h with
    | idle | call | skip => exact absurd hid hold
    | subscribe o h =>
      obtain rfl := Nat.eq_of_lt_succ_of_not_lt hid hold
      refine .inl (.inl ?_)
      rw [Subject.ids_subscribe_of_open h]
      exact List.mem_append_right _ (List.mem_singleton_self _)
    | late o h =>
      obtain rfl := Nat.eq_of_lt_succ_of_not_lt hid hold
      exact .inr (.inr ⟨none, .complete, by simp, rfl⟩)
    | start note h =>
      obtain ⟨-, -, rfl⟩ := Subject.begin?_eq_some h
      exact absurd hid hold
    | finish =>
      rw [Subject.nextId_finish] at hid
      exact absurd hid hold
    | release =>
      rw [Subject.nextId_detach] at hid
      exact absurd hid hold

/-- An observer that is attached awaits something. -/
theorem Reachable.awaits_of_attached (hv : v.Reachable) {id : Nat} (h : v.Attached id) :
    v.Awaits id := by
  rcases hv.accounted id h.1 with ha | hr | he
  · exact ha
  · exact absurd hr h.2.1
  · exact absurd he h.2.2

/-- What an observer hears after the end is nothing. -/
theorem Reachable.notes_pairwise (hv : v.Reachable) (id : Nat) :
    (v.notes id).Pairwise fun a _ => a.isTerminal = false := by
  refine hv.invariant (by simp [fresh, notes]) ?_
  intro v v' hv ih h
  -- A note is added for an observer that has not heard the end.
  have hadd (number : Option Nat) (x : Nat) (note : Notification) (hx : ¬ v.Ended x)
      (hh : v'.history = v.history ++ [.called number x note]) :
      (v'.notes id).Pairwise fun a _ => a.isTerminal = false := by
    rw [notes, hh, List.filterMap_append]
    by_cases hid : x = id
    · subst hid
      simp only [List.filterMap_cons, Happening.noteTo?, if_true, List.filterMap_nil]
      rw [List.pairwise_append]
      refine ⟨ih, List.pairwise_singleton _ _, fun a ha b _ => ?_⟩
      rw [ended_iff] at hx
      push Not at hx
      simpa using hx a ha
    · simp only [List.filterMap_cons, Happening.noteTo?, hid, if_false, List.filterMap_nil,
        List.append_nil]
      exact ih
  cases h with
  | idle | subscribe | start | skip | finish => exact ih
  | late o h =>
    refine hadd _ _ _ ?_ rfl
    rintro ⟨number, note, hm, -⟩
    exact Nat.lt_irrefl _ (hv.history_lt _ hm)
  | @call d ds x o rest hd hw h =>
    refine hadd _ _ _ (hv.not_ended x (.inr ⟨d, by simp [hd], .inl (by simp [hw])⟩)) rfl
  | release x hx h =>
    simpa [notes, List.filterMap_cons, Happening.noteTo?] using ih

theorem Step.closed (h : v.Step v') (hc : v.subject.closed = true) : v'.subject.closed = true := by
  cases h with
  | idle | subscribe | late | call | skip => exact hc
  | start note h =>
    have hopen := (Subject.begin?_eq_some h).1
    rw [hc] at hopen
    cases hopen
  | finish =>
    rw [Subject.closed_finish]
    exact hc
  | release =>
    rw [Subject.closed_detach]
    exact hc

/-- Only a closed subject has terminal deliveries, and only its observers have heard the end. -/
theorem Reachable.closed (hv : v.Reachable) :
    (∀ d ∈ v.deliveries, d.note.isTerminal = true → v.subject.closed = true) ∧
      ∀ id, v.Ended id → v.subject.closed = true := by
  refine hv.invariant (by simp [fresh, Ended]) ?_
  intro v v' hv ih h
  -- Who has heard the end before or from the delivery whose turn it is.
  have hended (hd : ∀ number id note, .called number id note ∈ v'.history →
      note.isTerminal = true → .called number id note ∈ v.history ∨ v.subject.closed = true) :
      ∀ id, v'.Ended id → v'.subject.closed = true := by
    rintro id ⟨number, note, hm, ht⟩
    rcases hd number id note hm ht with hm | hc
    · exact h.closed (ih.2 id ⟨number, note, hm, ht⟩)
    · exact h.closed hc
  have hdeliveries (hd : ∀ d ∈ v'.deliveries, ∃ d' ∈ v.deliveries, d'.note = d.note) :
      ∀ d ∈ v'.deliveries, d.note.isTerminal = true → v'.subject.closed = true := by
    intro d hm ht
    obtain ⟨d', hm', hn⟩ := hd d hm
    rw [← hn] at ht
    exact h.closed (ih.1 d' hm' ht)
  cases h with
  | idle | subscribe =>
    exact ⟨hdeliveries fun d hd => ⟨d, hd, rfl⟩, hended fun _ _ _ hm _ => .inl hm⟩
  | late o hc => exact ⟨hdeliveries fun d hd => ⟨d, hd, rfl⟩, hended fun _ _ _ _ _ => .inr hc⟩
  | start note hb =>
    obtain ⟨hopen, -, rfl⟩ := Subject.begin?_eq_some hb
    refine ⟨fun d hd ht => ?_, hended fun _ _ _ hm _ => .inl hm⟩
    rcases List.mem_cons.mp hd with rfl | hd
    · exact ht
    · have hc := ih.1 d hd ht
      rw [hopen] at hc
      cases hc
  | @call d ds x o rest hd hw hn =>
    refine ⟨hdeliveries fun d' hd' => ?_, hended fun number id note hm ht => ?_⟩
    · rcases List.mem_cons.mp hd' with rfl | hd'
      · exact ⟨d, by simp [hd], rfl⟩
      · exact ⟨d', by simp [hd, hd'], rfl⟩
    · rcases List.mem_append.mp hm with hm | hm
      · exact .inl hm
      · obtain ⟨-, -, rfl⟩ := Happening.called.inj (List.mem_singleton.mp hm)
        exact .inr (ih.1 d (by simp [hd]) ht)
  | @skip d ds x o rest hd hw hn =>
    refine ⟨hdeliveries fun d' hd' => ?_, hended fun _ _ _ hm _ => .inl hm⟩
    rcases List.mem_cons.mp hd' with rfl | hd'
    · exact ⟨d, by simp [hd], rfl⟩
    · exact ⟨d', by simp [hd, hd'], rfl⟩
  | finish hd hw =>
    refine ⟨hdeliveries fun d' hd' => ?_, hended fun _ _ _ hm _ => .inl hm⟩
    exact ⟨d', by simp [hd, hd'], rfl⟩
  | release =>
    refine ⟨hdeliveries fun d hd => ⟨d, hd, rfl⟩, hended fun number id note hm _ => ?_⟩
    exact .inl (by simpa using hm)

theorem Reachable.attached_of_open {id : Nat} (hv : v.Reachable) (hopen : v.subject.closed = false)
    (hid : id < v.subject.nextId) (hr : .released id ∉ v.history) : v.Attached id := by
  refine ⟨hid, hr, fun he => ?_⟩
  rw [hv.closed.2 id he] at hopen
  cases hopen

theorem Reachable.mem_ids_iff {id : Nat} (hv : v.Reachable) (h : v.Attached id) :
    id ∈ v.subject.ids ↔ id ∉ v.out := by
  have hmem : id ∈ v.listed := (hv.awaits_of_attached h).mem_listed
  have hn := hv.nodup
  rw [listed, List.nodup_append] at hn
  constructor
  · intro hid hout
    exact hn.2.2 id hout id hid rfl
  · intro hout
    exact (List.mem_append.mp hmem).resolve_left hout

/-- What a step does to the deliveries in progress. -/
theorem Step.deliveries {v v' : View} (h : v.Step v') :
    v'.deliveries = v.deliveries ∨
    (∃ note out, v'.deliveries = ⟨v.next, note, [], out⟩ :: v.deliveries ∧
      v'.next = v.next + 1) ∨
    ∃ d ds, v.deliveries = d :: ds ∧ (v'.deliveries = d.pass :: ds ∨ v'.deliveries = ds) := by
  cases h with
  | idle | subscribe | late | release => exact .inl rfl
  | start note h => exact .inr (.inl ⟨note, _, rfl, rfl⟩)
  | call hd | skip hd => exact .inr (.inr ⟨_, _, hd, .inl rfl⟩)
  | finish hd => exact .inr (.inr ⟨_, _, hd, .inr rfl⟩)

/-- Deliveries in progress are numbered in the order of their beginnings. -/
theorem Reachable.numbered (hv : v.Reachable) :
    (v.deliveries.map Delivery.number).Pairwise (· > ·) ∧
      ∀ d ∈ v.deliveries, d.number < v.next := by
  refine hv.invariant (by simp [fresh]) ?_
  intro v v' _ ih h
  have hlt : ∀ d ∈ v.deliveries, d.number < v'.next := fun d hd =>
    Nat.lt_of_lt_of_le (ih.2 d hd) h.next_le
  rcases h.deliveries with he | ⟨note, out, he, hn⟩ | ⟨d, ds, hd, he | he⟩
  · rw [he]
    exact ⟨ih.1, hlt⟩
  · rw [he, hn]
    refine ⟨List.pairwise_cons.mpr ⟨fun n hm => ?_, ih.1⟩, fun d hm => ?_⟩
    · obtain ⟨d, hd, rfl⟩ := List.mem_map.mp hm
      exact ih.2 d hd
    · rcases List.mem_cons.mp hm with rfl | hm
      · exact Nat.lt_succ_self _
      · exact Nat.lt_succ_of_lt (ih.2 d hm)
  · rw [hd] at ih hlt
    rw [he]
    refine ⟨by simpa using ih.1, fun d' hm => ?_⟩
    rcases List.mem_cons.mp hm with rfl | hm
    · exact hlt d List.mem_cons_self
    · exact hlt d' (List.mem_cons_of_mem _ hm)
  · rw [hd] at ih hlt
    rw [he]
    exact ⟨(List.pairwise_cons.mp ih.1).2, fun d' hm => hlt d' (List.mem_cons_of_mem _ hm)⟩

/-- A delivery in progress calls those that had their turn, and with what it has to tell. -/
theorem Reachable.called (hv : v.Reachable) :
    ∀ n id note, .called (some n) id note ∈ v.history → n < v.next ∧
      ∀ d ∈ v.deliveries, d.number = n → id ∈ d.served.map Prod.fst ∧ note = d.note := by
  refine hv.invariant (by simp [fresh]) ?_
  intro v v' hv ih h n id note hm
  -- Who has had its turn keeps it when another turn passes.
  have hturn {d : Delivery} {ds : List Delivery} {x : Nat} {o : Observer Program}
      {rest : List (Nat × Observer Program)} (hd : v.deliveries = d :: ds)
      (hw : d.waiting = (x, o) :: rest)
      (hold : ∀ d' ∈ v.deliveries, d'.number = n → id ∈ d'.served.map Prod.fst ∧ note = d'.note) :
      ∀ d' ∈ d.pass :: ds, d'.number = n → id ∈ d'.served.map Prod.fst ∧ note = d'.note := by
    intro d' hm' hnum
    rcases List.mem_cons.mp hm' with rfl | hm'
    · obtain ⟨hs, hnote⟩ := hold d (by simp [hd]) hnum
      exact ⟨(Delivery.mem_served_pass hw).mpr (.inl hs), hnote⟩
    · exact hold d' (by simp [hd, hm']) hnum
  cases h with
  | idle next hn =>
    obtain ⟨hlt, hd⟩ := ih n id note hm
    exact ⟨Nat.lt_of_lt_of_le hlt hn, hd⟩
  | subscribe => exact ih n id note hm
  | late | release => exact ih n id note (by simpa using hm)
  | start note' h =>
    obtain ⟨hlt, hd⟩ := ih n id note hm
    refine ⟨Nat.lt_succ_of_lt hlt, fun d hm' hnum => ?_⟩
    rcases List.mem_cons.mp hm' with rfl | hm'
    · exact absurd hnum.symm (Nat.ne_of_lt hlt)
    · exact hd d hm' hnum
  | @call d ds x o rest hd hw h =>
    rcases List.mem_append.mp hm with hm | hm
    · obtain ⟨hn, hold⟩ := ih n id note hm
      exact ⟨hn, hturn hd hw hold⟩
    · obtain ⟨hnum, hlt⟩ := hv.numbered
      rw [hd] at hnum hlt
      simp only [List.mem_singleton, Happening.called.injEq, Option.some.injEq] at hm
      obtain ⟨rfl, rfl, rfl⟩ := hm
      refine ⟨hlt d List.mem_cons_self, fun d' hm' hd' => ?_⟩
      rcases List.mem_cons.mp hm' with rfl | hm'
      · exact ⟨(Delivery.mem_served_pass hw).mpr (.inr rfl), rfl⟩
      · have hgt := (List.pairwise_cons.mp hnum).1 _ (List.mem_map_of_mem hm')
        omega
  | @skip d ds x o rest hd hw h =>
    obtain ⟨hn, hold⟩ := ih n id note hm
    exact ⟨hn, hturn hd hw hold⟩
  | @finish d ds hd hw =>
    obtain ⟨hn, hold⟩ := ih n id note hm
    exact ⟨hn, fun d' hm' => hold d' (by simp [hd, hm'])⟩

/-- A delivery calls each observer at most once, in the order of subscription, and all with the
same. -/
theorem Reachable.calls_pairwise (hv : v.Reachable) (n : Nat) :
    (v.calls n).Pairwise fun a b => a.1 < b.1 ∧ a.2 = b.2 := by
  refine hv.invariant (by simp [fresh, calls]) ?_
  intro v v' hv ih h
  cases h with
  | idle | subscribe | start | skip | finish => exact ih
  | late | release => simpa [calls, List.filterMap_cons, Happening.callBy?] using ih
  | @call d ds x o rest hd hw h =>
    rw [calls, List.filterMap_append]
    by_cases hn : d.number = n
    · subst hn
      simp only [List.filterMap_cons, Happening.callBy?, if_true, List.filterMap_nil]
      rw [List.pairwise_append]
      refine ⟨ih, List.pairwise_singleton _ _, ?_⟩
      rintro ⟨id, note⟩ ha b hb
      obtain rfl := List.mem_singleton.mp hb
      obtain ⟨hs, rfl⟩ := (hv.called _ _ _ (mem_calls.mp ha)).2 d (by simp [hd]) rfl
      have hsorted := hv.sorted.1
      rw [listed, out, hd, outIds, Delivery.ids, hw, List.map_cons] at hsorted
      have hids := (List.pairwise_append.mp (List.pairwise_append.mp
        (List.pairwise_append.mp hsorted).1).2.1).2.2
      exact ⟨hids id hs x List.mem_cons_self, rfl⟩
    · simpa [calls, List.filterMap_cons, Happening.callBy?, hn] using ih

end View

end Subscriptions.Tracker
