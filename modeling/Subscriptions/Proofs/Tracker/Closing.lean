import Subscriptions.Proofs.Tracker.Notices
import Subscriptions.Proofs.Tracker.Simulation

namespace Subscriptions.Tracker

def Happening.told? : Happening → Option (Nat × Notification)
  | .called (some _) id note => some (id, note)
  | .called none .. | .released _ => none

namespace View

variable {v v' : View}

def told (v : View) : List (Nat × Notification) := v.history.filterMap Happening.told?

/-- What the deliveries in progress have still to tell, the innermost first. -/
def pending (v : View) : List (Nat × Notification) :=
  v.deliveries.flatMap fun d => d.waiting.map fun o => (o.1, d.note)

/-- The ids that are at home, and those that come back with the deliveries in progress. -/
def kept (v : View) : List Nat :=
  outIds (v.deliveries.filter fun d => !d.note.isTerminal) ++ v.subject.ids

/-- The subject is closed, and no mark concerns an observer that waits. -/
structure Sealed (v : View) : Prop where
  closed : v.subject.closed = true
  unmarked : v.subject.detached = [] ∨ ∃ d ds, v.deliveries = d :: ds ∧
    d.note.isTerminal = true ∧ ∀ id ∈ d.waiting.map Prod.fst, id ∉ v.subject.detached

theorem Sealed.unmarked_turn (hs : v.Sealed) {d : Delivery} {ds : List Delivery}
    (hd : v.deliveries = d :: ds) : ∀ id ∈ d.waiting.map Prod.fst, id ∉ v.subject.detached := by
  rcases hs.unmarked with hnil | ⟨d', ds', hd', -, hm⟩
  · intro id _
    rw [hnil]
    exact List.not_mem_nil
  · rw [hd] at hd'
    obtain ⟨rfl, rfl⟩ := List.cons.inj hd'
    exact hm

theorem told_append (subject : Subject (Observer Program)) (ds : List Delivery)
    (history : List Happening) (x : Happening) (next : Nat) :
    View.told ⟨subject, ds, history ++ [x], next⟩ =
      history.filterMap Happening.told? ++ (Happening.told? x).toList := by
  simp only [told, List.filterMap_append, List.filterMap_cons, List.filterMap_nil]
  cases Happening.told? x <;> rfl

/-- Once a subject is closed every observer that waits has its turn, and every observer that is out
with a delivery of a value comes back. -/
theorem Sealed.step (hs : v.Sealed) (h : v.Step v') :
    v'.Sealed ∧ v'.told ++ v'.pending = v.told ++ v.pending ∧ v'.kept = v.kept := by
  cases h with
  | idle => exact ⟨⟨hs.closed, hs.unmarked⟩, rfl, rfl⟩
  | subscribe o h =>
    rw [hs.closed] at h
    cases h
  | late o h =>
    rw [told_append]
    refine ⟨⟨hs.closed, hs.unmarked⟩, ?_, ?_⟩
    · simp [told, Happening.told?, pending]
    · simp [kept, Subject.subscribe_of_closed h, Subject.ids]
  | start note h =>
    have hopen := (Subject.begin?_eq_some h).1
    rw [hs.closed] at hopen
    cases hopen
  | @call d ds id o rest hd hw h =>
    rw [told_append]
    refine ⟨⟨hs.closed, ?_⟩, ?_, ?_⟩
    · rcases hs.unmarked with hnil | ⟨d', ds', hd', ht, hm⟩
      · exact .inl hnil
      · rw [hd] at hd'
        obtain ⟨rfl, rfl⟩ := List.cons.inj hd'
        refine .inr ⟨d.pass, ds, rfl, ht, fun x hx => hm x ?_⟩
        exact (Delivery.mem_waiting hw).mpr (.inr hx)
    · simp [told, pending, hd, hw, Delivery.waiting_pass hw, Happening.told?]
    · cases ht : d.note.isTerminal with
      | true => simp [kept, hd, ht]
      | false => simp [kept, hd, ht, outIds]
  | @skip d ds id o rest hd hw h =>
    have hm := hs.unmarked_turn hd id (by simp [hw])
    exact absurd (by simpa [Subject.isDetached] using h) hm
  | @finish d ds hd hw =>
    refine ⟨⟨?_, .inl (Subject.detached_finish _ _ _)⟩, ?_, ?_⟩
    · exact (Subject.closed_finish _ _ _).trans hs.closed
    · simp [told, pending, hd, hw]
    · cases ht : d.note.isTerminal with
      | true => simp [kept, hd, ht, Subject.ids_finish_true]
      | false =>
        -- A delivery of a value is the innermost one only after all marks are gone.
        have hnil : v.subject.detached = [] := by
          rcases hs.unmarked with hnil | ⟨d', ds', hd', ht', -⟩
          · exact hnil
          · rw [hd] at hd'
            obtain ⟨rfl, rfl⟩ := List.cons.inj hd'
            rw [ht] at ht'
            cases ht'
        simp [kept, hd, ht, Subject.ids_finish_false, hnil, outIds, Delivery.ids, hw]
  | release x hx h =>
    rw [Subject.detach_of_closed hs.closed]
    rw [told_append]
    refine ⟨⟨hs.closed, hs.unmarked⟩, ?_, rfl⟩
    simp [told, Happening.told?, pending]

theorem Sealed.later (hs : v.Sealed) (h : Relation.ReflTransGen Step v v') :
    v'.Sealed ∧ v'.told ++ v'.pending = v.told ++ v.pending ∧ v'.kept = v.kept := by
  induction h with
  | refl => exact ⟨hs, rfl, rfl⟩
  | tail _ hstep ih =>
    obtain ⟨hsealed, htold, hkept⟩ := ih
    obtain ⟨hsealed', htold', hkept'⟩ := hsealed.step hstep
    exact ⟨hsealed', htold'.trans htold, hkept'.trans hkept⟩

theorem Reachable.sealed_start (hv : v.Reachable) (hopen : v.subject.closed = false)
    {note : Notification} (ht : note.isTerminal = true)
    (h : v' = ⟨{ v.subject with observers := [], closed := note.isTerminal },
      ⟨v.next, note, [], v.subject.observers⟩ :: v.deliveries, v.history, v.next + 1⟩) :
    v'.Sealed ∧ v'.told ++ v'.pending =
      v.told ++ ((v.subject.ids.map fun id => (id, note)) ++ v.pending) ∧ v'.kept = v.out := by
  subst h
  refine ⟨⟨ht, .inr ⟨_, _, rfl, ht, ?_⟩⟩, ?_, ?_⟩
  · intro id hid hm
    exact (hv.marked id hm).1 hid
  · simp [told, pending, Subject.ids]
  · have hfilter : v.deliveries.filter (fun d => !d.note.isTerminal) = v.deliveries := by
      rw [List.filter_eq_self]
      intro d hd
      by_contra hterminal
      have hclosed := hv.closed.1 d hd (by simpa using hterminal)
      rw [hopen] at hclosed
      cases hclosed
    simp [kept, ht, hfilter, out, Subject.ids]

theorem pending_of_out (h : v.out = []) : v.pending = [] := by
  rw [pending, List.flatMap_eq_nil_iff]
  intro d hd
  rw [List.map_eq_nil_iff]
  by_contra hw
  obtain ⟨o, ho⟩ := List.exists_mem_of_ne_nil _ hw
  have hout : o.1 ∈ v.out := mem_outIds.mpr ⟨d, hd, by simp [Delivery.ids, List.mem_map_of_mem ho]⟩
  rw [h] at hout
  cases hout

theorem mem_told {id : Nat} {note : Notification} :
    (id, note) ∈ v.told ↔ ∃ n, .called (some n) id note ∈ v.history := by
  simp only [told, List.mem_filterMap]
  constructor
  · rintro ⟨x, hx, h⟩
    cases x with
    | called number id' note' =>
      cases number with
      | none => cases h
      | some n =>
        cases h
        exact ⟨n, hx⟩
    | released => cases h
  · rintro ⟨n, h⟩
    exact ⟨_, h, rfl⟩

/-- Whoever comes to a closed subject hears of its completion. -/
theorem Reachable.called_late (hv : v.Reachable) :
    ∀ id note, .called none id note ∈ v.history → note = .complete := by
  refine hv.invariant (by simp [fresh]) ?_
  intro v v' hv ih h id note hm
  cases h with
  | idle | subscribe | start | skip | finish => exact ih id note hm
  | call | release => exact ih id note (by simpa using hm)
  | late o h =>
    rcases List.mem_append.mp hm with hm | hm
    · exact ih id note hm
    · exact (Happening.called.inj (List.mem_singleton.mp hm)).2.2

/-- Who has been told the end has heard no other. -/
theorem Reachable.filter_notes (hv : v.Reachable) {id : Nat} {note : Notification}
    (htold : (id, note) ∈ v.told) (ht : note.isTerminal = true) :
    (v.notes id).filter Notification.isTerminal = [note] := by
  obtain ⟨n, hcalled⟩ := mem_told.mp htold
  obtain ⟨before, rest, he⟩ := List.append_of_mem (mem_notes.mpr ⟨some n, hcalled⟩)
  have hp := hv.notes_pairwise id
  rw [he, List.pairwise_append, List.pairwise_cons] at hp
  obtain ⟨-, ⟨hrest, -⟩, hbefore⟩ := hp
  have hnil : rest = [] := by
    refine List.eq_nil_iff_forall_not_mem.mpr fun a ha => ?_
    rw [hrest a ha] at ht
    cases ht
  have hfilter : before.filter Notification.isTerminal = [] := by
    rw [List.filter_eq_nil_iff]
    intro a ha h
    rw [hbefore a ha note List.mem_cons_self] at h
    cases h
  simp [he, hnil, hfilter, ht]

/-- Where nothing but the end has been told there is no value. -/
theorem Reachable.no_value (hv : v'.Reachable) {news : List Happening} {ids : List Nat}
    {note : Notification} (hnews : v.history ++ news = v'.history) (ht : note.isTerminal = true)
    (htold : v'.told = v.told ++ ids.map fun id => (id, note)) :
    ∀ number id value, .called number id (.next value) ∉ news := by
  intro number id value hm
  cases number with
  | none =>
    have hlate : .called none id (.next value) ∈ v'.history := by
      rw [← hnews]
      exact List.mem_append_right _ hm
    cases hv.called_late id _ hlate
  | some n =>
    rw [told, told, ← hnews, List.filterMap_append] at htold
    have hmem : (id, .next value) ∈ news.filterMap Happening.told? :=
      List.mem_filterMap.mpr ⟨_, hm, rfl⟩
    rw [List.append_cancel_left htold, List.mem_map] at hmem
    obtain ⟨x, -, he⟩ := hmem
    rw [(Prod.mk.inj he).2] at ht
    cases ht

end View

namespace Machine

/-- An error or a completion has reached everybody, and nobody hears a value any more. Not even an
observer that has been released meanwhile is left out. -/
structure Completes (m m' : Machine) (s : Nat) (note : Notification) : Prop where
  closed : (m'.world.subject s).closed = true
  count : (m'.world.subject s).observerCount = 0
  heard : ∀ id < (m.world.subject s).nextId, .released id ∉ m.world.history s →
    ((m'.view s).notes id).filter Notification.isTerminal = [note]
  finished : ∃ news, m'.world.history s = m.world.history s ++ news ∧
    ∀ number id value, .called number id (.next value) ∉ news

/-- An error or a completion is heard by the observers at home, and then those that are out hear what
they wait for and come back to a closed subject. So it is complete if and only if nobody is out. -/
theorem close_complete_iff {m m₁ m' : Machine} {s : Nat} {name : String} {note : Notification}
    (hm : m.Reachable) (hc : m.control = .run (tell name note)) (ht : note.isTerminal = true)
    (hs : m.world.subjectNames.lookup name = some s) (hopen : (m.world.subject s).closed = false)
    (hmove : m.move = some m₁) (hlater : Later m₁ m') (hover : m'.deliveries s = []) :
    ((m'.world.subject s).closed = true ∧ (m'.world.subject s).ids = (m.view s).out ∧
      (m'.view s).told = (m.view s).told ++
        (((m.world.subject s).ids.map fun id => (id, note)) ++ (m.view s).pending)) ∧
      (m.Completes m' s note ↔ (m.view s).out = []) := by
  have hm₁ : m₁.Reachable := hm.later (.single (.move hmove))
  have hm' : m'.Reachable := hm₁.later hlater
  have hview := hm.view_told hc hs hopen hmove
  obtain ⟨hsealed, htold, hkept⟩ := (hm.view s).sealed_start hopen ht hview
  obtain ⟨hsealed', htold', hkept'⟩ := hsealed.later (hm₁.view_later hlater s)
  have hnil : (m'.view s).deliveries = [] := hover
  have hids : (m'.world.subject s).ids = (m.view s).out := by
    rw [← hkept, ← hkept', View.kept, hnil]
    rfl
  have hall : (m'.view s).told = (m.view s).told ++
      (((m.world.subject s).ids.map fun id => (id, note)) ++ (m.view s).pending) := by
    have hpending : (m'.view s).pending = [] := by simp [View.pending, hnil]
    rw [htold, hpending, List.append_nil] at htold'
    exact htold'
  refine ⟨⟨hsealed'.closed, hids, hall⟩, fun h => ?_, fun hout => ?_⟩
  · have hcount := h.count
    rw [← Subject.length_ids, hids] at hcount
    exact List.eq_nil_of_length_eq_zero hcount
  · obtain ⟨news, hnews⟩ := history_grows_of_later hm (hlater.head (.move hmove)) s
    rw [View.pending_of_out hout, List.append_nil] at hall
    refine ⟨hsealed'.closed, ?_, fun id hid hr => ?_, news, hnews.symm, ?_⟩
    · rw [← Subject.length_ids, hids, hout]
      rfl
    · have hattached := (hm.view s).attached_of_open hopen hid hr
      have hhome : id ∈ (m.world.subject s).ids := by
        refine ((hm.view s).mem_ids_iff hattached).mpr ?_
        rw [hout]
        exact List.not_mem_nil
      refine (hm'.view s).filter_notes ?_ ht
      rw [hall]
      exact List.mem_append_right _ (List.mem_map_of_mem hhome)
    · exact (hm'.view s).no_value hnews ht hall

/-- The first of two observers is released and completes the subject, all from inside its callback. -/
def interrupting : List Step :=
  [.subject "s" none,
    .subscribe "s" ⟨"A", [.releaseHandle "a", .complete "s"], none, none⟩ "a" none,
    .subscribe "s" ⟨"B", [], none, some []⟩ "b" none]

def interrupted (s : Step) (moves : Nat) : Machine :=
  run moves ⟨(after interrupting).world, .run s, []⟩

theorem reachable_interrupted (s : Step) (moves : Nat) : (interrupted s moves).Reachable :=
  (reachable_after interrupting).later (later_step rfl s moves)

theorem interrupted_complete :
    ((interrupted (.complete "s") 0).Completes (interrupted (.complete "s") 4) 0 .complete ↔
      ((interrupted (.complete "s") 0).view 0).out = []) ∧
    ((interrupted (.next "s" 1) 6).Completes (interrupted (.next "s" 1) 11) 0 .complete ↔
      ((interrupted (.next "s" 1) 6).view 0).out = []) := by
  have hfirst : (interrupted (.complete "s") 0).control = .run (tell "s" .complete) := rfl
  have hsecond : (interrupted (.next "s" 1) 6).control = .run (tell "s" .complete) := rfl
  have hlater : Later (interrupted (.complete "s") 1) (interrupted (.complete "s") 4) :=
    later_run 3 _
  have hlater' : Later (interrupted (.next "s" 1) 7) (interrupted (.next "s" 1) 11) :=
    later_run 4 _
  constructor
  · exact (close_complete_iff (reachable_interrupted _ 0) hfirst rfl rfl rfl rfl hlater rfl).2
  · exact (close_complete_iff (reachable_interrupted _ 6) hsecond rfl rfl rfl rfl hlater' rfl).2

/-- The second observer hears a value after the completion, and never hears the completion. -/
theorem interrupted_not_complete : ∃ m m₁ m' : Machine, m.Reachable ∧
    m.control = .run (.complete "s") ∧ m.world.subjectNames.lookup "s" = some 0 ∧
    (m.world.subject 0).closed = false ∧ m.move = some m₁ ∧ Later m₁ m' ∧ m'.deliveries 0 = [] ∧
    m'.move = none ∧ (m'.world.subject 0).observerCount = 2 ∧
    .released 1 ∉ m'.world.history 0 ∧ (m'.view 0).notes 1 = [.next 1] ∧
    .called (some 1) 1 (.next 1) ∉ m.world.history 0 := by
  refine ⟨interrupted (.next "s" 1) 6, interrupted (.next "s" 1) 7, interrupted (.next "s" 1) 11,
    reachable_interrupted _ _, rfl, rfl, rfl, rfl, later_run 4 _, rfl, rfl, rfl, ?_, ?_, ?_⟩
  · decide
  · decide
  · decide

end Machine

end Subscriptions.Tracker
