import Mathlib.Data.List.Nodup
import Subscriptions.Proofs.Tracker.Run

namespace Subscriptions.Tracker

/-- Something that happens to one observer of a subject. -/
inductive Happening
  /-- It is notified, by the delivery with that number or by coming to a closed subject. -/
  | called (number : Option Nat) (id : Nat) (note : Notification)
  /-- Its subscription is released. -/
  | released (id : Nat)
deriving Repr, DecidableEq

def Happening.id : Happening → Nat
  | .called _ id _ | .released id => id

def Event.on? (s : Nat) : Event → Option Happening
  | .called (.delivery t number id) _ note _ =>
    if t = s then some (.called (some number) id note) else none
  | .called (.closed t id) _ note _ => if t = s then some (.called none id note) else none
  | .detached t id => if t = s then some (.released id) else none
  | .called .replay .. | .invoked .. | .nested .. => none

/-- What has happened to the observers of a subject, in order. -/
def World.history (w : World) (s : Nat) : List Happening :=
  (w.events.filterMap (Event.on? s)).reverse

/-- A delivery in progress, with the observers that are out with it. -/
structure Delivery where
  number : Nat
  note : Notification
  served : List (Nat × Observer Program)
  waiting : List (Nat × Observer Program)

namespace Delivery

def ids (d : Delivery) : List Nat := d.served.map Prod.fst ++ d.waiting.map Prod.fst

def pass (d : Delivery) : Delivery :=
  { d with served := d.served ++ d.waiting.take 1, waiting := d.waiting.drop 1 }

@[simp] theorem number_pass (d : Delivery) : d.pass.number = d.number := rfl

@[simp] theorem note_pass (d : Delivery) : d.pass.note = d.note := rfl

@[simp] theorem ids_pass (d : Delivery) : d.pass.ids = d.ids := by
  simp only [pass, ids, List.map_append, List.append_assoc]
  rw [← List.map_append, List.take_append_drop]

theorem served_pass {d : Delivery} {o : Nat × Observer Program}
    {rest : List (Nat × Observer Program)} (hw : d.waiting = o :: rest) :
    d.pass.served = d.served ++ [o] := by
  simp [pass, hw]

theorem waiting_pass {d : Delivery} {o : Nat × Observer Program}
    {rest : List (Nat × Observer Program)} (hw : d.waiting = o :: rest) :
    d.pass.waiting = rest := by
  simp [pass, hw]

theorem mem_waiting {d : Delivery} {x id : Nat} {o : Observer Program}
    {rest : List (Nat × Observer Program)} (hw : d.waiting = (x, o) :: rest) :
    id ∈ d.waiting.map Prod.fst ↔ id = x ∨ id ∈ d.pass.waiting.map Prod.fst := by
  rw [waiting_pass hw, hw, List.map_cons, List.mem_cons]

theorem mem_served_pass {d : Delivery} {x id : Nat} {o : Observer Program}
    {rest : List (Nat × Observer Program)} (hw : d.waiting = (x, o) :: rest) :
    id ∈ d.pass.served.map Prod.fst ↔ id ∈ d.served.map Prod.fst ∨ id = x := by
  rw [served_pass hw, List.map_append, List.mem_append, List.map_singleton, List.mem_singleton]

end Delivery

/-- The ids out with deliveries of which the innermost comes first, the outermost first. -/
def outIds : List Delivery → List Nat
  | [] => []
  | d :: ds => outIds ds ++ d.ids

theorem mem_outIds {ds : List Delivery} {id : Nat} :
    id ∈ outIds ds ↔ ∃ d ∈ ds, id ∈ d.ids := by
  induction ds with
  | nil => simp [outIds]
  | cons d ds ih => simp [outIds, ih, or_comm]

/-- Whoever awaits something from a delivery is out with it. -/
theorem mem_outIds_of_awaits {d : Delivery} {ds : List Delivery} {id : Nat} (hd : d ∈ ds)
    (h : id ∈ d.waiting.map Prod.fst ∨
      d.note.isTerminal = false ∧ id ∈ d.served.map Prod.fst) : id ∈ outIds ds := by
  refine mem_outIds.mpr ⟨d, hd, ?_⟩
  rw [Delivery.ids, List.mem_append]
  rcases h with h | ⟨-, h⟩
  · exact .inr h
  · exact .inl h

def Frame.delivery? (s : Nat) : Frame → Option Delivery
  | .delivery t number note served waiting =>
    if t = s then some ⟨number, note, served, waiting⟩ else none
  | _ => none

/-- The deliveries in progress on a subject, the innermost first. -/
def Machine.deliveries (m : Machine) (s : Nat) : List Delivery :=
  m.stack.filterMap (Frame.delivery? s)

/-- A run as one subject takes part in it. -/
structure View where
  subject : Subject (Observer Program)
  deliveries : List Delivery
  history : List Happening
  /-- The number of the next delivery, on whichever subject. -/
  next : Nat

def Machine.view (m : Machine) (s : Nat) : View :=
  ⟨m.world.subject s, m.deliveries s, m.world.history s, m.world.deliveryCount + 1⟩

namespace View

/-- All that can happen to a subject in one move. -/
inductive Step (v : View) : View → Prop
  | idle (next : Nat) (h : v.next ≤ next) : v.Step { v with next := next }
  | subscribe (o : Observer Program) (h : v.subject.closed = false) :
      v.Step { v with subject := (v.subject.subscribe o).2 }
  | late (o : Observer Program) (h : v.subject.closed = true) :
      v.Step { v with
        subject := (v.subject.subscribe o).2,
        history := v.history ++ [.called none v.subject.nextId .complete] }
  | start (note : Notification) {out : List (Nat × Observer Program)}
      {subject : Subject (Observer Program)}
      (h : v.subject.begin? note.isTerminal = some (out, subject)) :
      v.Step ⟨subject, ⟨v.next, note, [], out⟩ :: v.deliveries, v.history, v.next + 1⟩
  | call {d : Delivery} {ds : List Delivery} {id : Nat} {o : Observer Program}
      {rest : List (Nat × Observer Program)} (hd : v.deliveries = d :: ds)
      (hw : d.waiting = (id, o) :: rest) (h : v.subject.isDetached id = false) :
      v.Step { v with
        deliveries := d.pass :: ds,
        history := v.history ++ [.called (some d.number) id d.note] }
  | skip {d : Delivery} {ds : List Delivery} {id : Nat} {o : Observer Program}
      {rest : List (Nat × Observer Program)} (hd : v.deliveries = d :: ds)
      (hw : d.waiting = (id, o) :: rest) (h : v.subject.isDetached id = true) :
      v.Step { v with deliveries := d.pass :: ds }
  | finish {d : Delivery} {ds : List Delivery} (hd : v.deliveries = d :: ds)
      (hw : d.waiting = []) :
      v.Step { v with
        subject := v.subject.finish d.note.isTerminal d.served, deliveries := ds }
  | release (id : Nat) (hid : id < v.subject.nextId) (h : .released id ∉ v.history) :
      v.Step { v with
        subject := v.subject.detach id, history := v.history ++ [.released id] }

/-- The ids of the observers out with deliveries in progress, the outermost first. -/
def out (v : View) : List Nat := outIds v.deliveries

/-- The ids of all observers that the subject has, whether they are out or not. -/
def listed (v : View) : List Nat := v.out ++ v.subject.ids

def Awaits (v : View) (id : Nat) : Prop :=
  id ∈ v.subject.ids ∨ ∃ d ∈ v.deliveries, id ∈ d.waiting.map Prod.fst ∨
    d.note.isTerminal = false ∧ id ∈ d.served.map Prod.fst

/-- The observer has heard an error or the completion. -/
def Ended (v : View) (id : Nat) : Prop :=
  ∃ number note, .called number id note ∈ v.history ∧ note.isTerminal = true

/-- The observer has subscribed, has not been released and has not heard the end. -/
def Attached (v : View) (id : Nat) : Prop :=
  id < v.subject.nextId ∧ .released id ∉ v.history ∧ ¬ v.Ended id

/-- A subject nothing has happened to; deliveries are numbered from one on. -/
def fresh : View := ⟨.empty, [], [], 1⟩

def Reachable (v : View) : Prop := Relation.ReflTransGen Step fresh v

/-- What holds of a subject nothing has happened to and is kept by every step holds throughout. -/
@[elab_as_elim]
theorem Reachable.invariant {P : View → Prop} {v : View} (hv : v.Reachable)
    (hfresh : P fresh) (hstep : ∀ v v' : View, v.Reachable → P v → v.Step v' → P v') :
    P v := by
  induction hv with
  | refl => exact hfresh
  | tail hv h ih => exact hstep _ _ hv ih h

/-- What a step does to the list of all observers. -/
theorem Step.listed {v v' : View} (h : v.Step v') :
    v'.listed.Sublist v.listed ∨
      v'.listed = v.listed ++ [v.subject.nextId] ∧ v'.subject.nextId = v.subject.nextId + 1 := by
  cases h with
  | idle next h => exact .inl (.refl _)
  | subscribe o h =>
    refine .inr ⟨?_, rfl⟩
    simp only [View.listed, out, Subject.ids_subscribe_of_open h, List.append_assoc]
  | late o h =>
    rw [Subject.subscribe_of_closed h]
    exact .inl (.refl _)
  | start note h =>
    obtain ⟨-, rfl, rfl⟩ := Subject.begin?_eq_some h
    left
    simp [View.listed, out, outIds, Delivery.ids, Subject.ids]
  | call hd hw h =>
    left
    simp [View.listed, out, outIds, hd]
  | skip hd hw h =>
    left
    simp [View.listed, out, outIds, hd]
  | @finish d ds hd hw =>
    left
    simp only [View.listed, out, outIds, hd, Delivery.ids, hw, List.map_nil, List.append_nil,
      List.append_assoc]
    refine (List.Sublist.refl _).append ?_
    cases d.note.isTerminal with
    | true =>
      rw [Subject.ids_finish_true]
      exact List.sublist_append_right _ _
    | false =>
      rw [Subject.ids_finish_false]
      exact List.filter_sublist.append (.refl _)
  | release id hid h =>
    exact .inl ((List.Sublist.refl _).append (Subject.ids_detach_sublist _ _))

theorem Step.nextId_le {v v' : View} (h : v.Step v') : v.subject.nextId ≤ v'.subject.nextId := by
  cases h with
  | idle | call | skip => exact Nat.le_refl _
  | subscribe | late => exact Nat.le_succ _
  | start note h =>
    obtain ⟨-, -, rfl⟩ := Subject.begin?_eq_some h
    exact Nat.le_refl _
  | finish => exact Nat.le_of_eq (Subject.nextId_finish _ _ _).symm
  | release => exact Nat.le_of_eq (Subject.nextId_detach _ _).symm

theorem Step.next_le {v v' : View} (h : v.Step v') : v.next ≤ v'.next := by
  cases h with
  | idle next h => exact h
  | start => exact Nat.le_succ _
  | subscribe | late | call | skip | finish | release => exact Nat.le_refl _

/-- Nothing that has happened is undone. -/
theorem Step.history_grows {v v' : View} (h : v.Step v') : v.history <+: v'.history := by
  cases h with
  | idle | subscribe | start | skip | finish => exact List.prefix_rfl
  | late | call | release => exact List.prefix_append _ _

end View

end Subscriptions.Tracker
