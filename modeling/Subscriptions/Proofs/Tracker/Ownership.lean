import Subscriptions.Proofs.Tracker.Notices
import Subscriptions.Proofs.Tracker.Simulation

namespace Subscriptions.Tracker

namespace View

variable {v v' : View}

/-- Every attached observer stands at one place, at home or out with one delivery, and is notified
in turn, once by each delivery and never after the end. -/
structure Orderly (v : View) : Prop where
  once : ∀ id, v.Attached id → v.listed.count id = 1
  sorted : v.listed.Pairwise (· < ·)
  home : v.subject.ids.Pairwise (· < ·)
  given : ∀ id ∈ v.listed, id < v.subject.nextId
  carried : ∀ d ∈ v.deliveries, ∀ c ∈ v.calls d.number, c.2 = d.note
  turns : ∀ n, (v.calls n).Pairwise fun a b => a.1 < b.1 ∧ a.2 = b.2
  last : ∀ id, (v.notes id).Pairwise fun a _ => a.isTerminal = false

theorem Reachable.orderly (hv : v.Reachable) : v.Orderly where
  once id h := by
    have hmem : id ∈ v.listed := (hv.awaits_of_attached h).mem_listed
    exact List.count_eq_one_of_mem hv.nodup hmem
  sorted := hv.sorted.1
  home := by
    have h : v.subject.ids.Sublist v.listed := List.sublist_append_right _ _
    exact hv.sorted.1.sublist h
  given := hv.sorted.2
  carried d hd c hc := by
    have hcalled := (hv.called d.number c.1 c.2 (mem_calls.mp hc)).2 d hd rfl
    exact hcalled.2
  turns := hv.calls_pairwise
  last := hv.notes_pairwise

theorem Step.mem_listed {id : Nat} (h : v.Step v') (hid : id ∈ v'.listed)
    (hlt : id < v.subject.nextId) : id ∈ v.listed := by
  rcases h.listed with hs | ⟨hl, -⟩
  · exact hs.subset hid
  · rw [hl, List.mem_append, List.mem_singleton] at hid
    exact hid.resolve_right (Nat.ne_of_lt hlt)

/-- An id that has been given out stands in the list from the beginning or never again. -/
theorem mem_listed_of_later {id : Nat} (h : Relation.ReflTransGen Step v v')
    (hid : id ∈ v'.listed) (hlt : id < v.subject.nextId) : id ∈ v.listed := by
  induction h using Relation.ReflTransGen.head_induction_on with
  | refl => exact hid
  | head hstep _ ih =>
    have hnext := hstep.nextId_le
    exact hstep.mem_listed (ih (Nat.lt_of_lt_of_le hlt hnext)) hlt

end View

namespace Machine

/-- In every state of every run the observers of a subject are in order, and no id is used again. -/
theorem Reachable.ownership {m : Machine} (hm : m.Reachable) (s : Nat) :
    (m.view s).Orderly ∧ ∀ m', Later m m' → ∀ id ∈ (m'.view s).listed,
      id < (m.view s).subject.nextId → id ∈ (m.view s).listed := by
  constructor
  · exact (hm.view s).orderly
  · intro m' h id hid hlt
    exact View.mem_listed_of_later (hm.view_later h s) hid hlt

/-- An observer subscribes another one from inside its callback and lets it hear a value. -/
def recruiting : List Step :=
  [.subject "s" none,
    .subscribe "s" ⟨"A", [.subscribe "s" ⟨"B", [], none, none⟩ "b" none, .next "s" 2], none, none⟩
      "a" none]

def recruited : Machine := run 6 ⟨(after recruiting).world, .run (.next "s" 1), []⟩

theorem ownership_recruited : recruited.Reachable ∧
    (recruited.deliveries 0).map Delivery.ids = [[1], [0]] ∧ (recruited.view 0).Orderly := by
  have h : recruited.Reachable := (reachable_after recruiting).later (later_step rfl _ _)
  exact ⟨h, rfl, (Reachable.ownership h 0).1⟩

end Machine

end Subscriptions.Tracker
