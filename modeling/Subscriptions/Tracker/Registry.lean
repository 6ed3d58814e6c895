namespace Subscriptions.Tracker

/-- Identifies one acquisition in a registry. -/
structure TrackedId where
  generation : Nat
  index : Nat
deriving Repr, DecidableEq, Inhabited

def TrackedId.text (id : TrackedId) : String :=
  "TrackedId \x7b generation: " ++ toString id.generation ++ ", index: " ++ toString id.index ++
    " \x7d"

/-- Why a release fails. -/
inductive ReleaseError
  | alreadyReleased
  | failed (reason : String)
deriving Repr, DecidableEq, Inhabited

def ReleaseError.message : ReleaseError → String
  | .alreadyReleased => "subscription was already released"
  | .failed reason => "release failed: " ++ reason

/-- The outcome of a drain. -/
structure ReleaseReport where
  released : Nat
  failed : Nat
deriving Repr, DecidableEq, Inhabited

namespace ReleaseReport

def total (r : ReleaseReport) : Nat := r.released + r.failed

def count (r : ReleaseReport) : Option ReleaseError → ReleaseReport
  | none => { r with released := r.released + 1 }
  | some _ => { r with failed := r.failed + 1 }

theorem total_count (r : ReleaseReport) (e : Option ReleaseError) :
    (r.count e).total = r.total + 1 := by
  cases e <;> simp [count, total] <;> omega

end ReleaseReport

def lengthText (length : Nat) : String :=
  "SubscriptionRegistry \x7b len: " ++ toString length ++ " \x7d"

/-- Holds the handles acquired since the last drain, each at its own place. -/
structure Registry (η : Type) where
  /-- The number of drains begun. -/
  generation : Nat
  slots : List (Option η)
deriving Repr, DecidableEq, Inhabited

namespace Registry

variable {η : Type}

def empty : Registry η := ⟨0, []⟩

def acquire (r : Registry η) (h : η) : TrackedId × Registry η :=
  (⟨r.generation, r.slots.length⟩, { r with slots := r.slots ++ [some h] })

/-- The handle stored under an id, unless the id is from before a drain. -/
def handle? (r : Registry η) (id : TrackedId) : Option η :=
  if r.generation == id.generation then (r.slots[id.index]?).join else none

def clear (r : Registry η) (id : TrackedId) : Registry η :=
  { r with slots := r.slots.set id.index none }

def handles (r : Registry η) : List η := r.slots.filterMap fun slot => slot

/-- Begins a drain: all handles are taken, and ids given so far are stale. -/
def drain (r : Registry η) : List η × Registry η := (r.handles, ⟨r.generation + 1, []⟩)

/-- The number of handles that wait to be released. -/
def length (r : Registry η) : Nat := r.handles.length

theorem handles_acquire (r : Registry η) (h : η) :
    (r.acquire h).2.handles = r.handles ++ [h] := by
  simp [acquire, handles]

theorem length_acquire (r : Registry η) (h : η) : (r.acquire h).2.length = r.length + 1 := by
  simp [length, handles_acquire]

theorem handle?_acquire (r : Registry η) (h : η) :
    (r.acquire h).2.handle? (r.acquire h).1 = some h := by
  simp [acquire, handle?]

theorem handles_drain (r : Registry η) : r.drain.2.handles = [] := rfl

/-- No id given before a drain finds a handle after it. -/
theorem handle?_drain (r : Registry η) (id : TrackedId) (h : id.generation ≤ r.generation) :
    r.drain.2.handle? id = none := by
  have hne : (r.generation + 1 == id.generation) = false := by
    rw [beq_eq_false_iff_ne]
    omega
  simp [drain, handle?, hne]

end Registry

end Subscriptions.Tracker
