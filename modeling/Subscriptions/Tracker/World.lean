import Subscriptions.Tracker.Step
import Subscriptions.Tracker.Subject

namespace Subscriptions.Tracker

/-- What can be released. -/
inductive Resource
  | teardown (t : Teardown Program)
  /-- The observer with that id on the subject with that number. -/
  | subscription (subject id : Nat)

/-- A handle with its number, by which no two handles are the same. -/
structure Handle where
  number : Nat
  resource : Resource
  /-- It has been released before. -/
  spent : Bool

/-- Where an acquisition was made. -/
structure Acquisition where
  registry : String
  id : TrackedId
deriving Repr, DecidableEq, Inhabited

/-- All registries and subjects there have been, by number, and the names that are in use. -/
structure World where
  registries : List (Registry Handle)
  registryNames : List (String × Nat)
  subjects : List (Subject (Observer Program))
  subjectNames : List (String × Nat)
  /-- Handles owned by no registry. -/
  held : List (String × Handle)
  acquisitions : List (String × Acquisition)
  handleCount : Nat
  deliveryCount : Nat
  /-- What has happened, the latest first. -/
  events : List Event

def bindName {α : Type} (names : List (String × α)) (name : String) (a : α) : List (String × α) :=
  (names.filter (·.1 != name)) ++ [(name, a)]

def unbindName {α : Type} (names : List (String × α)) (name : String) : List (String × α) :=
  names.filter (·.1 != name)

theorem lookup_bindName {α : Type} (names : List (String × α)) (name : String) (a : α) :
    (bindName names name a).lookup name = some a := by
  unfold bindName
  induction names with
  | nil => simp
  | cons p ps ih =>
    obtain ⟨n, b⟩ := p
    by_cases h : n = name
    · simpa [h] using ih
    · have hne : (name == n) = false := by rw [beq_eq_false_iff_ne]; exact Ne.symm h
      simp [h, List.lookup_cons, hne]
      simpa using ih

theorem mem_bindName {α : Type} {names : List (String × α)} {name : String} {a : α}
    {p : String × α} (h : p ∈ bindName names name a) : p ∈ names ∨ p = (name, a) := by
  rcases List.mem_append.mp h with h | h
  · exact .inl (List.mem_filter.mp h).1
  · exact .inr (List.mem_singleton.mp h)

theorem mem_of_lookup {α : Type} {names : List (String × α)} {name : String} {a : α}
    (h : names.lookup name = some a) : (name, a) ∈ names := by
  induction names with
  | nil => cases h
  | cons p ps ih =>
    obtain ⟨n, b⟩ := p
    rw [List.lookup_cons] at h
    split at h
    · rename_i hn
      obtain rfl := eq_of_beq hn
      cases h
      exact List.mem_cons_self
    · exact List.mem_cons_of_mem _ (ih h)

theorem countP_bindName_le {α : Type} (names : List (String × α)) (name : String) (a : α)
    (p : String × α → Bool) :
    (bindName names name a).countP p ≤ names.countP p + [(name, a)].countP p := by
  rw [bindName, List.countP_append]
  exact Nat.add_le_add_right (List.filter_sublist.countP_le) _

theorem countP_unbindName_le {α : Type} {names : List (String × α)} {name : String} {a : α}
    (h : names.lookup name = some a) (p : String × α → Bool) :
    (unbindName names name).countP p + [(name, a)].countP p ≤ names.countP p := by
  induction names with
  | nil => cases h
  | cons q qs ih =>
    obtain ⟨n, b⟩ := q
    rw [List.lookup_cons] at h
    rw [unbindName, List.filter_cons]
    split at h
    · rename_i hn
      obtain rfl := eq_of_beq hn
      cases h
      have hle : (qs.filter (·.1 != name)).countP p ≤ qs.countP p :=
        List.filter_sublist.countP_le
      simp only [bne_self_eq_false, Bool.false_eq_true, if_false, List.countP_cons, List.countP_nil]
      omega
    · rename_i hn
      have hne : (n != name) = true := by
        rw [bne_iff_ne]
        rintro rfl
        simp at hn
      have hle := ih h
      simp only [hne, if_true, List.countP_cons, List.countP_nil] at hle ⊢
      rw [unbindName] at hle
      omega

namespace World

/-- The registry that is there from the start and never dropped. -/
def globalName : String := "@global"

def globalRegistry : Nat := 0

def start : World := ⟨[.empty], [], [], [], [], [], 0, 0, []⟩

def happen (w : World) (e : Event) : World := { w with events := e :: w.events }

def registryNumber? (w : World) (name : String) : Option Nat :=
  if name == globalName then some globalRegistry else w.registryNames.lookup name

def registry (w : World) (r : Nat) : Registry Handle := (w.registries[r]?).getD .empty

def setRegistry (w : World) (r : Nat) (value : Registry Handle) : World :=
  { w with registries := w.registries.set r value }

def subject (w : World) (s : Nat) : Subject (Observer Program) := (w.subjects[s]?).getD .empty

def setSubject (w : World) (s : Nat) (value : Subject (Observer Program)) : World :=
  { w with subjects := w.subjects.set s value }

theorem subject_setSubject {w : World} {s : Nat} (h : s < w.subjects.length)
    (value : Subject (Observer Program)) : (w.setSubject s value).subject s = value := by
  simp [subject, setSubject, h]

theorem subject_setSubject_of_ne (w : World) {s t : Nat} (h : t ≠ s)
    (value : Subject (Observer Program)) : (w.setSubject s value).subject t = w.subject t := by
  simp [subject, setSubject, List.getElem?_set_ne h.symm]

/-- A subject that is not there yet is as good as new. -/
theorem subject_append_empty (w : World) (names : List (String × Nat)) (s : Nat) :
    ({ w with subjects := w.subjects ++ [.empty], subjectNames := names } : World).subject s =
      w.subject s := by
  simp only [subject, List.getElem?_append]
  split
  · rfl
  · rename_i hs
    rw [List.getElem?_eq_none (Nat.le_of_not_lt hs)]
    cases s - w.subjects.length <;> simp

theorem length_setSubject (w : World) (s : Nat) (value : Subject (Observer Program)) :
    (w.setSubject s value).subjects.length = w.subjects.length := by
  simp [setSubject]

def isNamed (w : World) (r : Nat) : Bool :=
  r == globalRegistry || w.registryNames.any (·.2 == r)

def newHandle (w : World) (resource : Resource) : Handle × World :=
  (⟨w.handleCount, resource, false⟩, { w with handleCount := w.handleCount + 1 })

def track (w : World) (r : Nat) (registryName name : String) (h : Handle) : Answer × World :=
  let (id, registry) := (w.registry r).acquire h
  let w := w.setRegistry r registry
  (@Answer.issued r id, { w with acquisitions := bindName w.acquisitions name ⟨registryName, id⟩ })

/-- Keeps a handle that no registry owns. -/
def hold (w : World) (name : String) (h : Handle) : World :=
  { w with held := bindName w.held name h }

def registryLengths (w : World) : List (String × Nat) :=
  w.registryNames.map fun p => (p.1, (w.registry p.2).length)

def subjectStates (w : World) : List (String × Nat × Bool) :=
  w.subjectNames.map fun p => (p.1, (w.subject p.2).observerCount, (w.subject p.2).closed)

end World

end Subscriptions.Tracker
