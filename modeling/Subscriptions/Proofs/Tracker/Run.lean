import Mathlib.Logic.Relation
import Subscriptions.Tracker.Machine

namespace Subscriptions.Tracker.Machine

/-- A run goes on by a move or, where nothing is left to do, with any further step. -/
inductive Next : Machine → Machine → Prop
  | move {m m' : Machine} (h : m.move = some m') : Next m m'
  | step {m : Machine} (h : m.move = none) (s : Step) : Next m ⟨m.world, .run s, []⟩

abbrev Later : Machine → Machine → Prop := Relation.ReflTransGen Next

def idle : Machine := ⟨.start, .answer .nothing, []⟩

def Reachable (m : Machine) : Prop := Later idle m

theorem stack_of_move_eq_none {m : Machine} (h : m.move = none) : m.stack = [] := by
  obtain ⟨w, c, stack⟩ := m
  cases c <;> cases stack <;> simp_all [move]

theorem Reachable.later {m m' : Machine} (hm : m.Reachable) (h : Later m m') : m'.Reachable :=
  Relation.ReflTransGen.trans hm h

/-- What holds at the start of every run and is kept by all that follows holds throughout. -/
theorem Reachable.invariant {P : Machine → Prop} (hidle : P idle)
    (hnext : ∀ m m', P m → Next m m' → P m') {m : Machine} (hm : m.Reachable) : P m := by
  induction hm with
  | refl => exact hidle
  | tail _ h ih => exact hnext _ _ ih h

/-- A bounded number of moves is part of a run. -/
theorem later_run (fuel : Nat) (m : Machine) : Later m (run fuel m) := by
  induction fuel generalizing m with
  | zero => exact .refl
  | succ fuel ih =>
    cases h : m.move with
    | none => simp only [run, h]; exact .refl
    | some next =>
      simp only [run, h]
      exact (ih next).head (.move h)

/-- The moves of a further step. -/
theorem later_step {m : Machine} (h : m.move = none) (s : Step) (fuel : Nat) :
    Later m (run fuel ⟨m.world, .run s, []⟩) :=
  (later_run fuel _).head (.step h s)

/-- Performs a further step if nothing is left to do. -/
def perform (m : Machine) (s : Step) : Machine :=
  if m.move.isNone then run patience ⟨m.world, .run s, []⟩ else m

theorem later_perform (m : Machine) (s : Step) : Later m (m.perform s) := by
  unfold perform
  split
  · rename_i h
    exact later_step (Option.isNone_iff_eq_none.mp h) s patience
  · exact .refl

def after (steps : List Step) : Machine := steps.foldl perform idle

theorem reachable_after (steps : List Step) : (after steps).Reachable := by
  have hfold (m : Machine) : Later m (steps.foldl perform m) := by
    induction steps generalizing m with
    | nil => exact .refl
    | cons s steps ih => exact (later_perform m s).trans (ih _)
  exact hfold idle

/-- A stretch of a run, with the states that it leaves behind. -/
inductive Trail : Machine → List Machine → Machine → Prop
  | stay (m : Machine) : Trail m [] m
  | go {m a b : Machine} {past : List Machine} (h : Trail m past a) (hn : Next a b) :
      Trail m (past ++ [a]) b

variable {m m' a b : Machine} {past before after : List Machine}

theorem Trail.later (h : Trail m past m') : Later m m' := by
  induction h with
  | stay => exact .refl
  | go _ hn ih => exact ih.tail hn

theorem exists_trail (h : Later m m') : ∃ past, Trail m past m' := by
  induction h with
  | refl => exact ⟨[], .stay m⟩
  | tail _ hn ih =>
    obtain ⟨past, h⟩ := ih
    exact ⟨_, h.go hn⟩

theorem Trail.append (h : Trail m before a) (h' : Trail a after m') :
    Trail m (before ++ after) m' := by
  induction h' with
  | stay => rwa [List.append_nil]
  | go _ hn ih =>
    rw [← List.append_assoc]
    exact ih.go hn

theorem Trail.cons (hn : Next m a) (h : Trail a after m') : Trail m (m :: after) m' :=
  ((Trail.stay m).go hn).append h

/-- A trail is cut at any state that it leaves. -/
theorem Trail.split (h : Trail m past m') (he : past = before ++ a :: after) :
    Trail m before a ∧ ∃ b, Next a b ∧ Trail b after m' := by
  induction h generalizing after with
  | stay => simp at he
  | @go x y past h hn ih =>
    rcases List.eq_nil_or_concat after with rfl | ⟨after', z, rfl⟩
    · obtain ⟨rfl, hx⟩ := List.append_inj' he rfl
      obtain rfl := (List.cons.inj hx).1
      exact ⟨h, y, hn, .stay y⟩
    · have he' : past ++ [x] = (before ++ a :: after') ++ [z] := by simpa using he
      obtain ⟨hpast, hx⟩ := List.append_inj' he' rfl
      obtain rfl := (List.cons.inj hx).1
      obtain ⟨hbefore, b, hb, hafter⟩ := ih hpast
      refine ⟨hbefore, b, hb, ?_⟩
      rw [List.concat_eq_append]
      exact hafter.go hn

theorem Trail.of_mem (h : Trail m past m') (ha : a ∈ past) :
    ∃ before after b, past = before ++ a :: after ∧ Trail m before a ∧ Next a b ∧
      Trail b after m' := by
  obtain ⟨before, after, he⟩ := List.append_of_mem ha
  obtain ⟨hbefore, b, hn, hafter⟩ := h.split he
  exact ⟨before, after, b, he, hbefore, hn, hafter⟩

theorem Trail.reachable (h : Trail m past m') (hm : m.Reachable) : m'.Reachable :=
  hm.later h.later

/-- The moves of a run, the states that they leave included. -/
def trace : Nat → Machine → List Machine
  | 0, _ => []
  | fuel + 1, m =>
    match m.move with
    | none => []
    | some next => m :: trace fuel next

theorem trail_run (fuel : Nat) (m : Machine) : Trail m (trace fuel m) (run fuel m) := by
  induction fuel generalizing m with
  | zero => exact .stay m
  | succ fuel ih =>
    cases h : m.move with
    | none =>
      simp only [trace, run, h]
      exact .stay m
    | some next =>
      simp only [trace, run, h]
      exact (ih next).cons (.move h)

end Subscriptions.Tracker.Machine
