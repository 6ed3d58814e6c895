import Mathlib.Data.List.Induction
import Subscriptions.Proofs.Tracker.Identities

namespace Subscriptions.Tracker

namespace ReleaseReport

def of (xs : List Handle) : ReleaseReport :=
  xs.foldl (fun report x => report.count x.outcome) ⟨0, 0⟩

theorem of_append (xs : List Handle) (x : Handle) : of (xs ++ [x]) = (of xs).count x.outcome := by
  simp [of]

theorem total_of (xs : List Handle) : (of xs).total = xs.length := by
  induction xs using List.reverseRecOn with
  | nil => rfl
  | append_singleton xs x ih => rw [of_append, total_count, ih, List.length_append]; rfl

theorem failed_of (xs : List Handle) :
    (of xs).failed = xs.countP fun x => x.outcome.isSome := by
  induction xs using List.reverseRecOn with
  | nil => rfl
  | append_singleton xs x ih =>
    rw [of_append, List.countP_append, ← ih]
    cases hx : x.outcome with
    | none => simp [count, hx]
    | some e => simp [count, hx]

end ReleaseReport

namespace Machine

def invoked? (m : Machine) : Option Handle :=
  match m.control with
  | .invoke x => some x
  | _ => none

/-- The handle whose release returns to that many frames, and what it has come to. -/
def returned? (depth : Nat) (m : Machine) : Option (Nat × Option ReleaseError) :=
  match m.control with
  | .released x e => if m.stack.length = depth then some (x.number, e) else none
  | _ => none

def isOf (xs : List Handle) (y : Handle) : Bool := xs.any (·.number == y.number)

/-- How far a drain has come that has released the handles in `done`, having called those in
`called`. -/
inductive Drain (r : Nat) (purpose : DrainPurpose) (base : List Frame) (stored done : List Handle) :
    List Handle → Machine → Prop
  | turn {m : Machine} (x : Handle) (rest : List Handle) (hd : stored = done ++ x :: rest)
      (hc : m.control = .invoke x)
      (hs : m.stack = .draining r rest (.of done) purpose :: base) :
      Drain r purpose base stored done done m
  | busy {m : Machine} (x : Handle) (rest : List Handle) (hd : stored = done ++ x :: rest)
      (hb : Busy x (.draining r rest (.of done) purpose :: base) m) :
      Drain r purpose base stored done (done ++ [x]) m
  | empty {m : Machine} (hd : stored = done) (hc : m.control = .finished)
      (hs : m.stack = .draining r [] (.of done) purpose :: base) :
      Drain r purpose base stored done done m
  | over {m : Machine} (hd : stored = done) (hm : m = drained m.world r (.of done) purpose base) :
      Drain r purpose base stored done done m

variable {m m' a b : Machine} {ms : List Machine} {r : Nat} {purpose : DrainPurpose}
  {base : List Frame} {stored done called : List Handle} {x y : Handle}

theorem drain_start (w : World) (r : Nat) (purpose : DrainPurpose) (base : List Frame) :
    Drain r purpose base (w.registry r).handles [] [] (drain w r purpose base) := by
  cases hr : (w.registry r).handles with
  | nil =>
    rw [drain_of_nil hr]
    exact .empty rfl rfl rfl
  | cons x rest =>
    rw [drain_of_cons hr]
    exact .turn x rest rfl rfl rfl

theorem drain_afterRelease {w : World} {y x : Handle} {rest : List Handle}
    (hd : stored = done ++ x :: rest) :
    Drain r purpose base stored (done ++ [x]) (done ++ [x])
      (afterRelease w y x.outcome (.draining r rest (.of done) purpose) base) := by
  have hof := ReleaseReport.of_append done x
  cases rest with
  | nil =>
    refine .over hd ?_
    rw [hof]
    simp only [afterRelease]
    cases purpose <;> rfl
  | cons z rest =>
    refine .turn z rest (by simpa using hd) rfl ?_
    rw [hof]
    rfl

/-- The drain is not over as long as its frame is there. -/
theorem Drain.over_of_length_le (hd : Drain r purpose base stored done called m)
    (hm : m.stack.length ≤ base.length) :
    stored = done ∧ called = done ∧ m = drained m.world r (.of done) purpose base := by
  cases hd with
  | turn x rest _ _ hs | empty _ _ hs =>
    rw [hs] at hm
    exact absurd hm (Nat.not_succ_le_self _)
  | busy x rest _ hb => exact absurd (Nat.le_trans hb.length_le hm) (Nat.not_succ_le_self _)
  | «over» hd hm => exact ⟨hd, rfl, hm⟩

theorem stack_drained (w : World) (r : Nat) (report : ReleaseReport) (purpose : DrainPurpose)
    (base : List Frame) : (drained w r report purpose base).stack = base := by
  cases purpose <;> rfl

/-- Nobody but the drain itself calls the release of a handle that it has taken. -/
theorem Busy.isOf_eq_false {rest : List Handle}
    (hb : Busy x (.draining r rest (.of done) purpose :: base) m) (hm : m.Reachable)
    (hd : stored = done ++ x :: rest) (hgone : ∀ z ∈ done, m.Gone z.number) (hc : m.control = .invoke y) :
    isOf stored y = false := by
  have hne : ∀ z ∈ stored, z.number ≠ y.number := by
    intro z hz
    rw [hd] at hz
    rcases List.mem_append.mp hz with hz | hz
    · exact ((hgone z hz).number_ne (mem_handles_of_invoke hc)).symm
    · rcases List.mem_cons.mp hz with rfl | hz
      · exact (hb.number_ne hm hc).symm
      · have hwaits := hb.mem_waiting hz
        refine (hm.number_ne rfl ?_ (List.mem_append_left _ hwaits)).symm
        rw [hc]
        exact List.mem_cons_self
  simpa [isOf] using hne

/-- What one move does to a drain that is not over. -/
theorem Drain.next (hd : Drain r purpose base stored done called m) (hm : m.Reachable)
    (hgone : ∀ z ∈ done, m.Gone z.number) (hdeep : base.length < m.stack.length)
    (hn : Next m m') :
    ∃ done' called', Drain r purpose base stored done' called' m' ∧
      (∀ z ∈ done', m'.Gone z.number) ∧
      called' = called ++ (m.invoked?.filter (isOf stored)).toList ∧
      done'.map (fun z => (z.number, z.outcome)) =
        done.map (fun z => (z.number, z.outcome)) ++ (m.returned? (base.length + 1)).toList := by
  have hgone' : ∀ z ∈ done, m'.Gone z.number := fun z hz => (hgone z hz).later hm (.single hn)
  cases hd with
  | turn x rest hd hc hs =>
    have hof : isOf stored x = true := by simp [isOf, hd]
    have hmove : m.move = some (invoke m.world x m.stack) := by
      obtain ⟨w, c, stack⟩ := m
      obtain rfl : c = _ := hc
      rfl
    obtain rfl := hn.eq_of_move hmove
    refine ⟨done, _, .busy x rest hd (hs ▸ busy_of_invoke hc hmove), hgone', ?_, ?_⟩
    · simp [invoked?, hc, hof, Option.filter]
    · simp [returned?, hc]
  | busy x rest hd hb =>
    rcases hb.next hm hn with ⟨hlt, hb'⟩ | ⟨y, hy, hc, hs, rfl⟩
    · refine ⟨done, _, .busy x rest hd hb', hgone', ?_, ?_⟩
      · cases hc : m.control with
        | invoke y => simp [invoked?, hc, hb.isOf_eq_false hm hd hgone hc]
        | run | answer | finished | released | leave => simp [invoked?, hc]
      · have hne : m.stack.length ≠ base.length + 1 := Nat.ne_of_gt hlt
        cases hc : m.control with
        | released y e => simp [returned?, hc, hne]
        | run | answer | finished | invoke | leave => simp [returned?, hc]
    · refine ⟨_, _, drain_afterRelease hd, ?_, ?_, ?_⟩
      · intro z hz
        rcases List.mem_append.mp hz with hz | hz
        · exact hgone' z hz
        · obtain rfl := List.mem_singleton.mp hz
          exact hy ▸ gone_afterRelease hm hc hs rfl
      · simp [invoked?, hc]
      · simp [returned?, hc, hs, hy]
  | empty hd hc hs =>
    have hmove : m.move = some (drained m.world r (.of done) purpose base) := by
      obtain ⟨w, c, stack⟩ := m
      obtain rfl : c = _ := hc
      obtain rfl : stack = _ := hs
      rfl
    obtain rfl := hn.eq_of_move hmove
    refine ⟨done, _, .over hd ?_, hgone', ?_, ?_⟩
    · cases purpose <;> rfl
    · simp [invoked?, hc]
    · simp [returned?, hc]
  | «over» hd hover =>
    rw [hover, stack_drained] at hdeep
    exact absurd hdeep (Nat.lt_irrefl _)

/-- What a drain has taken is being released, waits for that, or is gone: no registry stores it. -/
theorem Drain.isOf_stored (hd : Drain r purpose base stored done called m) (hm : m.Reachable)
    (hgone : ∀ z ∈ done, m.Gone z.number) (hx : x ∈ m.world.handles) : isOf stored x = false := by
  have hworld {z : Handle}
      (hz : ∃ y ∈ m.control.handles ++ m.stack.flatMap Frame.handles, y.number = z.number) :
      z.number ≠ x.number := by
    obtain ⟨y, hy, hyz⟩ := hz
    exact hyz ▸ hm.number_ne (List.append_assoc _ _ _).symm hy hx
  have hdone {z : Handle} (hz : z ∈ done) : z.number ≠ x.number := by
    have hmem : x ∈ m.handles := List.mem_append_right _ (List.mem_append_right _ hx)
    exact ((hgone z hz).number_ne hmem).symm
  have hne : ∀ z ∈ stored, z.number ≠ x.number := by
    intro z hz
    cases hd with
    | turn y rest hd hc hs =>
      rw [hd] at hz
      rcases List.mem_append.mp hz with hz | hz
      · exact hdone hz
      · refine hworld ⟨z, ?_, rfl⟩
        rw [hc, hs]
        rcases List.mem_cons.mp hz with rfl | hz
        · exact List.mem_cons_self
        · exact List.mem_append_right _ (List.mem_append_left _ hz)
    | busy y rest hd hb =>
      rw [hd] at hz
      rcases List.mem_append.mp hz with hz | hz
      · exact hdone hz
      · rcases List.mem_cons.mp hz with rfl | hz
        · exact hworld hb.exists_mem
        · exact hworld ⟨z, List.mem_append_right _ (hb.mem_waiting hz), rfl⟩
    | empty hd => exact hdone (hd ▸ hz)
    | «over» hd => exact hdone (hd ▸ hz)
  simpa [isOf] using hne

/-- A whole drain, with all that was called and all that returned to it so far. -/
theorem Drain.trail (hd : Drain r purpose base stored [] [] m) (hm : m.Reachable)
    (h : Trail m ms m') (hdeep : ∀ a ∈ ms, base.length < a.stack.length) :
    ∃ done called, Drain r purpose base stored done called m' ∧ (∀ z ∈ done, m'.Gone z.number) ∧
      (ms.filterMap invoked?).filter (isOf stored) = called ∧
      ms.filterMap (returned? (base.length + 1)) = done.map fun z => (z.number, z.outcome) := by
  induction h with
  | stay => exact ⟨[], [], hd, (fun z hz => nomatch hz), rfl, rfl⟩
  | @go a b past h hn ih =>
    obtain ⟨done, called, hdrain, hgone, hcalled, hreturned⟩ :=
      ih fun c hc => hdeep c (List.mem_append_left _ hc)
    have hlt := hdeep a (List.mem_append_right _ List.mem_cons_self)
    obtain ⟨done', called', hdrain', hgone', hcalled', hreturned'⟩ :=
      hdrain.next (h.reachable hm) hgone hlt hn
    refine ⟨done', called', hdrain', hgone', ?_, ?_⟩
    · rw [hcalled', ← hcalled, List.filterMap_append, List.filter_append]
      cases hi : a.invoked? with
      | none => simp [hi]
      | some x => cases hx : isOf stored x <;> simp [hi, hx, Option.filter]
    · rw [hreturned', ← hreturned, List.filterMap_append]
      cases hi : returned? (base.length + 1) a <;> simp [hi]

/-- A handle that a drain has taken has its turn, above nothing but the drain. -/
theorem exists_turn (hm : m.Reachable) (hmove : m.move = some (drain m.world r purpose base))
    (h : Trail (drain m.world r purpose base) ms m')
    (hdeep : ∀ a ∈ ms, base.length < a.stack.length) (hle : m'.stack.length ≤ base.length)
    (hx : x ∈ (m.world.registry r).handles) :
    ∃ before a after b, ms = before ++ a :: after ∧ a.control = .invoke x ∧
      Trail (drain m.world r purpose base) before a ∧ Next a b ∧ Trail b after m' ∧
      ∃ rest report, a.stack = .draining r rest report purpose :: base := by
  have hm₁ : (drain m.world r purpose base).Reachable := hm.tail (.move hmove)
  have hstart := drain_start m.world r purpose base
  have hof : isOf (m.world.registry r).handles x = true := by
    simp only [isOf, List.any_eq_true, beq_iff_eq]
    exact ⟨x, hx, rfl⟩
  obtain ⟨done, called, hdrain, -, hcalled, -⟩ := hstart.trail hm₁ h hdeep
  obtain ⟨hdone, hcd, -⟩ := hdrain.over_of_length_le hle
  have hmem : x ∈ (ms.filterMap invoked?).filter (isOf (m.world.registry r).handles) := by
    rw [hcalled, hcd, ← hdone]
    exact hx
  obtain ⟨a, ha, hinvoked⟩ := List.mem_filterMap.mp (List.mem_filter.mp hmem).1
  have hc : a.control = .invoke x := by
    cases hc : a.control with
    | invoke y => simpa [invoked?, hc] using hinvoked
    | run | answer | finished | released | leave => simp [invoked?, hc] at hinvoked
  have hlt := hdeep a ha
  obtain ⟨before, after, b, he, hbefore, hn, hafter⟩ := h.of_mem ha
  refine ⟨before, a, after, b, he, hc, hbefore, hn, hafter, ?_⟩
  have hbefore' : ∀ c ∈ before, base.length < c.stack.length := fun c hc =>
    hdeep c (he ▸ List.mem_append_left _ hc)
  obtain ⟨done', called', hdrain', hgone, -, -⟩ := hstart.trail hm₁ hbefore hbefore'
  cases hdrain' with
  | turn y rest _ _ hs => exact ⟨rest, _, hs⟩
  | busy y rest hd hb =>
    rw [hb.isOf_eq_false (hbefore.reachable hm₁) hd hgone hc] at hof
    cases hof
  | empty _ hc' =>
    rw [hc] at hc'
    cases hc'
  | «over» _ hover =>
    rw [hover, stack_drained] at hlt
    exact absurd hlt (Nat.lt_irrefl _)

/-- What a drain does to the handles that were stored, up to its end. -/
structure Unloads (m : Machine) (r : Nat) (purpose : DrainPurpose) (base : List Frame)
    (ms : List Machine) (m' : Machine) : Prop where
  /-- Each of them was released once, in the order of acquisition. -/
  once : (ms.filterMap invoked?).filter (isOf (m.world.registry r).handles) =
    (m.world.registry r).handles
  returned : ms.filterMap (returned? (base.length + 1)) =
    (m.world.registry r).handles.map fun x => (x.number, x.outcome)
  report : ∃ report : ReleaseReport, m' = drained m'.world r report purpose base ∧
    report.released + report.failed = (m.world.registry r).handles.length ∧
    report.failed = (ms.filterMap (returned? (base.length + 1))).countP (·.2.isSome)
  /-- What is acquired meanwhile is not released by the drain, and stays until somebody asks for it
  or a further drain begins. -/
  acquired : ∀ before a after id x, ms = before ++ a :: after → a.Acquires r id x →
    isOf (m.world.registry r).handles x = false ∧
    ∀ more m'', Trail m' more m'' → ((m''.world.registry r).handle? id = some x ↔
      ∀ b ∈ after ++ more, ¬ (b.Asks r id ∨ b.Drains r))

theorem unloads_of_drain (hm : m.Reachable)
    (hmove : m.move = some (drain m.world r purpose base))
    (h : Trail (drain m.world r purpose base) ms m')
    (hdeep : ∀ a ∈ ms, base.length < a.stack.length) (hle : m'.stack.length ≤ base.length) :
    m.Unloads r purpose base ms m' := by
  have hstart := drain_start m.world r purpose base
  have hm₁ : (drain m.world r purpose base).Reachable := hm.tail (.move hmove)
  obtain ⟨done, called, hdrain, hgone, hcalled, hreturned⟩ := hstart.trail hm₁ h hdeep
  obtain ⟨hdone, hcd, hover⟩ := hdrain.over_of_length_le hle
  refine ⟨hcalled.trans (hcd.trans hdone.symm), hdone ▸ hreturned, ⟨.of done, hover, ?_, ?_⟩, ?_⟩
  · rw [hdone]
    exact ReleaseReport.total_of done
  · rw [hreturned, List.countP_map, ReleaseReport.failed_of]
    rfl
  · intro before a after id x he ha
    obtain ⟨hbefore, b, hn, hafter⟩ := h.split he
    refine ⟨?_, fun more m'' hmore => ?_⟩
    · have hb : Trail (drain m.world r purpose base) (before ++ [a]) b := hbefore.go hn
      have hb' : ∀ c ∈ before ++ [a], base.length < c.stack.length := by
        intro c hc
        rw [he, List.append_cons] at hdeep
        exact hdeep c (List.mem_append_left _ hc)
      obtain ⟨done', called', hdrain', hgone', -, -⟩ := hstart.trail hm₁ hb hb'
      have hx := (handle?_next (hbefore.reachable hm₁).housed hn).mpr (.inr ha)
      exact hdrain'.isOf_stored (hb.reachable hm₁) hgone' (World.mem_handles_of_handle? hx)
    · exact ha.stays_iff (hbefore.reachable hm₁) hn (hafter.append hmore)

/-- Over any run, the release of a handle is called once more only after a direct call on one that
no registry stored; and each drain that ends has released what was stored, and nothing else. -/
theorem registry_releases_once (h : Trail idle ms m) :
    (∀ before between after a b x y, ms = before ++ a :: (between ++ b :: after) →
      a.control = .invoke x → b.control = .invoke y → x.number = y.number →
        ∃ name stack, a.stack = .holding name :: stack) ∧
    ∀ r purpose base, m.move = some (drain m.world r purpose base) →
      ∀ inner m', Trail (drain m.world r purpose base) inner m' →
        (∀ a ∈ inner, base.length < a.stack.length) → m'.stack.length ≤ base.length →
          m.Unloads r purpose base inner m' := by
  have hidle : idle.Reachable := .refl
  refine ⟨?_, fun r purpose base hmove inner m' h' hdeep hle =>
    unloads_of_drain (h.reachable hidle) hmove h' hdeep hle⟩
  intro before between after a b x y he hx hy hxy
  obtain ⟨hbefore, c, hn, hc⟩ := h.split he
  obtain ⟨hbetween, -⟩ := hc.split rfl
  have ha := hbefore.reachable hidle
  have hnested := ha.regular.nested
  have hmove : a.move = some (invoke a.world x a.stack) := by
    obtain ⟨w, c, stack⟩ := a
    obtain rfl : c = _ := hx
    rfl
  obtain rfl := hn.eq_of_move hmove
  rw [WellNested, hx] at hnested
  cases hs : a.stack with
  | nil =>
    rw [hs] at hnested
    cases hnested
  | cons f stack =>
    rw [hs] at hnested
    have hagain (hf : f.isRegistry = true) : False :=
      not_invoke_again ha hx hs hf hmove hbetween.later hy hxy.symm
    cases f with
    | holding name => exact ⟨name, stack, rfl⟩
    | releasing | draining => exact absurd rfl hagain
    | program | teardown | delivery | subscribing | replaying | scope => cases hnested.1

/-- Two handles are drained, of which the first one stores a third one and fails. -/
def refilled : Machine := ⟨(after replacing).world, .run (.releaseAll "r"), []⟩

theorem refilled_releases_once : ∃ past inner m', Trail idle past refilled ∧
    refilled.move = some (drain refilled.world 1 .report []) ∧
    Trail (drain refilled.world 1 .report []) inner m' ∧ m'.stack = [] ∧
    refilled.Unloads 1 .report [] inner m' ∧ (m'.world.registry 1).length = 1 := by
  have hreach : refilled.Reachable := (reachable_after replacing).tail (.step rfl _)
  obtain ⟨past, h⟩ := exists_trail hreach
  have hdrain := trail_run 9 (drain refilled.world 1 .report [])
  have hdeep : ∀ a ∈ trace 9 (drain refilled.world 1 .report []), 0 < a.stack.length := by
    decide
  have hunloads := (registry_releases_once h).2 1 .report [] rfl _ _ hdrain hdeep (Nat.le_refl _)
  exact ⟨past, _, _, h, rfl, hdrain, rfl, hunloads, rfl⟩

end Machine

end Subscriptions.Tracker
