import Subscriptions.Proofs.Lockstep.Statements
import Subscriptions.Proofs.Rule.Classification
import Subscriptions.Proofs.Syntax.Placing

namespace Subscriptions

namespace Node

def accessStart? (n : Node) : Option Nat :=
  if n.kind == .propertyAccess then n.name.map (·.span.start) else none

def accessStarts (ns : List Node) : List Nat := (postorders ns).filterMap accessStart?

theorem accessStarts_concat (before : List Node) (n : Node) :
    accessStarts (before ++ [n]) =
      accessStarts (before ++ n.children) ++ n.accessStart?.toList := by
  rw [accessStarts, postorders_concat, List.filterMap_append, List.filterMap_cons]
  cases n.accessStart? <;> rfl

theorem accessStarts_append (ns ms : List Node) :
    accessStarts (ns ++ ms) = accessStarts ns ++ accessStarts ms := by
  rw [accessStarts, postorders_append, List.filterMap_append]
  rfl

theorem accessStart?_of_kind {n : Node} (h : n.kind ≠ .propertyAccess) : n.accessStart? = none :=
  if_neg fun hkind => h (eq_of_beq hkind)

end Node

namespace Grammar

open Node

/-- The names of all accesses that are pending stand in order, before the tokens that are left. -/
structure InOrder (ns : List Node) (s : State) : Prop where
  ordered : (accessStarts ns).Pairwise (· < ·)
  before : ∀ start ∈ accessStarts ns, start < s.readTo
  rest : s.rest.Pairwise fun t u => t.span.stop ≤ u.span.start
  room : ∀ t ∈ s.rest, s.readTo ≤ t.span.start ∧ t.span.start < t.span.stop

namespace InOrder

variable {ns ms : List Node} {s : State}

/-- Nodes that are no accesses do not matter. -/
theorem congr (h : InOrder ns s) (hstarts : accessStarts ms = accessStarts ns) : InOrder ms s where
  ordered := hstarts ▸ h.ordered
  before := hstarts ▸ h.before
  rest := h.rest
  room := h.room

theorem alloc (h : InOrder ns s) (n : Node) : InOrder ns (s.alloc n) :=
  ⟨h.ordered, h.before, h.rest, h.room⟩

theorem read (h : InOrder ns s) (n : Nat) : InOrder ns (s.readBy n) := by
  have hsplit : (s.rest.take n) ++ (s.rest.drop n) = s.rest := List.take_append_drop n s.rest
  have hread : s.readBy n = { s with
      rest := s.rest.drop n
      readTo := ((s.rest.take n).getLast?.map (·.span.stop)).getD s.readTo } := by
    rw [State.readBy, List.splitAt_eq]
    rfl
  have hpairs := h.rest
  rw [← hsplit, List.pairwise_append] at hpairs
  rw [hread]
  cases hlast : (s.rest.take n).getLast? with
  | none =>
    exact ⟨h.ordered, h.before, hpairs.2.1, fun t ht => h.room t (List.mem_of_mem_drop ht)⟩
  | some u =>
    have hu := List.mem_of_getLast? hlast
    have hroom := h.room u (List.mem_of_mem_take hu)
    refine ⟨h.ordered, fun start hstart => ?_, hpairs.2.1, fun t ht => ⟨?_, ?_⟩⟩
    · exact Nat.lt_of_lt_of_le (h.before start hstart) (Nat.le_trans hroom.1 (Nat.le_of_lt hroom.2))
    · exact hpairs.2.2 u hu t ht
    · exact (h.room t (List.mem_of_mem_drop ht)).2

/-- The name of an access is read after all before it. -/
theorem access {n : Node} {start : Nat} (h : InOrder (ns ++ [n]) s) (hs : s.rest ≠ []) :
    InOrder (ns ++ [(s.readBy 1).node .propertyAccess start (some s.word) none [n]])
      ((s.readBy 1).put .propertyAccess start (some s.word) none [n]) := by
  obtain ⟨t, ts, hrest⟩ := List.exists_cons_of_ne_nil hs
  have hword : s.word = ⟨t.text, t.span⟩ := by
    rw [State.word, State.current, hrest, List.headD_cons]
  have hreadTo : (s.readBy 1).readTo = t.span.stop := by
    rw [State.readBy, List.splitAt_eq, hrest]
    rfl
  have hroom := h.room t (hrest ▸ List.mem_cons_self)
  have hread := h.read 1
  have hstarts :
      accessStarts (ns ++ [(s.readBy 1).node .propertyAccess start (some s.word) none [n]]) =
      accessStarts (ns ++ [n]) ++ [t.span.start] := by
    rw [accessStarts_concat, hword]
    rfl
  refine ⟨?_, ?_, hread.rest, hread.room⟩
  · rw [hstarts, List.pairwise_append]
    refine ⟨h.ordered, List.pairwise_singleton _ _, fun x hx y hy => ?_⟩
    obtain rfl := List.mem_singleton.mp hy
    exact Nat.lt_of_lt_of_le (h.before x hx) hroom.1
  · intro x hx
    rw [hstarts, List.mem_append, List.mem_singleton] at hx
    rcases hx with hx | rfl
    · exact hread.before x hx
    · rw [State.put, State.alloc, hreadTo]
      exact hroom.2

end InOrder

def inOrder : Pairing where
  token t u := t = u
  place _ _ := True
  name _ _ := True
  memberName _ _ := True
  declared _ _ := True
  holds ns _ s _ := InOrder ns s
  piece h := by rw [h]
  place_start _ := trivial
  name_word _ := trivial
  memberName_unquoted _ := trivial
  memberName_computed _ _ _ := trivial
  declared_none := trivial
  declared_read _ _ := trivial
  holds_read n h := h.holds.read n
  holds_report h _ := ⟨h.holds.ordered, h.holds.before, h.holds.rest, h.holds.room⟩
  holds_build {ns _ _ _ _ _ _ _ _ _ _ _ _} h _ hkind _ _ _ := by
    have hstarts := accessStarts_concat ns
    refine (h.holds.alloc _).congr ?_
    rw [hstarts, accessStart?_of_kind hkind]
    exact List.append_nil _
  holds_access h hword _ := h.holds.access (h.rest_ne_nil (isEnd_of_isWord hword))
  holds_alloc n _ h := h.holds.alloc n
  holds_shorthand {ns _ _ _ _ _ _ _ _ _ _ _} _ h _ _ _ := by
    have hstarts := accessStarts_concat ns
    refine (h.holds.alloc _).congr ?_
    rw [hstarts, accessStarts_append, accessStarts_append]
    exact List.append_nil _

theorem twin_start (source : List Char) :
    inOrder.Twin [] [] (Parsed.start source) (Parsed.start source) := by
  obtain ⟨hrest, hroom⟩ := (tiled_tokenize source).ordered
  obtain ⟨front, e, htokens, -, hfront⟩ := (tiled_tokenize source).eq_append_end
  have heq := htokens.symm.trans (Parsed.tokens_eq_start source)
  obtain ⟨rfl, -⟩ := List.append_inj' heq rfl
  rw [htokens] at hrest hroom
  refine Parsed.twin_self _ (fun _ _ => rfl) ?_
  refine ⟨.nil, nofun, (List.pairwise_append.mp hrest).1, fun t ht => ⟨Nat.zero_le _, ?_⟩⟩
  exact hroom t (List.mem_append_left _ ht) (hfront t ht)

end Grammar

namespace Parsed

open Node

/-- In the order of building, the names of the accesses stand in the order of the text. -/
theorem accessStarts_ofSource (source : List Char) :
    (accessStarts [(ofSource source).root]).Pairwise (· < ·) := by
  obtain ⟨xs, ys, s, t, htwin, hroot, -⟩ := twin_of_start _ (Grammar.twin_start source)
  have hstarts : accessStarts [(ofSource source).root] = accessStarts xs := by
    rw [hroot]
    refine (accessStarts_concat [] _).trans ?_
    rw [accessStart?_of_kind Kind.noConfusion]
    exact List.append_nil _
  rw [hstarts]
  exact htwin.holds.ordered

end Parsed

namespace UntrackedRule

variable {rule : UntrackedRule} {resolve : Resolver} {c : Cursor} {v : Violation}

/-- The first name starts before the second one, if both nodes are accesses. -/
def NamedBefore (n m : Node) : Prop :=
  ∀ start, n.accessStart? = some start → ∀ start', m.accessStart? = some start' → start < start'

/-- A violation is where the name of its access is. -/
theorem place_of_violation? (h : rule.violation? resolve c = some v) :
    v.place = c ∧ c.focus.accessStart? = some v.span.start := by
  obtain ⟨hplace, hkind, name, hname, -, hspan⟩ := named_of_violation? h
  have hfocus : (c.focus.kind == .propertyAccess) = true := beq_iff_eq.mpr hkind
  refine ⟨hplace, ?_⟩
  rw [Node.accessStart?, if_pos hfocus, hname, hspan]
  rfl

/-- No access comes before one around it. Violations come in the order of the text, but for those
where the first is around the second. -/
theorem violations_pairwise (source : List Char) :
    (rule.violations resolve (Parsed.ofSource source).root).Pairwise fun v w =>
      w.place ∉ v.place.ancestors ∧
        (v.place ∉ w.place.ancestors ∧ v.span.start < w.span.start ∨
          v.place ∈ w.place.ancestors ∧ w.span.start < v.span.start) := by
  have hstarts := Parsed.accessStarts_ofSource source
  rw [Node.accessStarts, Node.postorders_singleton, List.pairwise_filterMap] at hstarts
  have hvisits := Cursor.pairwise_preorderFrom (S := NamedBefore) [] _ hstarts
  rw [violations, List.pairwise_filterMap]
  refine hvisits.imp fun {c d} hcd v hv w hw => ?_
  obtain ⟨rfl, hc⟩ := place_of_violation? hv
  obtain ⟨rfl, hd⟩ := place_of_violation? hw
  refine ⟨hcd.not_below, ?_⟩
  by_cases hmem : v.place ∈ w.place.ancestors
  · exact .inr ⟨hmem, hcd.above hmem _ hd _ hc⟩
  · exact .inl ⟨hmem, hcd.apart hmem _ hc _ hd⟩

/-- The violations of a source, and so the findings, come in the order of the text just in case no
flagged access is inside of another one. Of two that are one inside of the other, the outer one
comes first, though its name stands later. -/
theorem violations_in_order_unless_nested (source : List Char) (rule : UntrackedRule)
    (resolve : Resolver) :
    let violations := rule.violations resolve (Parsed.ofSource source).root
    (violations.Pairwise (fun v w => v.span.start < w.span.start) ↔
      ∀ v ∈ violations, ∀ w ∈ violations, v.place ∉ w.place.ancestors) ∧
    violations.Pairwise (fun v w => v.span.start < w.span.start ∨
      v.place ∈ w.place.ancestors ∧ w.span.start < v.span.start) ∧
    (rule.check resolve (Parsed.ofSource source).root).map (·.span) = violations.map (·.span) := by
  intro violations
  have hpairs : violations.Pairwise _ := violations_pairwise source
  refine ⟨⟨fun hsorted v hv w hw hmem => ?_, fun hflat => ?_⟩, ?_, ?_⟩
  · have hapart : violations.Pairwise fun v w => v.place ∉ w.place.ancestors := by
      refine hpairs.imp₂ (fun v w hvw hlt => ?_) hsorted
      rcases hvw.2 with hvw | hvw
      · exact hvw.1
      · exact absurd hvw.2 (Nat.lt_asymm hlt)
    have hflip : violations.Pairwise fun v w => w.place ∉ v.place.ancestors :=
      hpairs.imp fun hvw => hvw.1
    have hself : ∀ v ∈ violations, v.place ∉ v.place.ancestors :=
      fun _ _ => Cursor.not_mem_ancestors_self
    exact hapart.forall_of_forall_of_flip hself hflip hv hw hmem
  · refine hpairs.imp_of_mem fun {v w} hv hw hvw => ?_
    rcases hvw.2 with hvw | hvw
    · exact hvw.2
    · exact absurd hvw.1 (hflat v hv w hw)
  · exact hpairs.imp fun hvw => hvw.2.imp_left And.right
  · rw [check, List.map_map]
    rfl

/-- A flagged call on what another flagged call returns. -/
def chainedSource : List Char :=
  ("class Subject \x7b subscribe(): Subject \x7b return this; \x7d \x7d\n" ++
    "declare const a: Subject;\na.subscribe().subscribe();").toList

/-- The call on the result is flagged first, and its name stands last. -/
theorem violations_out_of_order : ¬ ∀ (source : List Char) (rule : UntrackedRule)
    (resolve : Resolver), (rule.violations resolve (Parsed.ofSource source).root).Pairwise
      fun v w => v.span.start < w.span.start := by
  intro h
  have hstarts := List.pairwise_map.mpr
    (h chainedSource default (Resolver.declared Resolver.defaultDepth))
  have hchained : (default.violations (Resolver.declared Resolver.defaultDepth)
      (Parsed.ofSource chainedSource).root).map (·.span.start) = [96, 84] := by
    decide +kernel
  rw [hchained] at hstarts
  revert hstarts
  decide

end UntrackedRule

end Subscriptions
