import Subscriptions.Proofs.Lockstep.Statements
import Subscriptions.Proofs.Making.Statements
import Subscriptions.Proofs.Syntax.Gaps

namespace Subscriptions

namespace Node

/-- A node lies within its parent. Only the decorators of a class stand in front of it, and only a
namespace without a body can be empty, at the end of the file. -/
def Holds (stop : Nat) (n c : Node) : Prop :=
  n.span.contains c.span = true ∨
  n.kind = .classDeclaration ∧ c.kind = .decorator ∧ c.span.stop ≤ n.span.start ∨
  c.kind = .typeDeclaration ∧ c.children = [] ∧ c.span = ⟨stop, stop⟩

/-- The spans of a node, of its children and of its name in a file that ends at `stop`. -/
structure Nests (stop : Nat) (n : Node) : Prop where
  ordered : n.span.start ≤ n.span.stop
  holds : ∀ c ∈ n.children, n.Holds stop c
  apart : n.children.Pairwise fun c d => c.span.stop ≤ d.span.start
  /-- Only the identifier behind `new.` can have an empty name, at the end of the file. -/
  named : ∀ x ∈ n.name, n.span.contains x.span = true ∨ n.kind = .identifier ∧ x = ⟨"", ⟨stop, stop⟩⟩

end Node

theorem Span.contains_iff {s t : Span} : s.contains t = true ↔ s.start ≤ t.start ∧ t.stop ≤ s.stop := by
  rw [contains, Bool.and_eq_true, decide_eq_true_eq, decide_eq_true_eq]

namespace Grammar

variable {stop : Nat} {a m b s : State} {ns front inner : List Node} {n : Node}

/-- The tokens to come lie one behind the other, and behind the last one that was read. -/
structure Placed (stop : Nat) (s : State) : Prop where
  ordered : (s.rest ++ [s.last]).Pairwise fun t u => t.span.stop ≤ u.span.start
  room : ∀ t ∈ s.rest, t.span.start < t.span.stop
  readTo : s.readTo ≤ s.current.span.start
  lastText : s.last.text = ""
  lastSpan : s.last.span = ⟨stop, stop⟩

theorem Placed.current_le_of_mem (h : Placed stop s) {t : Token} (ht : t ∈ s.rest) :
    s.current.span.start ≤ t.span.start := by
  have hordered := h.ordered
  have hroom := h.room
  rw [State.current]
  cases hrest : s.rest with
  | nil => simp [hrest] at ht
  | cons u ts =>
    rw [hrest, List.cons_append, List.pairwise_cons] at hordered
    rw [hrest] at ht hroom
    rw [List.headD_cons]
    rcases List.mem_cons.mp ht with rfl | ht
    · exact Nat.le_refl _
    · have hlater := hordered.1 t (List.mem_append_left _ ht)
      have hu := hroom u List.mem_cons_self
      omega

theorem Placed.report (h : Placed stop s) {f : Fault} : Placed stop (s.report f) :=
  ⟨h.ordered, h.room, h.readTo, h.lastText, h.lastSpan⟩

/-- A parse keeps the tokens in their places, and all that it reads lies between where it started
and where it has come to. -/
theorem Placed.between (ha : Placed stop a) {ts : List Token} (hrest : a.rest = ts ++ b.rest)
    (hto : b.readTo = (ts.getLast?.map (·.span.stop)).getD a.readTo) (hlast : b.last = a.last) :
    Placed stop b ∧ a.readTo ≤ b.readTo ∧
      ∀ t ∈ ts, a.current.span.start ≤ t.span.start ∧ t.span.stop ≤ b.readTo := by
  rcases List.eq_nil_or_concat ts with rfl | ⟨init, u, rfl⟩
  · have hcurrent : b.current = a.current := by rw [State.current, State.current, hrest, hlast]; rfl
    have hread : b.readTo = a.readTo := hto
    refine ⟨⟨?_, ?_, ?_, hlast ▸ ha.lastText, hlast ▸ ha.lastSpan⟩, hread.ge,
      fun _ ht => absurd ht List.not_mem_nil⟩
    · rw [hlast, ← List.nil_append b.rest, ← hrest]
      exact ha.ordered
    · exact fun t ht => ha.room t (hrest ▸ ht)
    · rw [hread, hcurrent]
      exact ha.readTo
  · rw [List.concat_eq_append] at hrest hto ⊢
    have hread : b.readTo = u.span.stop := by rw [hto, List.getLast?_concat]; rfl
    have hordered := ha.ordered
    rw [hrest, List.append_assoc, List.pairwise_append] at hordered
    obtain ⟨hinit, hlater, hcross⟩ := hordered
    have hmem {t : Token} (ht : t ∈ init ++ [u]) : t ∈ a.rest := hrest ▸ List.mem_append_left _ ht
    have hu : u ∈ init ++ [u] := List.mem_append_right _ List.mem_cons_self
    have hstart := ha.current_le_of_mem (hmem hu)
    have hroom := ha.room u (hmem hu)
    have hle := ha.readTo
    refine ⟨⟨hlast ▸ hlater, ?_, ?_, hlast ▸ ha.lastText, hlast ▸ ha.lastSpan⟩, by omega, ?_⟩
    · exact fun t ht => ha.room t (hrest ▸ List.mem_append_right _ ht)
    · rw [hread, State.current, hlast]
      refine hcross u hu _ ?_
      cases b.rest with
      | nil => exact List.mem_cons_self
      | cons v vs => exact List.mem_cons_self
    · intro t ht
      refine ⟨ha.current_le_of_mem (hmem ht), hread.symm ▸ ?_⟩
      rcases List.mem_append.mp ht with hfirst | hfirst
      · have hfirst := (List.pairwise_append.mp hinit).2.2 t hfirst u List.mem_cons_self
        omega
      · rw [List.mem_singleton.mp hfirst]

namespace Makes

theorem placed (h : Makes a ns s) (ha : Placed stop a) : Placed stop s := by
  obtain ⟨ts, hrest, hto⟩ := h.reads
  exact (ha.between hrest hto h.last).1

theorem readTo_le (h : Makes a ns s) (ha : Placed stop a) : a.readTo ≤ s.readTo := by
  obtain ⟨ts, hrest, hto⟩ := h.reads
  exact (ha.between hrest hto h.last).2.1

/-- A parse that read a token has come behind the one it started at. -/
theorem stop_current_le (h : Makes a ns s) (ha : Placed stop a)
    (hless : s.rest.length < a.rest.length) : a.current.span.stop ≤ s.readTo := by
  obtain ⟨ts, hrest, hto⟩ := h.reads
  cases ts with
  | nil => simp [hrest] at hless
  | cons t ts =>
    have hcurrent : a.current = t := by rw [State.current, hrest]; rfl
    rw [hcurrent]
    exact ((ha.between hrest hto h.last).2.2 t List.mem_cons_self).2

theorem start_current_le (h : Makes a ns s) (ha : Placed stop a) :
    a.current.span.start ≤ s.current.span.start := by
  rcases Nat.lt_or_eq_of_le h.length_le with hless | hsame
  · have hstop := h.stop_current_le ha hless
    have hread := (h.placed ha).readTo
    have hroom := ha.room a.current
    rw [State.current] at hroom hstop ⊢
    cases hrest : a.rest with
    | nil => simp [hrest] at hless
    | cons t ts =>
      rw [hrest, List.headD_cons] at hroom hstop
      have hroom := hroom List.mem_cons_self
      rw [List.headD_cons]
      omega
  · obtain ⟨ts, hrest⟩ := h.rest_eq
    have hnil : ts = [] := by
      rw [hrest, List.length_append] at hsame
      exact List.eq_nil_of_length_eq_zero (by omega)
    rw [hnil, List.nil_append] at hrest
    rw [State.current, State.current, hrest, h.last]

/-- Where no fault was found on the whole way, none was on either half. -/
theorem faults_eq {ms : List Node} (h : Makes a ns m) (h' : Makes m ms s)
    (hfaults : s.faults = a.faults) : m.faults = a.faults ∧ s.faults = m.faults := by
  have hfirst := h.faults_suffix
  have hsecond := h'.faults_suffix
  have hm : m.faults = a.faults :=
    (hfirst.eq_of_length_le (hfaults ▸ hsecond.length_le)).symm
  exact ⟨hm, hfaults.trans hm.symm⟩

end Makes

/-- A name that was read on the way lies between where the parse started and where it has come to. -/
theorem ReadBetween.bounds {x : Name} (hx : ReadBetween a s x) (h : Makes a ns s)
    (ha : Placed stop a) : a.current.span.start ≤ x.span.start ∧ x.span.stop ≤ s.readTo := by
  obtain ⟨ts, hrest, t, ht, u, hu, hstart, hstop⟩ := hx
  obtain ⟨ts', hrest', hto⟩ := h.reads
  obtain rfl : ts = ts' := List.append_cancel_right (hrest.symm.trans hrest')
  obtain ⟨-, -, hbetween⟩ := ha.between hrest hto h.last
  have hroom := ha.room t (hrest ▸ List.mem_append_left _ ht)
  have ht := hbetween t ht
  have hu := hbetween u hu
  omega

/-- A namespace without a body that takes no token, at the end of the file. -/
structure Blank (stop : Nat) (n : Node) : Prop where
  kind : n.kind = .typeDeclaration
  children : n.children = []
  span : n.span = ⟨stop, stop⟩

/-- The nodes that were made on the way lie one behind the other, and end before the next token. -/
structure Lies (stop : Nat) (a : State) (ns : List Node) (s : State) : Prop where
  apart : ns.Pairwise fun c d => c.span.stop ≤ d.span.start
  start : ∀ c ∈ ns, a.current.span.start ≤ c.span.start
  ordered : ∀ c ∈ ns, c.span.start ≤ c.span.stop
  stop : ∀ c ∈ ns, c.span.stop ≤ s.readTo ∨ Blank stop c ∧ s.rest = []

theorem Placed.start_eq_of_nil (h : Placed stop s) (hrest : s.rest = []) :
    s.current.span.start = stop := by
  rw [State.current, hrest, List.headD_nil, h.lastSpan]

theorem Placed.current_le (h : Placed stop s) : s.current.span.start ≤ stop := by
  rw [State.current]
  cases hrest : s.rest with
  | nil => rw [List.headD_nil, h.lastSpan]
  | cons t ts =>
    have hordered := h.ordered
    rw [hrest, List.cons_append, List.pairwise_cons] at hordered
    have hlast := hordered.1 s.last (List.mem_append_right _ List.mem_cons_self)
    have hroom := h.room t (hrest ▸ List.mem_cons_self)
    rw [h.lastSpan] at hlast
    exact hroom.le.trans hlast

theorem Lies.stop_le (h : Lies stop a ns s) (hs : Placed stop s) {c : Node} (hc : c ∈ ns) :
    c.span.stop ≤ s.current.span.start := by
  rcases h.stop c hc with hstop | ⟨hblank, hrest⟩
  · exact hstop.trans hs.readTo
  · rw [hblank.span, hs.start_eq_of_nil hrest]

/-- The nodes are where they were after a parse has gone on. -/
theorem Lies.after (h : Lies stop a ns m) (hnext : Makes m inner s) (hm : Placed stop m) :
    Lies stop a ns s := by
  refine ⟨h.apart, h.start, h.ordered, fun c hc => ?_⟩
  refine (h.stop c hc).imp (fun hstop => hstop.trans (hnext.readTo_le hm)) fun ⟨hblank, hrest⟩ => ?_
  have hlength := hnext.length_le
  rw [hrest] at hlength
  exact ⟨hblank, List.eq_nil_of_length_eq_zero (Nat.le_zero.mp hlength)⟩

section
variable (hm : Placed stop m) (hinner : Makes m inner b) (hn : Made m b front inner n)
  (hfaults : b.faults = m.faults)

include hm hinner hn hfaults

/-- A node that was made without a fault has come behind its first token, or is blank. -/
theorem Made.extent : n.span.start ≤ n.span.stop ∧ b.readTo ≤ n.span.stop ∧
    (n.span.stop ≤ b.readTo ∨ Blank stop n ∧ b.rest = []) := by
  have hroom : m.current.span.start ≤ m.current.span.stop := by
    rw [State.current]
    cases hrest : m.rest with
    | nil =>
      rw [List.headD_nil, hm.lastSpan]
    | cons t ts => exact (hm.room t (hrest ▸ List.mem_cons_self)).le
  have hfurther (h : Further m b) : n.span.start ≤ b.readTo := by
    have hless := h.resolve_right (hfaults ▸ Nat.lt_irrefl _)
    exact hn.start ▸ hroom.trans (hinner.stop_current_le hm hless)
  rcases hn.moved with hmoved | ⟨hkind, hchildren, hrest⟩
  · have hstart := hfurther hmoved
    rcases hn.stop with hstop | ⟨hstop, -⟩ <;> omega
  · have hlength := hinner.length_le
    rw [hrest] at hlength
    have hend : b.rest = [] := List.eq_nil_of_length_eq_zero (Nat.le_zero.mp hlength)
    have hread := (hinner.placed hm).readTo
    rw [(hinner.placed hm).start_eq_of_nil hend] at hread
    have hstart : n.span.start = stop := hn.start.trans (hm.start_eq_of_nil hrest)
    have hstop : n.span.stop = stop := by
      rcases hn.stop with hstop | ⟨hstop, hmoved⟩
      · omega
      · have := hfurther hmoved
        omega
    have hspan : n.span = ⟨n.span.start, n.span.stop⟩ := rfl
    rw [hstart, hstop] at hspan
    exact ⟨by omega, by omega, .inr ⟨⟨hkind, hchildren, hspan⟩, hend⟩⟩

/-- From the spans of what was made before it and on the way, a node nests. -/
theorem Made.nests (hbefore : Lies stop a front m) (hlies : Lies stop m inner b) :
    n.Nests stop := by
  obtain ⟨hordered, hstop, -⟩ := hn.extent hm hinner hfaults
  refine ⟨hordered, ?_, ?_, fun x hx => ?_⟩
  · rw [hn.children]
    intro c hc
    rcases List.mem_append.mp hc with hc | hc
    · obtain ⟨hkind, hdecorator⟩ := hn.front c hc
      exact .inr (.inl ⟨hkind, hdecorator, hn.start ▸ hbefore.stop_le hm hc⟩)
    · rcases hlies.stop c hc with hinside | ⟨hblank, -⟩
      · refine .inl (Span.contains_iff.mpr ⟨?_, hinside.trans hstop⟩)
        exact hn.start ▸ hlies.start c hc
      · exact .inr (.inr ⟨hblank.kind, hblank.children, hblank.span⟩)
  · rw [hn.children, List.pairwise_append]
    refine ⟨hbefore.apart, hlies.apart, fun c hc d hd => ?_⟩
    exact (hbefore.stop_le hm hc).trans (hlies.start d hd)
  · refine (hn.named x hx).imp (fun hbetween => ?_) fun ⟨hkind, _, hname⟩ => ⟨hkind, ?_⟩
    · obtain ⟨hfirst, hlast⟩ := hbetween.bounds hinner hm
      exact Span.contains_iff.mpr ⟨hn.start ▸ hfirst, hlast.trans hstop⟩
    · rw [hname, hinner.last, hm.lastText, hm.lastSpan]

end

/-- What a parse makes without a fault lies in order and nests. -/
theorem Makes.nests (h : Makes a ns s) (ha : Placed stop a) (hfaults : s.faults = a.faults) :
    Lies stop a ns s ∧ ∀ n ∈ Node.postorders ns, n.Nests stop := by
  induction h with
  | start => exact ⟨⟨List.Pairwise.nil, nofun, nofun, nofun⟩, nofun⟩
  | read h split hs ih =>
    obtain ⟨hlies, hnests⟩ := ih ha hfaults
    exact ⟨hlies.after ((Makes.start _).read split hs) (h.placed ha), hnests⟩
  | report h f _ =>
    have hlength := h.faults_suffix.length_le
    rw [← hfaults] at hlength
    exact absurd hlength (Nat.not_succ_le_self _)
  | hollow n f hbefore hx _ _ hb _ =>
    have hlength := (hbefore.faults_suffix.trans hx.faults_suffix).length_le
    have hsuffix := hb.faults_suffix.length_le
    have hsame := congrArg List.length hfaults
    simp only [State.report, List.length_cons, State.faults_alloc] at hsuffix hsame
    omega
  | @node a m b before front inner n hfront hinner hn ih ih' =>
    obtain ⟨hfirst, hsecond⟩ := hfront.faults_eq hinner hfaults
    have hm := hfront.placed ha
    obtain ⟨hlies, hnests⟩ := ih ha hfirst
    obtain ⟨hlies', hnests'⟩ := ih' hm hsecond
    have hpart {ms : List Node} (hms : ms.Sublist (before ++ front)) : Lies stop a ms m :=
      ⟨hlies.apart.sublist hms, fun c hc => hlies.start c (hms.subset hc),
        fun c hc => hlies.ordered c (hms.subset hc), fun c hc => hlies.stop c (hms.subset hc)⟩
    have hbefore := hpart (List.sublist_append_left before front)
    have hchildren := hpart (List.sublist_append_right before front)
    obtain ⟨hordered, hread, hextent⟩ := hn.extent hm hinner hsecond
    have hlater := hbefore.after hinner hm
    have hstart : a.current.span.start ≤ n.span.start := hn.start ▸ hfront.start_current_le ha
    refine ⟨⟨?_, ?_, ?_, ?_⟩, ?_⟩
    · refine List.pairwise_append.mpr ⟨hbefore.apart, List.pairwise_singleton _ _, ?_⟩
      intro c hc d hd
      rw [List.mem_singleton.mp hd, hn.start]
      exact hbefore.stop_le hm hc
    · exact List.forall_mem_append.mpr ⟨hbefore.start, by simpa using hstart⟩
    · exact List.forall_mem_append.mpr ⟨hbefore.ordered, by simpa using hordered⟩
    · exact List.forall_mem_append.mpr ⟨hlater.stop, by simpa using hextent⟩
    · rw [Node.postorders_concat, hn.children, ← List.append_assoc, Node.postorders_append]
      refine List.forall_mem_append.mpr ⟨List.forall_mem_append.mpr ⟨hnests, hnests'⟩, ?_⟩
      simpa using hn.nests hm hinner hsecond hchildren hlies'

end Grammar

namespace Parsed

open Grammar

theorem placed_start (source : List Char) : Placed (byteLength source) (start source) := by
  have htiled := tiled_tokenize source
  rw [tokens_eq_start] at htiled
  have hlast := htiled.span_end
  rw [Nat.zero_add] at hlast
  have hend := isEnd_last_start source
  refine ⟨htiled.ordered.1, fun t ht => ?_, Nat.zero_le _, ?_, hlast⟩
  · refine htiled.ordered.2 t (List.mem_append_left _ ht) ?_
    exact Bool.eq_false_iff.mpr (by simpa using (List.mem_filter.mp ht).2)
  · have hmem : (start source).last ∈ (start source).rest ++ [(start source).last] :=
      List.mem_append_right _ List.mem_cons_self
    obtain ⟨part, htext, _, _, -, hfirst, hstop⟩ := htiled.covers_of_mem hmem
    rw [hlast] at hfirst hstop
    dsimp only at hfirst hstop
    have hnil : part = [] := eq_nil_of_byteLength (by omega)
    rw [htext, hnil]

/-- In the tree of a source without a fault the spans nest: each node spans its children, which lie in
the order of the text, and its name. Only the decorators of a class stand before its span. -/
theorem nests_of_faultless (source : List Char) (h : (ofSource source).faults = []) :
    ∀ n ∈ (ofSource source).root.postorder, n.Nests (byteLength source) := by
  obtain ⟨nodes, s, hmakes, hfaults, hroot⟩ := ofSource_made source
  rw [h, eq_comm, List.append_eq_nil_iff, List.reverse_eq_nil_iff] at hfaults
  have hstart := placed_start source
  obtain ⟨hlies, hnests⟩ := hmakes.nests hstart hfaults.2
  have hend := hmakes.placed hstart
  rw [hroot, Node.postorder_eq]
  refine List.forall_mem_append.mpr ⟨hnests, List.forall_mem_singleton.mpr ?_⟩
  refine ⟨Nat.zero_le _, fun c hc => .inl ?_, hlies.apart, nofun⟩
  refine Span.contains_iff.mpr ⟨Nat.zero_le _, ?_⟩
  exact (hlies.stop_le hend hc).trans hend.current_le

theorem nests_of_faultless_component :
    (ofSource "@Component(m) export class A \x7b f = (x: T) => x.pipe(y); \x7d".toList).faults = [] ∧
      ∀ n ∈ (ofSource "@Component(m) export class A \x7b f = (x: T) => x.pipe(y); \x7d".toList).root.postorder,
        n.Nests 57 :=
  have hfaults :
      (ofSource "@Component(m) export class A \x7b f = (x: T) => x.pipe(y); \x7d".toList).faults = [] := by
    decide +kernel
  ⟨hfaults, nests_of_faultless _ hfaults⟩

/-- The span of a class starts at its keyword, behind its decorators. -/
theorem decorator_outside_class : (ofSource "@a class B \x7b\x7d".toList).faults = [] ∧
    ∃ n ∈ (ofSource "@a class B \x7b\x7d".toList).root.postorder, n.span = ⟨3, 13⟩ ∧
      ∃ c ∈ n.children, c.span = ⟨0, 2⟩ ∧ n.span.contains c.span = false := by
  decide

end Parsed

end Subscriptions
