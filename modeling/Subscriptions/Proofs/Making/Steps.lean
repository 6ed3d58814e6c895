import Subscriptions.Proofs.Grammar.Statements
import Subscriptions.Proofs.Lockstep.Tokens

namespace Subscriptions

/-- An unknown node with nothing below it. -/
def Node.isHollow (n : Node) : Bool := n.kind == .unknown && n.children.isEmpty

def Node.IsDecorated (n : Node) : Prop :=
  ∃ decorations statement, n.children = decorations ++ [statement] ∧ decorations ≠ [] ∧
    ∀ d ∈ decorations, d.kind = .decorator

def Fault.leavesHollow : Fault → Bool
  | .tooDeep _ _ | .expected .expression _ _ => true
  | _ => false

namespace Grammar

/-- The name was read on the way from one state to another: it goes from one of the tokens that were
read to another one. -/
def ReadBetween (m s : State) (x : Name) : Prop :=
  ∃ front, m.rest = front ++ s.rest ∧ ∃ t ∈ front, ∃ u ∈ front,
    x.span.start = t.span.start ∧ x.span.stop ≤ max u.span.stop t.span.start

def Further (m s : State) : Prop :=
  s.rest.length < m.rest.length ∨ m.faults.length < s.faults.length

/-- How a node is made that starts at one state and is complete at another. The nodes in front were
made before it started, the others on the way. -/
structure Made (m b : State) (front inner : List Node) (n : Node) : Prop where
  children : n.children = front ++ inner
  start : n.span.start = m.current.span.start
  stop : n.span.stop = max b.readTo n.span.start ∨ n.span.stop = b.readTo ∧ Further m b
  /-- Only a class takes in what stands before it: its decorators. -/
  front : ∀ d ∈ front, n.kind = .classDeclaration ∧ d.kind = .decorator
  /-- Only the identifier behind `new.` can be without a token, at the end of the file. -/
  named : ∀ x ∈ n.name, ReadBetween m b x ∨
    n.kind = .identifier ∧ b.rest = [] ∧ x = ⟨b.last.text, b.last.span⟩
  /-- Only a namespace without a body can be without a token, at the end of the file. -/
  moved : Further m b ∨ n.kind = .typeDeclaration ∧ n.children = [] ∧ m.rest = []
  unknown : n.kind = .unknown → n.IsDecorated

/-- How a hollow node is made, between the same two states. -/
structure MadeHollow (m b : State) (n : Node) : Prop where
  kind : n.kind = .unknown
  children : n.children = []
  name : n.name = none
  span : n.span = ⟨m.current.span.start, max b.readTo m.current.span.start⟩

/-- A parse comes from a state to a state, and has made the nodes in between. -/
inductive Makes : State → List Node → State → Prop
  | start (s : State) : Makes s [] s
  | read {a b : State} {ns : List Node} (h : Makes a ns b) (split : Split)
      (hs : split.1 ++ split.2 = b.rest) : Makes a ns (b.read split)
  | report {a b : State} {ns : List Node} (h : Makes a ns b) (f : Fault)
      (hf : f.leavesHollow = false) : Makes a ns (b.report f)
  | node {a m b : State} {before front inner : List Node} (n : Node)
      (hfront : Makes a (before ++ front) m) (hinner : Makes m inner b)
      (hn : Made m b front inner n) : Makes a (before ++ [n]) (b.alloc n)
  /-- A hollow node comes with its fault, which is found at the token that does not fit. -/
  | hollow {a m x b : State} {before : List Node} (n : Node) (f : Fault)
      (hbefore : Makes a before m) (hx : Makes m [] x) (hf : f.leavesHollow = true)
      (hspan : f.span = x.current.span) (hb : Makes (x.report f) [] b) (hn : MadeHollow m b n) :
      Makes a (before ++ [n]) (b.alloc n)

namespace Makes

variable {a m b : State} {ns ms : List Node}

theorem trans (h : Makes a ns m) (h' : Makes m ms b) : Makes a (ns ++ ms) b := by
  induction h' with
  | start => rwa [List.append_nil]
  | read _ split hs ih => exact (ih h).read split hs
  | report _ f hf ih => exact (ih h).report f hf
  | node n _ hinner hn ih _ =>
    have hbefore := ih h
    rw [← List.append_assoc] at hbefore ⊢
    exact .node n hbefore hinner hn
  | hollow n f _ hx hf hspan hb hn ih _ _ =>
    rw [← List.append_assoc]
    exact .hollow n f (ih h) hx hf hspan hb hn

/-- The tokens that were read, the last of which tells how far. -/
theorem reads (h : Makes a ns b) : ∃ front, a.rest = front ++ b.rest ∧
    b.readTo = (front.getLast?.map (·.span.stop)).getD a.readTo := by
  have hjoin {x y z : State} : (∃ front, x.rest = front ++ y.rest ∧
      y.readTo = (front.getLast?.map (·.span.stop)).getD x.readTo) → (∃ front,
      y.rest = front ++ z.rest ∧ z.readTo = (front.getLast?.map (·.span.stop)).getD y.readTo) →
      ∃ front, x.rest = front ++ z.rest ∧
        z.readTo = (front.getLast?.map (·.span.stop)).getD x.readTo := by
    rintro ⟨front, hfront, hto⟩ ⟨later, hlater, hto'⟩
    refine ⟨front ++ later, by rw [hfront, hlater, List.append_assoc], ?_⟩
    rw [hto', hto, List.getLast?_append]
    cases later.getLast? <;> rfl
  induction h with
  | start => exact ⟨[], rfl, rfl⟩
  | read _ split hs ih => exact hjoin ih ⟨split.1, hs.symm, rfl⟩
  | report _ _ _ ih => exact ih
  | node _ _ _ _ ih ih' => exact hjoin ih ih'
  | hollow _ _ _ _ _ _ _ _ ih ih' ih'' => exact hjoin (hjoin ih ih') ih''

theorem rest_eq (h : Makes a ns b) : ∃ front, a.rest = front ++ b.rest := by
  obtain ⟨front, hfront, -⟩ := h.reads
  exact ⟨front, hfront⟩

theorem length_le (h : Makes a ns b) : b.rest.length ≤ a.rest.length := by
  obtain ⟨front, hfront⟩ := h.rest_eq
  rw [hfront, List.length_append]
  exact Nat.le_add_left _ _

theorem last (h : Makes a ns b) : b.last = a.last := by
  induction h with
  | start => rfl
  | read _ _ _ ih | report _ _ _ ih => exact ih
  | node _ _ _ _ ih ih' => exact ih'.trans ih
  | hollow _ _ _ _ _ _ _ _ ih ih' ih'' => exact ih''.trans (ih'.trans ih)

/-- Faults are added in front of those that were found before. -/
theorem faults_suffix (h : Makes a ns b) : a.faults <:+ b.faults := by
  induction h with
  | start => exact List.suffix_rfl
  | read _ _ _ ih => exact ih
  | report _ f _ ih => exact ih.trans (List.suffix_cons f _)
  | node _ _ _ _ ih ih' => exact ih.trans ih'
  | hollow _ f _ _ _ _ _ _ ih ih' ih'' =>
    exact ih.trans (ih'.trans ((List.suffix_cons f _).trans ih''))

/-- A node is made of all that was made since its mark. -/
theorem made {n : Node} (h : Makes m ns b) (hn : Made m b [] ns n) :
    Makes m [n] (b.alloc n) :=
  @Makes.node m m b [] [] ns n (.start m) h hn

theorem moved_mono {s : State} (h : Makes a ns b) (hm : Further s a) : Further s b := by
  have hlength := h.length_le
  have hfaults := h.faults_suffix.length_le
  rcases hm with hm | hm
  · exact .inl (by omega)
  · exact .inr (by omega)

theorem moved_of_moved {s : State} (h : Makes a ns b) (hm : Further b s) : Further a s := by
  have hlength := h.length_le
  have hfaults := h.faults_suffix.length_le
  rcases hm with hm | hm
  · exact .inl (by omega)
  · exact .inr (by omega)

theorem readBetween_mono {s : State} {x : Name} (h : Makes a ns b) (hx : ReadBetween s a x) :
    ReadBetween s b x := by
  obtain ⟨front, hfront, t, ht, u, hu, hspan⟩ := hx
  obtain ⟨later, hlater⟩ := h.rest_eq
  refine ⟨front ++ later, ?_, t, List.mem_append_left _ ht, u, List.mem_append_left _ hu, hspan⟩
  rw [hfront, hlater, List.append_assoc]

theorem readBetween_of_readBetween {s : State} {x : Name} (h : Makes a ns b)
    (hx : ReadBetween b s x) : ReadBetween a s x := by
  obtain ⟨front, hfront, t, ht, u, hu, hspan⟩ := hx
  obtain ⟨earlier, hearlier⟩ := h.rest_eq
  refine ⟨earlier ++ front, ?_, t, List.mem_append_right _ ht, u, List.mem_append_right _ hu, hspan⟩
  rw [hearlier, hfront, List.append_assoc]

end Makes

section
variable {α β : Type} {p q : Parse α} {f : α → Parse β} {s : State} {P R : α → State → Prop}
  {Q : β → State → Prop} {a : α}

/-- Whatever a parse comes to from a state is as `Q` says. -/
def Runs (p : Parse α) (s : State) (Q : α → State → Prop) : Prop :=
  ∀ depth a s', p depth s = some (a, s') → Q a s'

theorem Runs.bind (hp : Runs p s P) (hf : ∀ a s', P a s' → Runs (f a) s' Q) :
    Runs (p >>= f) s Q := by
  intro depth b s' h
  rw [Parse.bind_run, Option.bind_eq_some_iff] at h
  obtain ⟨⟨a, s₁⟩, hfirst, hrest⟩ := h
  exact hf a s₁ (hp depth a s₁ hfirst) depth b s' hrest

theorem Runs.imp (hp : Runs p s P) (h : ∀ a s', P a s' → R a s') : Runs p s R :=
  fun depth a s' hrun => h a s' (hp depth a s' hrun)

theorem runs_pure (h : P a s) : Runs (pure a) s P := by
  intro depth a' s' hrun
  obtain ⟨rfl, rfl⟩ := Prod.mk.inj (Option.some.inj hrun)
  exact h

theorem runs_update {f : State → State} {P : Unit → State → Prop} (h : P () (f s)) :
    Runs (update f) s P := by
  intro depth a s' hrun
  obtain ⟨rfl, rfl⟩ := Prod.mk.inj (Option.some.inj hrun)
  exact h

theorem runs_skip {cut : List Token → Split} {P : List Token → State → Prop}
    (h : P (cut s.rest).1 (s.read (cut s.rest))) : Runs (skip cut) s P := by
  intro depth a s' hrun
  obtain ⟨rfl, rfl⟩ := Prod.mk.inj (Option.some.inj hrun)
  exact h

theorem runs_look {f : State → Parse β} (h : Runs (f s) s Q) : Runs (look >>= f) s Q :=
  fun depth b s' hrun => h depth b s' hrun

theorem runs_here {f : Nat → Parse β} (h : Runs (f s.current.span.start) s Q) :
    Runs (here >>= f) s Q := fun depth b s' hrun => h depth b s' hrun

theorem runs_ite {c : Prop} [Decidable c] (hp : c → Runs p s P) (hq : ¬ c → Runs q s P) :
    Runs (if c then p else q) s P := by
  split
  · rename_i h
    exact hp h
  · rename_i h
    exact hq h

end

/-- On the way from the mark `m` a parse has made the nodes `ns` and read the name `x`, and, where
`moved`, has come further than the mark. -/
structure Stage (m : State) (moved : Bool) (ns : List Node) (x : Option Name) (s : State) : Prop where
  makes : Makes m ns s
  last : s.last.isEnd = true
  moved : moved = true → Further m s
  named : ∀ y ∈ x, ReadBetween m s y

/-- From any state on, a parse makes nodes, and comes further where `moved`. -/
def Adds {α : Type} (p : Parse α) (moved : Bool) (nodes : α → List Node) : Prop :=
  ∀ s, s.last.isEnd = true → Runs p s fun a s' => Stage s moved (nodes a) none s'

/-- From any state on, a parse makes no nodes. -/
def Passes {α : Type} (p : Parse α) : Prop := Adds p false fun _ => []

/-- From any state on, a parse reads a name, or reads none and finds a fault or a pattern. -/
def Names (p : Parse (Option Name)) : Prop :=
  ∀ s, s.last.isEnd = true → Runs p s fun x s' => Stage s true [] x s'

namespace Stage

variable {m s s' : State} {b b' : Bool} {ns ms : List Node} {x : Option Name} {α β : Type}
  {p : Parse α} {f : α → Parse β} {Q : β → State → Prop}

theorem start (s : State) (hs : s.last.isEnd = true) : Stage s false [] none s :=
  ⟨.start s, hs, nofun, nofun⟩

theorem weaken (h : Stage m b ns x s) : Stage m false ns x s := ⟨h.makes, h.last, nofun, h.named⟩

theorem unnamed (h : Stage m b ns x s) : Stage m b ns none s := ⟨h.makes, h.last, h.moved, nofun⟩

theorem trans (h : Stage m b ns x s) (h' : Stage s b' ms none s') :
    Stage m (b || b') (ns ++ ms) x s' where
  makes := h.makes.trans h'.makes
  last := h'.last
  moved hb := by
    rcases (Bool.or_eq_true b b').mp hb with hb | hb
    · exact h'.makes.moved_mono (h.moved hb)
    · exact h.makes.moved_of_moved (h'.moved hb)
  named y hy := h'.makes.readBetween_mono (h.named y hy)

/-- The same where the name comes later. -/
theorem transNamed (h : Stage m b ns none s) (h' : Stage s b' [] x s') :
    Stage m (b || b') ns x s' where
  makes := by simpa using h.makes.trans h'.makes
  last := h'.last
  moved := (h.trans h'.unnamed).moved
  named y hy := h.makes.readBetween_of_readBetween (h'.named y hy)

theorem addAll {nodes : α → List Node} (h : Stage m b ns x s) (hp : Adds p b' nodes)
    (hf : ∀ a s', Stage m (b || b') (ns ++ nodes a) x s' → Runs (f a) s' Q) :
    Runs (p >>= f) s Q := (hp s h.last).bind fun a s' ha => hf a s' (h.trans ha)

theorem pass (h : Stage m b ns x s) (hp : Adds p b' fun _ => [])
    (hf : ∀ a s', Stage m (b || b') ns x s' → Runs (f a) s' Q) : Runs (p >>= f) s Q :=
  h.addAll hp fun a s' ha => hf a s' (by rwa [List.append_nil] at ha)

theorem name {p : Parse (Option Name)} {f : Option Name → Parse β} (h : Stage m b ns none s)
    (hp : Names p) (hf : ∀ x s', Stage m (b || true) ns x s' → Runs (f x) s' Q) :
    Runs (p >>= f) s Q := (hp s h.last).bind fun x s' hx => hf x s' (h.transNamed hx)

theorem read (h : Stage m b ns x s) (split : Split) (hs : split.1 ++ split.2 = s.rest) :
    Stage m b ns x (s.read split) := by
  have hread : Stage s false [] none (s.read split) :=
    ⟨(Makes.start s).read split hs, h.last, nofun, nofun⟩
  simpa using h.trans hread

theorem report (h : Stage m b ns x s) (f : Fault) (hf : f.leavesHollow = false) :
    Stage m true ns x (s.report f) := by
  have hreport : Stage s true [] none (s.report f) :=
    ⟨(Makes.start s).report f hf, h.last, fun _ => .inr (Nat.lt_succ_self _), nofun⟩
  simpa using h.trans hreport

theorem rest_ne_nil (h : Stage m b ns x s) (hs : s.current.isEnd = false) : s.rest ≠ [] := by
  intro hnil
  rw [State.current, hnil, List.headD_nil, h.last] at hs
  cases hs

end Stage

section
variable {m s : State} {b : Bool} {ns front inner : List Node} {x : Option Name} {kind : Kind}
  {declared : Option String}

/-- A node is made of what was made since its mark. -/
theorem runs_buildNamed (h : Stage m true inner x s) (hkind : kind ≠ .unknown) :
    Runs (buildNamed kind m.current.span.start x declared inner) s fun n s' =>
      Stage m true [n] none s' := by
  intro depth n s' hrun
  obtain ⟨rfl, rfl⟩ := Prod.mk.inj (Option.some.inj hrun)
  refine ⟨?_, h.last, h.moved, nofun⟩
  refine h.makes.made ?_
  exact ⟨rfl, rfl, .inl rfl, nofun, fun y hy => .inl (h.named y hy), .inl (h.moved rfl),
    fun hunknown => absurd hunknown hkind⟩

theorem runs_build (h : Stage m true inner x s) (hkind : kind ≠ .unknown) :
    Runs (build kind m.current.span.start inner) s fun n s' => Stage m true [n] none s' :=
  runs_buildNamed h.unnamed hkind

/-- A hollow node, behind its fault. -/
theorem runs_buildHollow {s' : State} {f : Fault} (h : Stage m b [] none s)
    (hf : f.leavesHollow = true) (hspan : f.span = s.current.span) (hs' : Makes (s.report f) [] s') :
    Runs (build .unknown m.current.span.start []) s' fun n s'' => Stage m true [n] none s'' := by
  intro depth n s'' hrun
  obtain ⟨rfl, rfl⟩ := Prod.mk.inj (Option.some.inj hrun)
  have hlast : s'.last.isEnd = true := hs'.last ▸ h.last
  have hmoved : Further s s' := hs'.moved_mono (.inr (Nat.lt_succ_self _))
  refine ⟨?_, hlast, fun _ => h.makes.moved_of_moved hmoved, nofun⟩
  exact @Makes.hollow m m s s' [] _ f (.start m) h.makes hf hspan hs' ⟨rfl, rfl, rfl, rfl⟩

end

section
variable {α β : Type} {m s : State} {b : Bool} {ns : List Node} {x : Option Name} {t : Token}
  {Q : β → State → Prop}

theorem adds_of_runs {p : Parse α} {moved : Bool} {nodes : α → List Node}
    (h : ∀ s, Stage s false [] none s → Runs p s fun a s' => Stage s moved (nodes a) none s') :
    Adds p moved nodes := fun s hs => h s (.start s hs)

theorem take_append_drop_one (ts : List Token) : (ts.take 1, ts.drop 1).1 ++ (ts.take 1, ts.drop 1).2 =
    ts := List.take_append_drop 1 ts

theorem Stage.advanced (h : Stage m b ns x s) :
    Stage m b ns x (s.read (s.rest.take 1, s.rest.drop 1)) := h.read _ (take_append_drop_one _)

/-- Behind a token that is not the end of the file a parse has come further. -/
theorem Stage.moved_of_ne_nil (h : Stage m b ns x s) (hne : s.rest ≠ []) :
    Stage m true ns x (s.read (s.rest.take 1, s.rest.drop 1)) := by
  refine ⟨h.advanced.makes, h.last, fun _ => ?_, h.advanced.named⟩
  refine h.makes.moved_of_moved (.inl ?_)
  have hlength := List.length_pos_iff.mpr hne
  simp only [State.read, List.length_drop]
  omega

theorem current_read_one : (s.read (s.rest.take 1, s.rest.drop 1)).current = s.ahead 1 := by
  rw [State.current, State.ahead]
  cases s.rest with
  | nil => rfl
  | cons t ts => cases ts <;> rfl

theorem passes_advance : Passes advance :=
  adds_of_runs fun _ h => runs_update h.advanced

theorem Stage.token {f : Unit → Parse β} (h : Stage m b ns x s) (hs : s.current.isEnd = false)
    (hf : ∀ s', Stage m true ns x s' → s'.current = s.ahead 1 → Runs (f ()) s' Q) :
    Runs (advance >>= f) s Q :=
  Runs.bind (runs_update (P := fun _ s' => Stage m true ns x s' ∧ s'.current = s.ahead 1)
    ⟨h.moved_of_ne_nil (h.rest_ne_nil hs), current_read_one⟩) fun _ s' h' => hf s' h'.1 h'.2

theorem passes_advanceBy (n : Nat) : Passes (advanceBy n) := by
  refine adds_of_runs fun s h => runs_update (h.read _ ?_)
  rw [List.splitAt_eq]
  exact List.take_append_drop n s.rest

theorem passes_skip {cut : List Token → Split} (hcut : ∀ ts, (cut ts).1 ++ (cut ts).2 = ts) :
    Passes (skip cut) := adds_of_runs fun s h => runs_skip (h.read _ (hcut s.rest))

theorem adds_report (what : Expectation) (hwhat : what ≠ .expression) :
    Adds (report what) true fun _ => [] := by
  refine adds_of_runs fun s h => runs_update (h.report _ ?_)
  cases what <;> first | rfl | exact absurd rfl hwhat

/-- A branch on whether a punctuator comes next, which is read. -/
theorem Stage.ifAccept {p : String} {yes no : Parse β} (h : Stage m b ns x s)
    (hyes : ∀ s', Stage m true ns x s' → Runs yes s' Q) (hno : s.isAt p = false → Runs no s Q) :
    Runs (accept p >>= fun more => if more = true then yes else no) s Q := by
  refine Runs.bind (P := fun more s' => more = true ∧ Stage m true ns x s' ∨
    more = false ∧ s.isAt p = false ∧ s' = s) ?_ fun more s' hmore => ?_
  · refine runs_look (runs_ite (fun hs => ?_) fun hs => ?_)
    · exact h.token (isEnd_of_isPunct hs) fun s' h' _ => runs_pure (.inl ⟨rfl, h'⟩)
    · exact runs_pure (.inr ⟨rfl, Bool.eq_false_iff.mpr hs, rfl⟩)
  · rcases hmore with ⟨rfl, h'⟩ | ⟨rfl, hs, rfl⟩
    · exact hyes s' h'
    · exact hno hs

theorem Stage.ifAcceptWord {w : String} {yes no : Parse β} (h : Stage m b ns x s)
    (hyes : ∀ s', Stage m true ns x s' → Runs yes s' Q) (hno : Runs no s Q) :
    Runs (acceptWord w >>= fun more => if more = true then yes else no) s Q := by
  refine Runs.bind (P := fun more s' => more = true ∧ Stage m true ns x s' ∨
    more = false ∧ s' = s) ?_ fun more s' hmore => ?_
  · refine runs_look (runs_ite (fun hs => ?_) fun hs => runs_pure (.inr ⟨rfl, rfl⟩))
    exact h.token (isEnd_of_isTheWord hs) fun s' h' _ => runs_pure (.inl ⟨rfl, h'⟩)
  · rcases hmore with ⟨rfl, h'⟩ | ⟨rfl, rfl⟩
    · exact hyes s' h'
    · exact hno

theorem passes_accept (p : String) : Passes (accept p) :=
  adds_of_runs fun _ h => runs_look (runs_ite
    (fun _ => h.pass passes_advance fun _ _ h' => runs_pure h') fun _ => runs_pure h)

theorem passes_acceptWord (w : String) : Passes (acceptWord w) :=
  adds_of_runs fun _ h => runs_look (runs_ite
    (fun _ => h.pass passes_advance fun _ _ h' => runs_pure h') fun _ => runs_pure h)

theorem passes_optional (p : String) : Passes (optional p) :=
  adds_of_runs fun _ h => h.pass (passes_accept p) fun _ _ h' => runs_pure h'

theorem passes_optionalWord (w : String) : Passes (optionalWord w) :=
  adds_of_runs fun _ h => h.pass (passes_acceptWord w) fun _ _ h' => runs_pure h'

theorem adds_expect (p : String) : Adds (expect p) true fun _ => [] := by
  refine adds_of_runs fun s h => ?_
  refine Runs.bind (P := fun more s' => Stage s more [] none s') ?_ fun more s' h' => ?_
  · refine runs_look (runs_ite (fun hs => ?_) fun _ => runs_pure h)
    exact h.token (isEnd_of_isPunct hs) fun s' h' _ => runs_pure h'
  · cases more with
    | true => exact runs_pure h'
    | false => exact runs_update (h'.report _ rfl)

theorem passes_skipBalanced : Passes skipBalanced :=
  adds_of_runs fun _ h => h.pass (passes_skip fun ts => balanced_append ts 0) fun _ _ h' =>
    runs_pure h'

theorem passes_skipAngles : Passes skipAngles :=
  adds_of_runs fun _ h => runs_look (runs_ite
    (fun _ => h.pass (passes_skip fun ts => angles_append ts 0 0) fun _ _ h' => runs_pure h')
    fun _ => runs_pure h)

theorem passes_typeUpTo (stops : List String) : Passes (typeUpTo stops) :=
  adds_of_runs fun _ h => h.pass (passes_skip fun ts => typeTokens_append ts stops none 0)
    fun _ _ h' => runs_pure h'

theorem passes_annotated (stops : List String) : Passes ( annotation stops) :=
  adds_of_runs fun _ h => h.pass (passes_accept ":") fun _ s' h' => runs_ite
    (fun _ => (passes_typeUpTo stops s' h'.last).imp fun _ _ hr => h'.trans hr) fun _ => runs_pure h'

/-- The current token was read as a name, whatever text was taken from it. -/
theorem Stage.named_of_ne_nil (h : Stage m b ns none s) (hne : s.rest ≠ []) (text : String) :
    Stage m true ns (some ⟨text, s.current.span⟩) (s.read (s.rest.take 1, s.rest.drop 1)) := by
  obtain ⟨hmakes, hlast, hmoved, -⟩ := h.moved_of_ne_nil hne
  refine ⟨hmakes, hlast, hmoved, ?_⟩
  rintro _ ⟨⟩
  apply h.makes.readBetween_of_readBetween
  obtain ⟨t, ts, hrest⟩ := List.exists_cons_of_ne_nil hne
  refine ⟨[t], ?_, t, List.mem_cons_self, t, List.mem_cons_self, ?_, ?_⟩
  · simp [State.read, hrest]
  · rw [State.current, hrest]
    rfl
  · rw [State.current, hrest]
    exact Nat.le_max_left _ _

theorem Stage.takeName {f : Name → Parse β} (h : Stage m b ns none s) (hne : s.rest ≠ [])
    (hf : ∀ y s', Stage m true ns (some y) s' → Runs (f y) s' Q) :
    Runs (takeName >>= f) s Q := by
  refine Runs.bind (P := fun y s' => Stage m true ns (some y) s') ?_ hf
  exact runs_look (Runs.bind (runs_update (P := fun _ => Stage m true ns
    (some ⟨s.current.text, s.current.span⟩)) (h.named_of_ne_nil hne _)) fun _ _ h' => runs_pure h')

/-- A word is taken as a name, and without a word nothing is. -/
theorem Stage.takeNameIfWord {f : Option Name → Parse β} (h : Stage m b ns none s)
    (hf : ∀ y s', Stage m b ns y s' → Runs (f y) s' Q) : Runs (takeNameIfWord >>= f) s Q := by
  refine Runs.bind (P := fun y s' => Stage m b ns y s') ?_ hf
  refine runs_look (runs_ite (fun hs => ?_) fun _ => runs_pure h)
  refine h.takeName (h.rest_ne_nil (isEnd_of_isWord hs)) fun y s' h' =>
    runs_pure ⟨h'.makes, h'.last, ?_, h'.named⟩
  exact fun _ => h'.moved rfl

/-- What the turns of a loop add, the loop adds. -/
theorem adds_gather {turn : Parse (List Node × Bool)} (hturn : Adds turn false (·.1)) :
    Adds (gather turn) false id := by
  have hturns (fuel : Nat) : Adds (turns fuel turn) false id := by
    induction fuel with
    | zero =>
      intro s _ depth a s' hrun
      cases hrun
    | succ fuel ih =>
      refine adds_of_runs fun s h => h.addAll hturn ?_
      rintro ⟨nodes, more⟩ s' h'
      refine runs_ite (fun _ => ?_) fun _ => runs_pure h'
      exact h'.addAll ih fun rest s'' h'' => runs_pure h''
  exact fun s hs => runs_look (hturns _ s hs)

/-- A turn that leaves a node in the place of another one, over and over. -/
theorem runs_climb {turn : Node → Parse (Node × Bool)} (hturn : ∀ n s, Stage m true [n] none s →
      Runs (turn n) s fun r s' => Stage m true [r.1] none s')
    {n : Node} (h : Stage m true [n] none s) :
    Runs (climb turn n) s fun n s' => Stage m true [n] none s' := by
  have hclimbs (fuel : Nat) : ∀ n s, Stage m true [n] none s →
      Runs (climbs fuel turn n) s fun n s' => Stage m true [n] none s' := by
    induction fuel with
    | zero =>
      intro n s _ depth a s' hrun
      cases hrun
    | succ fuel ih =>
      intro n s h
      refine (hturn n s h).bind ?_
      rintro ⟨node, more⟩ s' h'
      exact runs_ite (fun _ => ih node s' h') fun _ => runs_pure h'
  exact runs_look (hclimbs _ n s h)

theorem adds_moved {p : Parse Node} (hp : Adds p true fun n => [n]) :
    Adds (moved p) true fun r => [r.1] :=
  adds_of_runs fun _ h => runs_look (h.addAll hp fun _ _ h' => runs_look (runs_pure h'))

def Builds (go : Recur) : Prop := ∀ r, Adds (go r) true fun n => [n]

theorem adds_skipTooDeep : Adds skipTooDeep true fun n => [n] := by
  refine adds_of_runs fun s h => runs_here ?_
  refine Runs.bind (runs_update (P := fun _ s' =>
    s' = s.report (.tooDeep maxNesting s.current.span)) rfl) ?_
  rintro _ _ rfl
  refine Runs.bind (runs_skip (P := fun _ s' =>
    Makes (s.report (.tooDeep maxNesting s.current.span)) [] s')
    ((Makes.start _).read _ (enclosed_append _ 0))) fun _ s' hs' => ?_
  exact runs_buildHollow h rfl rfl hs'

theorem adds_nested {p : Parse Node} (hp : Adds p true fun n => [n]) :
    Adds (nested p) true fun n => [n] := by
  intro s hs depth n s' hrun
  rw [nested] at hrun
  split at hrun
  · exact adds_skipTooDeep s hs depth n s' hrun
  · exact hp s hs (depth + 1) n s' hrun

end

end Grammar

end Subscriptions
