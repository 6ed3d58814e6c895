import Mathlib.Data.List.Forall2
import Subscriptions.Proofs.Grammar.Reading
import Subscriptions.Proofs.Lockstep.Tokens
import Subscriptions.Proofs.Syntax.Shifting

namespace Subscriptions

def Kind.hasMemberName : Kind → Bool
  | .methodDeclaration | .getAccessor | .propertyDeclaration | .propertyAssignment => true
  | _ => false

/-- The grammar asks for a punctuator, or for something that has a name. -/
def Expectation.isKnown : Expectation → Bool
  | .token text => Scanner.punctuators.contains text
  | _ => true

namespace Grammar

def State.node (s : State) (kind : Kind) (start : Nat) (name : Option Name)
    (declared : Option String) (children : List Node) : Node :=
  ⟨s.built, kind, ⟨start, max s.readTo start⟩, name, declared, children⟩

def State.put (s : State) (kind : Kind) (start : Nat) (name : Option Name)
    (declared : Option String) (children : List Node) : State :=
  s.alloc (s.node kind start name declared children)

def State.readBy (s : State) (n : Nat) : State := s.read (s.rest.splitAt n)

def State.word (s : State) : Name := ⟨s.current.text, s.current.span⟩

def State.computed (s : State) (n : Nat) : Name :=
  ⟨textOfTokens (s.rest.splitAt n).1,
    ⟨s.current.span.start, max (s.readBy n).readTo s.current.span.start⟩⟩

def shorthand (serial : Nat) (name : Name) : Node :=
  ⟨serial, .identifier, name.span, some name, none, []⟩

/-- What a parse reports where it stands at a token. -/
inductive ReportedAt (t : Token) : Fault → Prop
  | tooDeep (limit : Nat) : ReportedAt t (.tooDeep limit t.span)
  | expected {what : Expectation} (hwhat : what.isKnown = true) :
    ReportedAt t (.expected what (if t.isEnd then none else some t.text) t.span)

theorem ReportedAt.span {t : Token} {f : Fault} (h : ReportedAt t f) : f.span = t.span := by
  cases h <;> rfl

/-- What two parses may have in common. -/
structure Matching where
  token : Token → Token → Prop
  /-- Offsets from which a node may start. -/
  place : Nat → Nat → Prop
  name : Name → Name → Prop
  memberName : Name → Name → Prop
  declared : Option String → Option String → Prop
  /-- The nodes pending, and the states. -/
  holds : List Node → List Node → State → State → Prop

namespace Matching

/-- How the names of two nodes of a kind go together. -/
def named (M : Matching) (kind : Kind) : Option Name → Option Name → Prop :=
  Option.Rel (if kind.hasMemberName then M.memberName else M.name)

/-- Two parses at the same point, with the nodes that each of them has pending. -/
structure Twin (M : Matching) (ns ms : List Node) (s t : State) : Prop where
  rest : List.Forall₂ M.token s.rest t.rest
  last : M.token s.last t.last
  ended : s.last.isEnd = true
  length : ns.length = ms.length
  holds : M.holds ns ms s t

namespace Twin

variable {M : Matching} {ns ms : List Node} {s t : State}

theorem current (h : M.Twin ns ms s t) : M.token s.current t.current := by
  have hrest := h.rest
  rw [State.current, State.current]
  generalize s.rest = ts, t.rest = us at hrest
  cases hrest with
  | nil => exact h.last
  | cons hfirst _ => exact hfirst

theorem rest_ne_nil (h : M.Twin ns ms s t) (hs : s.current.isEnd = false) : s.rest ≠ [] := by
  intro hnil
  rw [State.current, hnil, List.headD_nil, h.ended] at hs
  cases hs

end Twin

end Matching

/-- What two parses have in common that no step takes away. -/
structure Pairing extends Matching where
  piece {t u : Token} : token t u → t.piece = u.piece
  place_start {t u : Token} : token t u → place t.span.start u.span.start
  name_word {t u : Token} : token t u → name ⟨t.text, t.span⟩ ⟨u.text, u.span⟩
  memberName_unquoted {t u : Token} : token t u →
    memberName ⟨unquoted t.text, t.span⟩ ⟨unquoted u.text, u.span⟩
  memberName_computed {ns ms : List Node} {s t : State} {n : Nat} :
    toMatching.Twin ns ms s t → s.isAt "[" = true → 0 < n → memberName (s.computed n) (t.computed n)
  declared_none : declared none none
  declared_read {ns ms : List Node} {s t : State} (n : Nat) : toMatching.Twin ns ms s t →
    declared (typeText (s.rest.splitAt n).1) (typeText (t.rest.splitAt n).1)
  holds_read {ns ms : List Node} {s t : State} (n : Nat) :
    toMatching.Twin ns ms s t → holds ns ms (s.readBy n) (t.readBy n)
  holds_report {ns ms : List Node} {s t : State} {f : Fault} : toMatching.Twin ns ms s t →
    ReportedAt s.current f → holds ns ms (s.report f) (t.report (f.put t.current.span))
  holds_build {ns ms cs ds : List Node} {s t : State} {kind : Kind} {start start' : Nat}
    {name name' : Option Name} {declared declared' : Option String} :
    toMatching.Twin (ns ++ cs) (ms ++ ds) s t → cs.length = ds.length → kind ≠ .propertyAccess →
    place start start' → toMatching.named kind name name' →
    toMatching.declared declared declared' →
    holds (ns ++ [s.node kind start name declared cs])
      (ms ++ [t.node kind start' name' declared' ds]) (s.put kind start name declared cs)
      (t.put kind start' name' declared' ds)
  /-- The name of a member access is the last token read. -/
  holds_access {ns ms : List Node} {n m : Node} {s t : State} {start start' : Nat} :
    toMatching.Twin (ns ++ [n]) (ms ++ [m]) s t → s.current.isWord = true → place start start' →
    holds (ns ++ [(s.readBy 1).node .propertyAccess start (some s.word) none [n]])
      (ms ++ [(t.readBy 1).node .propertyAccess start' (some t.word) none [m]])
      ((s.readBy 1).put .propertyAccess start (some s.word) none [n])
      ((t.readBy 1).put .propertyAccess start' (some t.word) none [m])
  /-- A node may be allocated that is not pending. -/
  holds_alloc {ns ms : List Node} {s t : State} (n m : Node) :
    toMatching.Twin ns ms s t → holds ns ms (s.alloc n) (t.alloc m)
  /-- A shorthand member takes in the identifier of its name, which has been allocated. -/
  holds_shorthand {ns ms cs ds : List Node} {s₀ t₀ s t : State} {start start' : Nat}
    {name name' : Name} : toMatching.Twin ns ms s₀ t₀ → toMatching.Twin (ns ++ cs) (ms ++ ds) s t →
    cs.length = ds.length → place start start' → memberName name name' →
    holds
      (ns ++ [s.node .propertyAssignment start (some name) none (shorthand s₀.built name :: cs)])
      (ms ++ [t.node .propertyAssignment start' (some name') none (shorthand t₀.built name' :: ds)])
      (s.put .propertyAssignment start (some name) none (shorthand s₀.built name :: cs))
      (t.put .propertyAssignment start' (some name') none (shorthand t₀.built name' :: ds))

variable {M : Pairing} {ns ms : List Node} {s t : State}

/-- Both parses are in the same place of their token lists. -/
abbrev Pairing.Twin (M : Pairing) := M.toMatching.Twin

namespace Matching.Twin

theorem rest_plain (h : M.Twin ns ms s t) : s.rest.map Token.plain = t.rest.map Token.plain := by
  have hrest := h.rest
  generalize s.rest = ts, t.rest = us at hrest
  induction hrest with
  | nil => rfl
  | cons hfirst _ ih =>
    rw [List.map_cons, List.map_cons, ih, Token.plain_eq_of_piece (M.piece hfirst)]

theorem rest_length (h : M.Twin ns ms s t) : t.rest.length = s.rest.length := h.rest.length_eq.symm

theorem shape (h : M.Twin ns ms s t) : t.shape = s.shape := by
  rw [State.shape, State.shape, h.rest_plain, Token.plain_eq_of_piece (M.piece h.last)]

/-- What the grammar asks about a state has the same answer in both. -/
theorem view {α : Type} (h : M.Twin ns ms s t) {f : State → α} (hf : ∀ s, f s.shape = f s) :
    f t = f s := by rw [← hf t, h.shape, hf s]

theorem isAt (h : M.Twin ns ms s t) (p : String) : t.isAt p = s.isAt p :=
  h.view (f := (·.isAt p)) fun s => s.isAt_shape p

theorem isAtWord (h : M.Twin ns ms s t) (w : String) : t.isAtWord w = s.isAtWord w :=
  h.view (f := (·.isAtWord w)) fun s => s.isAtWord_shape w

theorem aheadIs (h : M.Twin ns ms s t) (n : Nat) (p : String) : t.aheadIs n p = s.aheadIs n p :=
  h.view (f := (·.aheadIs n p)) fun s => s.aheadIs_shape n p

theorem atEnd (h : M.Twin ns ms s t) : t.atEnd = s.atEnd := h.view State.atEnd_shape

theorem isWord (h : M.Twin ns ms s t) : t.current.isWord = s.current.isWord :=
  h.view (f := fun s => s.current.isWord) fun s => by simp

theorem kind (h : M.Twin ns ms s t) : t.current.kind = s.current.kind :=
  h.view (f := fun s => s.current.kind) fun s => by simp

theorem text (h : M.Twin ns ms s t) : t.current.text = s.current.text :=
  h.view (f := fun s => s.current.text) fun s => by simp

theorem newlineBefore (h : M.Twin ns ms s t) : t.current.newlineBefore = s.current.newlineBefore :=
  h.view (f := fun s => s.current.newlineBefore) fun s => by simp

theorem isPunctOf (h : M.Twin ns ms s t) (ps : List String) :
    t.current.isPunctOf ps = s.current.isPunctOf ps :=
  h.view (f := fun s => s.current.isPunctOf ps) fun s => by simp

theorem startsMemberName_ahead (h : M.Twin ns ms s t) (n : Nat) :
    startsMemberName (t.ahead n) = startsMemberName (s.ahead n) :=
  h.view (f := fun s => startsMemberName (s.ahead n)) fun s => by simp

theorem isPunct_ahead (h : M.Twin ns ms s t) (n : Nat) (p : String) :
    (t.ahead n).isPunct p = (s.ahead n).isPunct p := h.aheadIs n p

theorem opensArrow (h : M.Twin ns ms s t) : opensArrow t.rest = opensArrow s.rest :=
  h.view (f := fun s => Grammar.opensArrow s.rest) fun s => by simp

theorem typeArgumentsThenCall (h : M.Twin ns ms s t) (fuel depth : Nat) :
    typeArgumentsThenCall fuel depth t.rest = typeArgumentsThenCall fuel depth s.rest :=
  h.view (f := fun s => Grammar.typeArgumentsThenCall fuel depth s.rest) fun s => by simp

theorem isUnaryOperator (h : M.Twin ns ms s t) : isUnaryOperator t = isUnaryOperator s :=
  h.view isUnaryOperator_shape

theorem wordForm (h : M.Twin ns ms s t) : wordForm t = wordForm s := h.view wordForm_shape

theorem statementForm (h : M.Twin ns ms s t) : statementForm t = statementForm s :=
  h.view statementForm_shape

theorem operator? (h : M.Twin ns ms s t) (above : Nat) :
    operator? above t.current = operator? above s.current :=
  h.view (f := fun s => Grammar.operator? above s.current) fun s => by simp

theorem isCast (h : M.Twin ns ms s t) : isCast t.current = isCast s.current :=
  h.view (f := fun s => Grammar.isCast s.current) fun s => by simp

theorem endsYield (h : M.Twin ns ms s t) : endsYield t.current = endsYield s.current :=
  h.view (f := fun s => Grammar.endsYield s.current) fun s => by simp

/-- The offsets at which both stand. -/
theorem place (h : M.Twin ns ms s t) : M.place s.current.span.start t.current.span.start :=
  M.place_start h.current

/-- No nodes after those that are pending. -/
theorem nil (h : M.Twin ns ms s t) : M.Twin (ns ++ []) (ms ++ []) s t := by
  rwa [List.append_nil, List.append_nil]

theorem join {xs ys xs' ys' : List Node} (h : M.Twin (ns ++ xs ++ ys) (ms ++ xs' ++ ys') s t) :
    M.Twin (ns ++ (xs ++ ys)) (ms ++ (xs' ++ ys')) s t := by
  rwa [← List.append_assoc, ← List.append_assoc]

theorem readBy (h : M.Twin ns ms s t) (n : Nat) : M.Twin ns ms (s.readBy n) (t.readBy n) where
  rest := by
    rw [State.readBy, State.readBy, List.splitAt_eq, List.splitAt_eq]
    exact List.forall₂_drop n h.rest
  last := h.last
  ended := h.ended
  length := h.length
  holds := M.holds_read n h

theorem report (h : M.Twin ns ms s t) {f : Fault} (hf : ReportedAt s.current f) :
    M.Twin ns ms (s.report f) (t.report (f.put t.current.span)) where
  rest := h.rest
  last := h.last
  ended := h.ended
  length := h.length
  holds := M.holds_report h hf

theorem alloc (h : M.Twin ns ms s t) (n m : Node) : M.Twin ns ms (s.alloc n) (t.alloc m) where
  rest := h.rest
  last := h.last
  ended := h.ended
  length := h.length
  holds := M.holds_alloc n m h

end Matching.Twin

/-- Wherever both parses have a result, `Q` holds of the two. -/
def Locked {α β : Type} (p : Parse α) (q : Parse β) (s t : State)
    (Q : α → β → State → State → Prop) : Prop :=
  ∀ depth a b s' t', p depth s = some (a, s') → q depth t = some (b, t') → Q a b s' t'

section
variable {α β γ δ : Type} {p : Parse α} {q : Parse β} {f : α → Parse γ} {g : β → Parse δ}
  {P : α → β → State → State → Prop} {Q : γ → δ → State → State → Prop}

theorem Locked.mono {R : α → β → State → State → Prop} (hp : Locked p q s t P)
    (h : ∀ a b s' t', P a b s' t' → R a b s' t') : Locked p q s t R :=
  fun depth a b s' t' hrun hrun' => h a b s' t' (hp depth a b s' t' hrun hrun')

theorem Locked.bind (hp : Locked p q s t P)
    (hf : ∀ a b s' t', P a b s' t' → Locked (f a) (g b) s' t' Q) :
    Locked (p >>= f) (q >>= g) s t Q := by
  intro depth c d s'' t'' hrun hrun'
  rw [Parse.bind_run, Option.bind_eq_some_iff] at hrun hrun'
  obtain ⟨⟨a, s'⟩, ha, hc⟩ := hrun
  obtain ⟨⟨b, t'⟩, hb, hd⟩ := hrun'
  exact hf a b s' t' (hp depth a b s' t' ha hb) depth c d s'' t'' hc hd

theorem locked_pure {a : α} {b : β} (h : P a b s t) : Locked (pure a) (pure b) s t P := by
  intro depth a' b' s' t' hrun hrun'
  cases hrun
  cases hrun'
  exact h

theorem locked_stuck : Locked (.stuck : Parse α) q s t P := fun _ _ _ _ _ hrun => nomatch hrun

theorem locked_ite {p' : Parse α} {q' : Parse β} {c d : Bool} (hcd : d = c)
    (hyes : c = true → Locked p q s t P) (hno : c = false → Locked p' q' s t P) :
    Locked (if c = true then p else p') (if d = true then q else q') s t P := by
  subst hcd
  cases d with
  | true => exact hyes rfl
  | false => exact hno rfl

/-- Two branches that meet again. -/
theorem locked_join {p' : Parse α} {q' : Parse β} {c d : Bool} (hcd : d = c)
    (h : Locked (if c = true then p else p') (if d = true then q else q') s t P)
    (hf : ∀ a b s' t', P a b s' t' → Locked (f a) (g b) s' t' Q) :
    Locked (if c = true then p >>= f else p' >>= f) (if d = true then q >>= g else q' >>= g)
      s t Q := by
  subst hcd
  cases d with
  | true => exact Locked.bind h hf
  | false => exact Locked.bind h hf

theorem locked_look {f : State → Parse γ} {g : State → Parse δ} (h : Locked (f s) (g t) s t Q) :
    Locked (look >>= f) (look >>= g) s t Q := h

theorem locked_pureBind {a : α} {b : β} (h : Locked (f a) (g b) s t Q) :
    Locked (pure a >>= f) (pure b >>= g) s t Q := h

theorem locked_here {f : Nat → Parse γ} {g : Nat → Parse δ}
    (h : Locked (f s.current.span.start) (g t.current.span.start) s t Q) :
    Locked (here >>= f) (here >>= g) s t Q := h

end

/-- Nothing new is pending, whatever the results are. -/
abbrev Pairing.Still (M : Pairing) (ns ms : List Node) {α β : Type} (_ : α) (_ : β) :
    State → State → Prop := M.Twin ns ms

/-- Nothing new is pending, and the results are the same. -/
def Pairing.Same (M : Pairing) (ns ms : List Node) {α : Type} (a b : α) (s t : State) : Prop :=
  b = a ∧ M.Twin ns ms s t

/-- The names that are the results go together as those of nodes of the kind do. -/
def Pairing.Naming (M : Pairing) (ns ms : List Node) (kind : Kind) (a b : Option Name)
    (s t : State) : Prop := M.named kind a b ∧ M.Twin ns ms s t

/-- Nothing new is pending, and the types that are the results go together. -/
def Pairing.Typed (M : Pairing) (ns ms : List Node) (a b : Option String) (s t : State) : Prop :=
  M.declared a b ∧ M.Twin ns ms s t

def Pairing.One (M : Pairing) (ns ms : List Node) (n m : Node) : State → State → Prop :=
  M.Twin (ns ++ [n]) (ms ++ [m])

def Pairing.Many (M : Pairing) (ns ms : List Node) (xs ys : List Node) : State → State → Prop :=
  M.Twin (ns ++ xs) (ms ++ ys)

/-- The nodes of a turn are pending, and both ask for more or do not. -/
def Pairing.Turned (M : Pairing) (ns ms : List Node) (a b : List Node × Bool) (s t : State) :
    Prop := b.2 = a.2 ∧ M.Twin (ns ++ a.1) (ms ++ b.1) s t

/-- The node of a turn is pending, and both ask for more or do not. -/
def Pairing.Climbed (M : Pairing) (ns ms : List Node) (a b : Node × Bool) (s t : State) : Prop :=
  b.2 = a.2 ∧ M.Twin (ns ++ [a.1]) (ms ++ [b.1]) s t

theorem advance_run (depth : Nat) (s : State) : advance depth s = some ((), s.readBy 1) := by
  rw [State.readBy, List.splitAt_eq]
  rfl

theorem takeName_run (depth : Nat) (s : State) :
    takeName depth s = some (s.word, s.readBy 1) := by
  rw [State.readBy, List.splitAt_eq]
  rfl

theorem locked_advance (h : M.Twin ns ms s t) :
    Locked advance advance s t (M.Still ns ms) := by
  intro depth _ _ s' t' hrun hrun'
  rw [advance_run] at hrun hrun'
  cases hrun
  cases hrun'
  exact h.readBy 1

theorem locked_advanceBy {n m : Nat} (hnm : m = n) (h : M.Twin ns ms s t) :
    Locked (advanceBy n) (advanceBy m) s t (M.Still ns ms) := by
  subst hnm
  intro depth _ _ s' t' hrun hrun'
  cases hrun
  cases hrun'
  exact h.readBy m

/-- A cut skips equally many tokens in both. -/
theorem locked_skipped {cut : List Token → Split} (hcut : Cuts cut) (h : M.Twin ns ms s t) :
    Locked (skip cut) (skip cut) s t fun a b s' t' =>
      (∃ k, a = (s.rest.splitAt k).1 ∧ b = (t.rest.splitAt k).1) ∧ M.Twin ns ms s' t' := by
  intro depth _ _ s' t' hrun hrun'
  obtain ⟨k, hs, ht⟩ := hcut.splitAt h.rest_plain
  rw [skip, hs] at hrun
  rw [skip, ht] at hrun'
  cases hrun
  cases hrun'
  exact ⟨⟨k, rfl, rfl⟩, h.readBy k⟩

theorem locked_skip {cut : List Token → Split} (hcut : Cuts cut) (h : M.Twin ns ms s t) :
    Locked (skip cut) (skip cut) s t (M.Still ns ms) :=
  (locked_skipped hcut h).mono fun _ _ _ _ h₁ => h₁.2

theorem locked_accept (p : String) (h : M.Twin ns ms s t) :
    Locked (accept p) (accept p) s t (M.Same ns ms) := by
  refine locked_look (locked_ite (h.isAt p) (fun _ => ?_) fun _ => locked_pure ⟨rfl, h⟩)
  exact (locked_advance h).bind fun _ _ _ _ h₁ => locked_pure ⟨rfl, h₁⟩

theorem locked_acceptWord (w : String) (h : M.Twin ns ms s t) :
    Locked (acceptWord w) (acceptWord w) s t (M.Same ns ms) := by
  refine locked_look (locked_ite (h.isAtWord w) (fun _ => ?_) fun _ => locked_pure ⟨rfl, h⟩)
  exact (locked_advance h).bind fun _ _ _ _ h₁ => locked_pure ⟨rfl, h₁⟩

section
variable {β : Type} {yes yes' no no' : Parse β} {Q : β → β → State → State → Prop}

/-- A branch on whether a punctuator comes next, which is read. -/
theorem locked_ifAccept {p : String} (h : M.Twin ns ms s t)
    (hyes : ∀ s' t', M.Twin ns ms s' t' → Locked yes yes' s' t' Q)
    (hno : ∀ s' t', M.Twin ns ms s' t' → Locked no no' s' t' Q) :
    Locked (accept p >>= fun b => if b = true then yes else no)
      (accept p >>= fun b => if b = true then yes' else no') s t Q :=
  (locked_accept p h).bind fun _ _ s₁ t₁ h₁ =>
    locked_ite h₁.1 (fun _ => hyes s₁ t₁ h₁.2) fun _ => hno s₁ t₁ h₁.2

theorem locked_ifAcceptWord {w : String} (h : M.Twin ns ms s t)
    (hyes : ∀ s' t', M.Twin ns ms s' t' → Locked yes yes' s' t' Q)
    (hno : ∀ s' t', M.Twin ns ms s' t' → Locked no no' s' t' Q) :
    Locked (acceptWord w >>= fun b => if b = true then yes else no)
      (acceptWord w >>= fun b => if b = true then yes' else no') s t Q :=
  (locked_acceptWord w h).bind fun _ _ s₁ t₁ h₁ =>
    locked_ite h₁.1 (fun _ => hyes s₁ t₁ h₁.2) fun _ => hno s₁ t₁ h₁.2

end

theorem locked_optional (p : String) (h : M.Twin ns ms s t) :
    Locked (optional p) (optional p) s t (M.Still ns ms) :=
  (locked_accept p h).bind fun _ _ _ _ h₁ => locked_pure h₁.2

theorem locked_optionalWord (w : String) (h : M.Twin ns ms s t) :
    Locked (optionalWord w) (optionalWord w) s t (M.Still ns ms) :=
  (locked_acceptWord w h).bind fun _ _ _ _ h₁ => locked_pure h₁.2

theorem locked_report (what : Expectation) (hwhat : what.isKnown = true) (h : M.Twin ns ms s t) :
    Locked (report what) (report what) s t (M.Still ns ms) := by
  have hend : t.current.isEnd = s.current.isEnd := by rw [Token.isEnd, h.kind, Token.isEnd]
  have hfound : (if t.current.isEnd then none else some t.current.text) =
      if s.current.isEnd then none else some s.current.text := by rw [hend, h.text]
  intro depth _ _ s' t' hrun hrun'
  cases hrun
  cases hrun'
  dsimp only
  rw [hfound]
  exact h.report (.expected hwhat)

theorem locked_expect (p : String) (hp : Scanner.punctuators.contains p = true)
    (h : M.Twin ns ms s t) : Locked (expect p) (expect p) s t (M.Still ns ms) := by
  refine (locked_accept p h).bind fun b c s₁ t₁ h₁ => ?_
  exact locked_ite (congrArg _ h₁.1) (fun _ => locked_report _ hp h₁.2) fun _ => locked_pure h₁.2

theorem named_member {kind : Kind} {a b : Option Name} (hkind : kind.hasMemberName = true)
    (h : Option.Rel M.memberName a b) : M.named kind a b := by
  rwa [Matching.named, if_pos hkind]

theorem named_of_rel {kind : Kind} {a b : Option Name} (hkind : kind.hasMemberName = false)
    (h : Option.Rel M.name a b) : M.named kind a b := by
  rw [Matching.named, hkind]
  exact h

theorem named_word (h : M.Twin ns ms s t) {kind : Kind} (hkind : kind.hasMemberName = false) :
    M.named kind (some s.word) (some t.word) := named_of_rel hkind (.some (M.name_word h.current))

theorem named_none {kind : Kind} : M.named kind none none := .none

/-- A token that is read as a name. -/
theorem locked_takeName (h : M.Twin ns ms s t) : Locked takeName takeName s t fun a b s' t' =>
    a = s.word ∧ b = t.word ∧ M.Twin ns ms s' t' := by
  intro depth a b s' t' hrun hrun'
  rw [takeName_run] at hrun hrun'
  cases hrun
  cases hrun'
  exact ⟨rfl, rfl, h.readBy 1⟩

/-- The name that a token is, where there may be none. -/
theorem locked_someName (h : M.Twin ns ms s t) :
    Locked (do return some (← takeName)) (do return some (← takeName)) s t fun a b s' t' =>
      Option.Rel M.name a b ∧ M.Twin ns ms s' t' := by
  refine (locked_takeName h).bind fun a b s₁ t₁ h₁ => ?_
  obtain ⟨rfl, rfl, h₁⟩ := h₁
  exact locked_pure ⟨.some (M.name_word h.current), h₁⟩

theorem locked_takeNameIfWord {kind : Kind} (hkind : kind.hasMemberName = false)
    (h : M.Twin ns ms s t) : Locked takeNameIfWord takeNameIfWord s t (M.Naming ns ms kind) := by
  refine locked_look (locked_ite h.isWord (fun _ => ?_) fun _ => locked_pure ⟨named_none, h⟩)
  exact (locked_someName h).mono fun _ _ _ _ h₁ => ⟨named_of_rel hkind h₁.1, h₁.2⟩

theorem locked_skipBalanced (h : M.Twin ns ms s t) :
    Locked skipBalanced skipBalanced s t (M.Still ns ms) :=
  (locked_skip (.balanced 0) h).bind fun _ _ _ _ h₁ => locked_pure h₁

theorem locked_skipAngles (h : M.Twin ns ms s t) :
    Locked skipAngles skipAngles s t (M.Still ns ms) := by
  refine locked_look (locked_ite (h.isAt "<") (fun _ => ?_) fun _ => locked_pure h)
  exact (locked_skip (.angles 0 0) h).bind fun _ _ _ _ h₁ => locked_pure h₁

theorem locked_typeUpTo (stops : List String) (h : M.Twin ns ms s t) :
    Locked (typeUpTo stops) (typeUpTo stops) s t (M.Typed ns ms) := by
  refine (locked_skipped (.typeTokens stops 0) h).bind fun _ _ _ _ h₁ => ?_
  obtain ⟨⟨k, rfl, rfl⟩, h₁⟩ := h₁
  exact locked_pure ⟨M.declared_read k h, h₁⟩

theorem locked_annotated (stops : List String) (h : M.Twin ns ms s t) :
    Locked ( annotation stops) ( annotation stops) s t (M.Typed ns ms) :=
  locked_ifAccept h (fun _ _ h₁ => locked_typeUpTo stops h₁)
    fun _ _ h₁ => locked_pure ⟨M.declared_none, h₁⟩

/-- A node is built on the last ones pending. -/
theorem locked_buildNamed {pending pending' children children' : List Node} {kind : Kind}
    {start start' : Nat} {name name' : Option Name} {declared declared' : Option String}
    (h : M.Twin pending pending' s t) (hlength : ns.length = ms.length)
    (hs : pending = ns ++ children) (ht : pending' = ms ++ children')
    (hkind : kind ≠ .propertyAccess) (hstart : M.place start start')
    (hname : M.named kind name name') (hdeclared : M.declared declared declared') :
    Locked (buildNamed kind start name declared children)
      (buildNamed kind start' name' declared' children') s t (M.One ns ms) := by
  intro depth _ _ s' t' hrun hrun'
  cases hrun
  cases hrun'
  subst hs ht
  have hlengths := h.length
  rw [List.length_append, List.length_append] at hlengths
  refine ⟨h.rest, h.last, h.ended, ?_, M.holds_build h (by omega) hkind hstart hname hdeclared⟩
  rw [List.length_append, List.length_append, hlength]
  rfl

theorem ne_propertyAccess_of_hasMemberName {kind : Kind} (h : kind.hasMemberName = true) :
    kind ≠ .propertyAccess := by
  rintro rfl
  cases h

theorem locked_build {pending pending' children children' : List Node} {kind : Kind}
    {start start' : Nat} (h : M.Twin pending pending' s t) (hlength : ns.length = ms.length)
    (hs : pending = ns ++ children) (ht : pending' = ms ++ children')
    (hkind : kind ≠ .propertyAccess) (hstart : M.place start start') :
    Locked (build kind start children) (build kind start' children') s t (M.One ns ms) :=
  locked_buildNamed h hlength hs ht hkind hstart named_none M.declared_none

/-- A shorthand member, whose identifier has been allocated. -/
theorem locked_buildShorthand {xs ys : List Node} {s₀ t₀ : State} {start start' : Nat}
    {name name' : Name} (h₀ : M.Twin ns ms s₀ t₀) (h : M.Twin (ns ++ xs) (ms ++ ys) s t)
    (hstart : M.place start start') (hname : M.memberName name name') :
    Locked (buildNamed .propertyAssignment start (some name) none (shorthand s₀.built name :: xs))
      (buildNamed .propertyAssignment start' (some name') none (shorthand t₀.built name' :: ys)) s t
      (M.One ns ms) := by
  intro depth _ _ s' t' hrun hrun'
  cases hrun
  cases hrun'
  have hlength := h₀.length
  have hlengths := h.length
  rw [List.length_append, List.length_append] at hlengths
  refine ⟨h.rest, h.last, h.ended, ?_, M.holds_shorthand h₀ h (by omega) hstart hname⟩
  rw [List.length_append, List.length_append, hlength]
  rfl

/-- A member access from its name on. -/
theorem locked_accessNamed {n m : Node} {start start' : Nat}
    (h : M.Twin (ns ++ [n]) (ms ++ [m]) s t) (hlength : ns.length = ms.length)
    (hword : s.current.isWord = true) (hstart : M.place start start') :
    Locked (do
      let name ← takeName
      return (← buildNamed .propertyAccess start (some name) none [n], true)) (do
      let name ← takeName
      return (← buildNamed .propertyAccess start' (some name) none [m], true)) s t
      (M.Climbed ns ms) := by
  intro depth r r' s' t' hrun hrun'
  rw [Parse.bind_run, takeName_run] at hrun hrun'
  cases hrun
  cases hrun'
  have h₁ := h.readBy 1
  refine ⟨rfl, h₁.rest, h₁.last, h₁.ended, ?_, M.holds_access h hword hstart⟩
  rw [List.length_append, List.length_append, hlength]
  rfl

theorem locked_skipTooDeep (h : M.Twin ns ms s t) :
    Locked skipTooDeep skipTooDeep s t (M.One ns ms) := by
  have hreport : Locked (update fun s => s.report (.tooDeep maxNesting s.current.span))
      (update fun s => s.report (.tooDeep maxNesting s.current.span)) s t (M.Still ns ms) := by
    intro depth _ _ s' t' hrun hrun'
    cases hrun
    cases hrun'
    exact h.report (.tooDeep maxNesting)
  refine locked_here (hreport.bind fun _ _ s₁ t₁ h₁ => ?_)
  refine (locked_skip (.enclosed 0) h₁).bind fun _ _ s₂ t₂ h₂ => ?_
  exact locked_build h₂ h.length (by simp) (by simp) (by decide) h.place

theorem locked_nested {p q : Parse Node} (h : M.Twin ns ms s t)
    (hp : Locked p q s t (M.One ns ms)) : Locked (nested p) (nested q) s t (M.One ns ms) := by
  intro depth n m s' t' hrun hrun'
  rw [nested] at hrun hrun'
  split at hrun
  · rename_i hdeep
    rw [if_pos hdeep] at hrun'
    exact locked_skipTooDeep h depth n m s' t' hrun hrun'
  · rename_i hdeep
    rw [if_neg hdeep] at hrun'
    exact hp (depth + 1) n m s' t' hrun hrun'

theorem locked_stop (h : M.Twin ns ms s t) :
    Locked (pure ([], false)) (pure ([], false)) s t (M.Turned ns ms) :=
  locked_pure ⟨rfl, h.nil⟩

theorem locked_next (h : M.Twin ns ms s t) :
    Locked (pure ([], true)) (pure ([], true)) s t (M.Turned ns ms) :=
  locked_pure ⟨rfl, h.nil⟩

/-- A turn with one node. -/
theorem locked_turn {n m : Node} {more : Bool} (h : M.Twin (ns ++ [n]) (ms ++ [m]) s t) :
    Locked (pure ([n], more)) (pure ([m], more)) s t (M.Turned ns ms) := locked_pure ⟨rfl, h⟩

/-- A turn with an item, after which a comma asks for more. -/
theorem locked_item {p q : Parse Node} (hp : Locked p q s t (M.One ns ms)) :
    Locked (do
      let node ← p
      return ([node], ← accept ",")) (do
      let node ← q
      return ([node], ← accept ",")) s t (M.Turned ns ms) :=
  hp.bind fun _ _ _ _ h₁ => (locked_accept "," h₁).bind fun _ _ _ _ h₂ => locked_pure h₂

/-- What each turn keeps, with the nodes of the turns before it, all turns keep. -/
theorem locked_turns {I : List Node → List Node → State → State → Prop}
    {turn turn' : Parse (List Node × Bool)} (fuel : Nat)
    (hturn : ∀ xs ys s t, I xs ys s t → Locked turn turn' s t fun r r' s' t' =>
      r'.2 = r.2 ∧ I (xs ++ r.1) (ys ++ r'.1) s' t')
    (xs ys : List Node) (h : I xs ys s t) : Locked (turns fuel turn) (turns fuel turn') s t
      fun zs ws => I (xs ++ zs) (ys ++ ws) := by
  induction fuel generalizing xs ys s t with
  | zero => exact locked_stuck
  | succ fuel ih =>
    refine (hturn xs ys s t h).bind fun r r' s₁ t₁ h₁ => ?_
    obtain ⟨hmore, h₁⟩ := h₁
    refine locked_ite hmore (fun _ => ?_) fun _ => locked_pure h₁
    refine (ih _ _ h₁).bind fun zs ws s₂ t₂ h₂ => locked_pure ?_
    rwa [← List.append_assoc, ← List.append_assoc]

theorem locked_manyTurns {turn turn' : Parse (List Node × Bool)} (fuel : Nat)
    (hturn : ∀ ns ms s t, M.Twin ns ms s t → Locked turn turn' s t (M.Turned ns ms))
    (h : M.Twin ns ms s t) : Locked (turns fuel turn) (turns fuel turn') s t (M.Many ns ms) := by
  refine locked_turns (I := fun xs ys => M.Twin (ns ++ xs) (ms ++ ys)) _ (fun xs ys s t h => ?_)
    [] [] h.nil
  exact (hturn _ _ s t h).mono fun _ _ _ _ h₁ => ⟨h₁.1, h₁.2.join⟩

theorem locked_gather {turn turn' : Parse (List Node × Bool)}
    (hturn : ∀ ns ms s t, M.Twin ns ms s t → Locked turn turn' s t (M.Turned ns ms))
    (h : M.Twin ns ms s t) : Locked (gather turn) (gather turn') s t (M.Many ns ms) := by
  refine locked_look ?_
  rw [h.rest_length]
  exact locked_manyTurns _ hturn h

/-- The same where the turns leave nothing pending. -/
theorem locked_gather_still {turn turn' : Parse (List Node × Bool)}
    (hturn : ∀ s t, M.Twin ns ms s t → Locked turn turn' s t fun r r' s' t' =>
      r'.2 = r.2 ∧ M.Twin ns ms s' t')
    (h : M.Twin ns ms s t) : Locked (gather turn) (gather turn') s t (M.Still ns ms) := by
  refine locked_look ?_
  rw [h.rest_length]
  exact locked_turns (I := fun _ _ => M.Twin ns ms) _ (fun _ _ => hturn) [] [] h

theorem locked_done {n m : Node} {more : Bool} (h : M.Twin (ns ++ [n]) (ms ++ [m]) s t) :
    Locked (pure (n, more)) (pure (m, more)) s t (M.Climbed ns ms) := locked_pure ⟨rfl, h⟩

theorem locked_climbs {turn turn' : Node → Parse (Node × Bool)} (fuel : Nat)
    (hturn : ∀ n m s t, M.Twin (ns ++ [n]) (ms ++ [m]) s t →
      Locked (turn n) (turn' m) s t (M.Climbed ns ms))
    {n m : Node} (h : M.Twin (ns ++ [n]) (ms ++ [m]) s t) :
    Locked (climbs fuel turn n) (climbs fuel turn' m) s t (M.One ns ms) := by
  induction fuel generalizing n m s t with
  | zero => exact locked_stuck
  | succ fuel ih =>
    refine (hturn n m s t h).bind fun r r' s₁ t₁ h₁ => ?_
    exact locked_ite h₁.1 (fun _ => ih h₁.2) fun _ => locked_pure h₁.2

theorem locked_climb {turn turn' : Node → Parse (Node × Bool)}
    (hturn : ∀ n m s t, M.Twin (ns ++ [n]) (ms ++ [m]) s t →
      Locked (turn n) (turn' m) s t (M.Climbed ns ms))
    {n m : Node} (h : M.Twin (ns ++ [n]) (ms ++ [m]) s t) :
    Locked (climb turn n) (climb turn' m) s t (M.One ns ms) := by
  refine locked_look ?_
  rw [h.rest_length]
  exact locked_climbs _ hturn h

/-- Both have moved or both have not. -/
theorem locked_moved {p q : Parse Node} (h : M.Twin ns ms s t)
    (hp : Locked p q s t (M.One ns ms)) :
    Locked (moved p) (moved q) s t (M.Climbed ns ms) := by
  refine locked_look (hp.bind fun n m s₁ t₁ h₁ => locked_look (locked_pure ⟨?_, h₁⟩))
  dsimp only
  rw [h.rest_length, h₁.rest_length]

/-- The rules inside a rule keep what two parses have in common, and leave one node each. -/
def Paired (M : Pairing) (go : Recur) : Prop :=
  ∀ (r : Rule) (ns ms : List Node) (s t : State), M.Twin ns ms s t →
    Locked (go r) (go r) s t (M.One ns ms)

theorem Paired.enter {go : Recur} (hgo : Paired M go) (r : Rule) (h : M.Twin ns ms s t) :
    Locked (go r) (go r) s t (M.One ns ms) := hgo r ns ms s t h

end Grammar

end Subscriptions
