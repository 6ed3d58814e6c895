import Subscriptions.Proofs.Making.Statements
import Subscriptions.Proofs.Operators.Scanning

namespace Subscriptions

def Fault.isTooDeep : Fault → Bool
  | .tooDeep _ _ => true
  | _ => false

namespace Grammar

/-- Something nested too deeply has been found. -/
structure Sunk (s : State) : Prop where
  last : s.last.isEnd = true
  deep : ∃ f ∈ s.faults, f.isTooDeep = true

/-- A parse forgets no fault. -/
class Sinks {α : Type} (p : Parse α) : Prop where
  sunk : ∀ s, Sunk s → Runs p s fun _ s' => Sunk s'

section
variable {α β : Type} {p q : Parse α} {f : α → Parse β} {s : State} {moved : Bool}
  {nodes : α → List Node}

theorem Adds.sinks (h : Adds p moved nodes) : Sinks p where
  sunk s hs := (h s hs.last).imp fun _ _ h' =>
    ⟨h'.last, hs.deep.imp fun _ hf => ⟨h'.makes.faults_suffix.subset hf.1, hf.2⟩⟩

instance (a : α) : Sinks (pure a : Parse α) := ⟨fun _ hs => runs_pure hs⟩

instance [Sinks p] [∀ a, Sinks (f a)] : Sinks (p >>= f) where
  sunk s hs := (Sinks.sunk s hs).bind fun _ s' hs' => Sinks.sunk s' hs'

instance : Sinks look := ⟨fun _ hs _ _ _ hrun => (Prod.mk.inj (Option.some.inj hrun)).2 ▸ hs⟩

instance : Sinks here := ⟨fun _ hs _ _ _ hrun => (Prod.mk.inj (Option.some.inj hrun)).2 ▸ hs⟩

instance {c : Prop} [Decidable c] [Sinks p] [Sinks q] : Sinks (if c then p else q) where
  sunk s hs := runs_ite (fun _ => Sinks.sunk s hs) fun _ => Sinks.sunk s hs

instance {kind : Kind} {start : Nat} {name : Option Name} {declared : Option String}
    {children : List Node} : Sinks (buildNamed kind start name declared children) where
  sunk _ hs := fun _ _ _ hrun => (Prod.mk.inj (Option.some.inj hrun)).2 ▸ ⟨hs.last, hs.deep⟩

instance {kind : Kind} {start : Nat} {children : List Node} : Sinks (build kind start children) :=
  inferInstanceAs (Sinks (buildNamed kind start none none children))

instance : Sinks advance := passes_advance.sinks

instance (p : String) : Sinks (accept p) := (passes_accept p).sinks

instance (w : String) : Sinks (acceptWord w) := (passes_acceptWord w).sinks

instance (p : String) : Sinks (optional p) := (passes_optional p).sinks

instance (p : String) : Sinks (expect p) := (adds_expect p).sinks

instance (stops : List String) : Sinks (typeUpTo stops) := (passes_typeUpTo stops).sinks

instance (fuel : Nat) (r : Rule) : Sinks (rule fuel r) := (builds_rule fuel r).sinks

instance {turn : Node → Parse (Node × Bool)} [∀ n, Sinks (turn n)] (fuel : Nat) (n : Node) :
    Sinks (climbs fuel turn n) where
  sunk s hs := by
    induction fuel generalizing n s with
    | zero =>
      intro depth a s' hrun
      cases hrun
    | succ fuel ih =>
      refine (Sinks.sunk s hs).bind fun r s' hs' => ?_
      exact runs_ite (fun _ => ih r.1 s' hs') fun _ => runs_pure hs'

instance {turn : Node → Parse (Node × Bool)} [∀ n, Sinks (turn n)] (n : Node) :
    Sinks (climb turn n) := inferInstanceAs (Sinks (look >>= fun _ => climbs _ turn n))

instance (fuel above start : Nat) (left : Node) : Sinks (binaryStep (rule fuel) above start left) where
  sunk s hs := by
    refine runs_look ?_
    dsimp only
    cases operator? above s.current with
    | none => exact runs_pure hs
    | some precedence =>
      dsimp only
      have hcast : Sinks castType := by
        unfold castType
        infer_instance
      exact Sinks.sunk s hs

end

section
variable {α β : Type} {p : Parse α} {f : α → Parse β} {before after : List Piece}
  {P R : α → List Piece → Prop} {Q : β → List Piece → Prop} {S : α → Prop} {a : α}

/-- Whatever a parse comes to, it has found something nested too deeply, or else no fault at all, and
its result and the pieces still to be read are as `Q` says. -/
def Meets (p : Parse α) (before : List Piece) (Q : α → List Piece → Prop) : Prop :=
  ∀ s : State, s.pieces = before → s.last.isEnd = true → Runs p s fun a s' =>
    Sunk s' ∨ s'.last = s.last ∧ s'.faults = s.faults ∧ Q a s'.pieces

theorem Meets.imp (h : Meets p before P) (himp : ∀ a ps, P a ps → R a ps) : Meets p before R :=
  fun s hs hend => (h s hs hend).imp fun a _ => Or.imp_right fun ⟨hlast, hfaults, ha⟩ =>
    ⟨hlast, hfaults, himp a _ ha⟩

theorem Meets.bind [∀ a, Sinks (f a)] (hp : Meets p before P)
    (hf : ∀ a mid, P a mid → Meets (f a) mid Q) : Meets (p >>= f) before Q := by
  intro s hs hend
  refine (hp s hs hend).bind fun a s' ha => ?_
  rcases ha with hsunk | ⟨hlast, hfaults, ha⟩
  · exact (Sinks.sunk s' hsunk).imp fun _ _ => .inl
  · refine (hf a _ ha s' rfl (hlast ▸ hend)).imp fun b s'' => ?_
    rw [hlast, hfaults]
    exact id

theorem Meets.of_reads (h : ∀ depth, Reads p depth before after S) :
    Meets p before fun a ps => ps = after ∧ S a := by
  intro s hs hend depth a s' hrun
  obtain ⟨a', t, hrun', hafter, -, hlast, hfaults, ha⟩ := h depth s hs hend
  obtain ⟨rfl, rfl⟩ := Prod.mk.inj (Option.some.inj (hrun.symm.trans hrun'))
  exact .inr ⟨hlast, hfaults, hafter, ha⟩

theorem Meets.read_bind (hp : ∀ depth, Reads p depth before after S)
    (hf : ∀ a, S a → Meets (f a) after Q) : Meets (p >>= f) before Q := by
  intro s hs hend depth b s' hrun
  obtain ⟨a, t, hfirst, hafter, -, hlast, hfaults, ha⟩ := hp depth s hs hend
  rw [Parse.bind_run, hfirst] at hrun
  rw [← hlast, ← hfaults]
  exact hf a ha t hafter (hlast ▸ hend) depth b s' hrun

theorem meets_pure (h : P a before) : Meets (pure a) before P := by
  rintro s rfl _
  exact runs_pure (.inr ⟨rfl, rfl, h⟩)

theorem meets_look {f : State → Parse β}
    (h : ∀ s : State, s.pieces = before → Meets (f s) before Q) : Meets (look >>= f) before Q :=
  fun s hs hend => h s hs s hs hend

theorem meets_here {f : Nat → Parse β} (h : ∀ start, Meets (f start) before Q) :
    Meets (here >>= f) before Q := fun s hs hend => h s.current.span.start s hs hend

theorem meets_stuck : Meets (Parse.stuck : Parse α) before P := fun _ _ _ _ _ _ hrun => nomatch hrun

theorem meets_nested {p : Parse Node} {P : Node → List Piece → Prop} (h : Meets p before P) :
    Meets (nested p) before P := by
  intro s hs hend depth n s' hrun
  rw [nested] at hrun
  split at hrun
  · obtain ⟨rfl, rfl⟩ := Prod.mk.inj (Option.some.inj hrun)
    exact .inl ⟨hend, _, List.mem_cons_self, rfl⟩
  · exact h s hs hend (depth + 1) n s' hrun

/-- A climb keeps what each of its turns keeps, and the last turn leaves. -/
theorem Meets.climb {turn : Node → Parse (Node × Bool)} [∀ n, Sinks (turn n)]
    {I T : Node → List Piece → Prop} {n : Node}
    (hturn : ∀ n ps, I n ps →
      Meets (turn n) ps fun r ps' => if r.2 = true then I r.1 ps' else T r.1 ps')
    (h : I n before) : Meets (climb turn n) before T := by
  have hclimbs (fuel : Nat) : ∀ n ps, I n ps → Meets (climbs fuel turn n) ps T := by
    induction fuel with
    | zero => exact fun _ _ _ => meets_stuck
    | succ fuel ih =>
      intro n ps hn
      refine @Meets.bind _ _ _ _ _ _ _ ?_ (hturn n ps hn) ?_
      · rintro ⟨n', more⟩
        exact inferInstanceAs (Sinks (if more = true then climbs fuel turn n' else pure n'))
      · rintro ⟨n', more⟩ ps' hr
        cases more with
        | true => exact ih n' ps' hr
        | false => exact meets_pure hr
  exact meets_look fun s _ => hclimbs _ n before h

end

end Grammar

namespace Operators

open Grammar Piece Subscriptions.Types

variable {fuel above start : Nat} {s : State} {q r : Piece} {qs rs : List Piece} {x : Leaf}

/-- What comes behind an operand: an operator and another one, or the end of the chain. -/
inductive Behind : List Piece → Prop
  | operator (o : Operator) (y : Leaf) (qs : List Piece) : Behind (o.piece :: word y.text :: qs)
  | semicolon (qs : List Piece) : Behind (punct ";" :: qs)

theorem behind_tail (ops : Tail) (qs : List Piece) :
    Behind (tailPieces ops ++ punct ";" :: qs) := by
  cases ops with
  | nil => exact .semicolon qs
  | cons op ops =>
    obtain ⟨o, y⟩ := op
    rw [tailPieces_cons]
    exact .operator o y _

/-- The marks with which an operand goes on, or an arrow function. -/
def goingOn : List String := [".", "?.", "[", "(", "<", "!", "++", "--", "=>"]

theorem Operator.piece_cases (o : Operator) :
    (o.piece = word o.text ∧ o.text ≠ "function") ∨ (o.piece = punct o.text ∧ o.text ∉ goingOn) := by
  have htable : ∀ p ∈ binaryTexts, p ≠ "function" ∧ p ∉ goingOn := by decide
  obtain ⟨hfunction, hgoing⟩ := htable o.text o.mem_binaryTexts
  rw [Operator.piece]
  split
  · exact .inl ⟨rfl, hfunction⟩
  · exact .inr ⟨rfl, hgoing⟩

theorem Behind.first (h : Behind qs) : ∃ r rs, qs = r :: rs ∧
    r.isPunctOf goingOn = false ∧ r.kind ≠ .template ∧ r.kind ≠ .templateHead := by
  cases h with
  | operator o y qs =>
    refine ⟨_, _, rfl, ?_⟩
    rcases o.piece_cases with ⟨hpiece, -⟩ | ⟨hpiece, hgoing⟩
    · rw [hpiece]
      exact ⟨rfl, by simp [Piece.word], by simp [Piece.word]⟩
    · rw [hpiece]
      exact ⟨by simpa [Piece.isPunctOf, punct] using hgoing, by simp [punct], by simp [punct]⟩
  | semicolon qs => exact ⟨_, _, rfl, by decide, by decide, by decide⟩

/-- The word `async` starts no function in front of what comes behind an operand. -/
theorem Behind.second (h : Behind qs) (hs : s.pieces = q :: qs) :
    (s.ahead 1).text ≠ "function" ∧ ((s.ahead 1).isWord && s.aheadIs 2 "=>") = false := by
  cases h with
  | operator o y qs =>
    have hnext : (s.ahead 1).piece = o.piece := State.piece_ahead_one hs
    have htext : (s.ahead 1).text = o.text := (congrArg Piece.text hnext).trans o.piece_text
    have hfunction : "function" ∉ binaryTexts := by decide
    refine ⟨fun heq => hfunction ((htext.symm.trans heq) ▸ o.mem_binaryTexts), ?_⟩
    obtain ⟨t, ts, hrest, -, hts⟩ := State.rest_of_pieces hs
    obtain ⟨u, us, rfl, -, hus⟩ := List.map_eq_cons_iff.mp hts
    obtain ⟨v, vs, rfl, hv, -⟩ := List.map_eq_cons_iff.mp hus
    have hword : s.aheadIs 2 "=>" = false := by
      rw [State.aheadIs, State.ahead, hrest]
      change v.piece.isPunct "=>" = false
      rw [hv]
      rfl
    rw [hword, Bool.and_false]
  | semicolon qs =>
    have hnext : (s.ahead 1).piece = punct ";" := State.piece_ahead_one hs
    have htext : (s.ahead 1).text = ";" := congrArg Piece.text hnext
    have hword : (s.ahead 1).isWord = false := by
      change (s.ahead 1).piece.isWord = false
      rw [hnext]
      rfl
    rw [htext, hword]
    exact ⟨by decide, rfl⟩

theorem wordForm_leaf (x : Leaf) (hs : s.pieces = word x.text :: qs) (h : Behind qs) :
    wordForm s = .identifier := by
  obtain ⟨hfunction, hlater⟩ := h.second hs
  obtain ⟨r, rs, rfl, hgoing, -, -⟩ := h.first
  have hmark {p : String} (hp : p ∈ goingOn) : (s.ahead 1).isPunct p = false := by
    rw [← isPunct_of_isPunctOf hgoing hp, ← State.piece_ahead_one hs]
    rfl
  have htext : s.current.text = x.text := State.text_current hs
  have hfree : x.text ∉ reserved := x.free
  simp only [reserved, List.mem_cons, not_or] at hfree
  simp only [wordForm, Bool.and_assoc, hlater, hmark (show "(" ∈ goingOn by decide),
    hmark (show "=>" ∈ goingOn by decide)]
  simp [htext, hfree, hfunction]

theorem reads_leaf {depth : Nat} (x : Leaf) (h : Behind qs) :
    Reads (access (rule fuel)) depth (word x.text :: qs) qs (·.shape = x.shape) := by
  have hprimary : Reads (primary (rule fuel)) depth (word x.text :: qs) qs (·.shape = x.shape) := by
    apply Core.reads_primary_of_word rfl
    apply reads_here
    intro start
    apply reads_look
    intro s hs
    rw [wordForm_leaf x hs h]
    refine reads_takeName.bind fun name hname => ?_
    refine reads_build.imp fun node hnode => ?_
    rw [hnode, Option.map_some, hname]
    rfl
  have hnew : (word x.text).isTheWord "new" = false := by
    simpa [Piece.isTheWord, Piece.word] using x.ne_reserved (by decide)
  obtain ⟨r, rs, rfl, hgoing, htemplate, hhead⟩ := h.first
  refine Core.reads_access hnew hprimary fun start => Climbs.stay fun node => ?_
  exact Core.reads_accessStep_not (isPunctOf_of_subset hgoing (by decide)) htemplate hhead node

theorem meets_unary (x : Leaf) (h : Behind qs) :
    Meets (rule fuel .unary) (word x.text :: qs) fun n ps => ps = qs ∧ n.shape = x.shape := by
  cases fuel with
  | zero => exact meets_stuck
  | succ fuel =>
    have haccess : Meets (rule fuel .access) (word x.text :: qs)
        fun n ps => ps = qs ∧ n.shape = x.shape := by
      cases fuel with
      | zero => exact meets_stuck
      | succ fuel => exact .of_reads fun _ => reads_leaf x h
    refine meets_nested (meets_here fun start => meets_look fun s hs => ?_)
    rw [if_neg (by rw [Core.isUnaryOperator_of_operand hs x.operand]; exact Bool.false_ne_true)]
    refine haccess.bind ?_
    rintro n ps ⟨rfl, hn⟩
    refine meets_look fun s hs => ?_
    obtain ⟨r, rs, rfl, hgoing, -, -⟩ := h.first
    have hmark : s.current.isPunctOf ["++", "--"] = false := by
      rw [State.isPunctOf_eq hs]
      exact isPunctOf_of_subset hgoing (by decide)
    dsimp only
    rw [hmark, Bool.false_and, if_neg Bool.false_ne_true]
    exact meets_pure ⟨rfl, hn⟩

/-- The operator goes on with an operand of what binds as tightly as `above`. -/
def Operator.continues (above : Nat) (o : Operator) : Bool :=
  above < o.precedence || (o.groupsRight && o.precedence == above)

theorem Operator.continues_iff {o : Operator} : o.continues above = true ↔
    above < o.precedence ∨ o.groupsRight = true ∧ o.precedence = above := by
  rw [continues, Bool.or_eq_true, Bool.and_eq_true, decide_eq_true_eq, beq_iff_eq]

theorem operator?_piece (o : Operator) (hs : s.pieces = o.piece :: qs) :
    operator? above s.current = if o.continues above = true then some o.precedence else none := by
  have hpiece : s.current.piece = o.piece := State.piece_current hs
  have htext : s.current.text = o.text := (congrArg Piece.text hpiece).trans o.piece_text
  have hkind : s.current.kind = o.piece.kind := congrArg Piece.kind hpiece
  have hsign : (s.current.kind == .punct || s.current.isTheWord "instanceof" ||
      s.current.isTheWord "in") = true := by
    rw [Token.isTheWord, Token.isTheWord, hkind, htext, Operator.piece]
    by_cases hword : ["instanceof", "in"].contains o.text = true
    · rw [if_pos hword]
      simp only [List.contains_eq_mem, List.mem_cons, List.not_mem_nil, or_false,
        decide_eq_true_eq] at hword
      rcases hword with hword | hword <;> rw [hword] <;> decide
    · rw [if_neg hword]
      rfl
  rw [operator?, hsign, Bool.true_or, if_pos rfl, htext, o.precedence?_text]
  rfl

theorem isCast_eq_false (o : Operator) (hs : s.pieces = o.piece :: qs) :
    isCast s.current = false := by
  have htext : s.current.text = o.text :=
    (congrArg Piece.text (State.piece_current hs)).trans o.piece_text
  have hfree := o.free
  simp only [List.mem_cons, List.not_mem_nil, or_false, not_or] at hfree
  simp [isCast, Token.isTheWord, htext, hfree]

/-- What continues with the operands of an operator goes to the right of it. -/
theorem Operator.fits_of_continues {o q : Operator} (h : q.continues o.precedence = true) :
    o.precedence ≤ q.precedence ∧ (o.groupsRight = false → o.precedence < q.precedence) := by
  rcases continues_iff.mp h with hless | ⟨hright, hsame⟩
  · exact ⟨hless.le, fun _ => hless⟩
  · have hpower : o.groupsRight = true :=
      o.groupsRight_iff.mpr (hsame ▸ q.groupsRight_iff.mp hright)
    exact ⟨hsame.ge, fun hleft => absurd (hpower.symm.trans hleft) nofun⟩

theorem Operator.continues_trans {o q : Operator} (h : o.continues above = true)
    (h' : q.continues o.precedence = true) : q.continues above = true := by
  rw [continues_iff] at h h' ⊢
  rcases h with hless | ⟨hright, hsame⟩ <;> rcases h' with hless' | ⟨hright', hsame'⟩
  · exact .inl (hless.trans hless')
  · exact .inl (hsame' ▸ hless)
  · exact .inl (hsame ▸ hless')
  · exact .inr ⟨hright', hsame'.trans hsame⟩

/-- What does not continue with its operands goes above an operator. -/
theorem Operator.le_of_stops {o p : Operator} (h : p.continues o.precedence = false) :
    p.precedence ≤ o.precedence ∧ (p.groupsRight = true → p.precedence < o.precedence) := by
  rw [← Bool.not_eq_true, continues_iff] at h
  push Not at h
  obtain ⟨hle, hright⟩ := h
  exact ⟨hle, fun hp => Nat.lt_of_le_of_ne hle (hright hp)⟩

/-- A node stands for a grouping of an operand and the operators behind it, all of which bind as
tightly as `above` asks. -/
structure Climbed (above : Nat) (x : Leaf) (ops : Tail) (n : Node) (g : Grouping) : Prop
    extends g.Arranges x ops where
  shape : n.shape = g.shape
  continues : ∀ q ∈ g.operators, q.continues above = true

section
variable {o p : Operator} {y : Leaf} {ops later : Tail} {n left right : Node} {g g' : Grouping}

theorem Climbed.leaf (h : n.shape = x.shape) : Climbed above x [] n (.leaf x) :=
  ⟨⟨rfl, rfl, trivial⟩, h, nofun⟩

/-- An operator between two groupings, the right one of what it goes on with. -/
theorem Climbed.node (hleft : Climbed above x ops left g) (hfits : g.FitsLeft o)
    (ho : o.continues above = true) (hright : Climbed o.precedence y later right g')
    (hn : n.shape = .node .binary none none [left.shape, right.shape]) :
    Climbed above x (ops ++ (o, y) :: later) n (.node g o g') where
  shape := by rw [hn, hleft.shape, hright.shape, Grouping.shape]
  leaves := by
    rw [Grouping.leaves, hleft.leaves, hright.leaves, List.map_append, List.map_cons,
      List.cons_append]
  operators := by
    rw [Grouping.operators, hleft.operators, hright.operators, List.map_append, List.map_cons]
  wellGrouped := ⟨hfits, fun q hq => Operator.fits_of_continues (hright.continues q hq),
    hleft.wellGrouped, hright.wellGrouped⟩
  continues q hq := by
    rcases List.mem_append.mp hq with hq | hq
    · exact hleft.continues q hq
    · rcases List.mem_cons.mp hq with rfl | hq
      · exact ho
      · exact Operator.continues_trans ho (hright.continues q hq)

/-- The operator at which the right side has stopped goes above the whole. -/
theorem Climbed.fitsLeft (hfits : g.FitsLeft o) (hright : Climbed o.precedence y later right g')
    (hp : p.continues o.precedence = false) : (Grouping.node g o g').FitsLeft p := by
  obtain ⟨hle, hless⟩ := Operator.le_of_stops hp
  have hbeyond {q : Operator} (hq : o.precedence ≤ q.precedence) :
      p.precedence ≤ q.precedence ∧ (p.groupsRight = true → p.precedence < q.precedence) :=
    ⟨hle.trans hq, fun h => (hless h).trans_le hq⟩
  intro q hq
  rcases List.mem_append.mp hq with hq | hq
  · exact hbeyond (hfits q hq).1
  · rcases List.mem_cons.mp hq with rfl | hq
    · exact hbeyond (Nat.le_refl _)
    · exact hbeyond (Operator.fits_of_continues (hright.continues q hq)).1

end

/-- The operators up to some point are grouped, and the next one is as `next` says. -/
def Grouped (next : Grouping → Operator → Prop) (above : Nat) (x : Leaf) (ops : Tail)
    (qs : List Piece) (n : Node) (ps : List Piece) : Prop :=
  ∃ front back g, ops = front ++ back ∧ ps = tailPieces back ++ punct ";" :: qs ∧
    Climbed above x front n g ∧ ∀ op ∈ back.head?, next g op.1

abbrev Climbing := Grouped Grouping.FitsLeft

/-- At the end the next operator is one that the climb leaves. -/
abbrev Topped (above : Nat) := Grouped (fun _ o => o.continues above = false) above

section
variable {ops : Tail} {n : Node} {ps : List Piece}

theorem meets_binaryStep (hgo : ∀ above y ops, Meets (rule fuel (.binary above))
      (word y.text :: (tailPieces ops ++ punct ";" :: qs)) (Topped above y ops qs))
    (h : Climbing above x ops qs n ps) : Meets (binaryStep (rule fuel) above start n) ps fun r ps' =>
      if r.2 = true then Climbing above x ops qs r.1 ps' else Topped above x ops qs r.1 ps' := by
  obtain ⟨front, back, g, rfl, rfl, hclimbed, hfits⟩ := h
  refine meets_look fun s hs => ?_
  cases back with
  | nil =>
    dsimp only
    rw [Core.operator?_of_closes hs (Core.Ends.punct (by decide)).closes]
    exact meets_pure ⟨front, [], g, rfl, rfl, hclimbed, nofun⟩
  | cons op later =>
    obtain ⟨o, y⟩ := op
    have hpieces : tailPieces ((o, y) :: later) ++ punct ";" :: qs =
        o.piece :: word y.text :: (tailPieces later ++ punct ";" :: qs) := by
      rw [tailPieces_cons, List.cons_append, List.cons_append]
    rw [hpieces] at hs ⊢
    dsimp only
    rw [operator?_piece o hs, isCast_eq_false o hs]
    by_cases ho : o.continues above = true
    · rw [if_pos ho]
      refine Meets.read_bind (fun _ => reads_advance) fun _ _ => ?_
      refine (hgo o.precedence y later).bind fun right ps hright => ?_
      obtain ⟨front', back', g', rfl, rfl, hright, hstops⟩ := hright
      refine (Meets.of_reads fun _ => reads_build).bind fun n' ps hn' => ?_
      obtain ⟨rfl, hn'⟩ := hn'
      refine meets_pure ⟨front ++ (o, y) :: front', back', .node g o g', by simp, rfl, ?_, ?_⟩
      · exact hclimbed.node (hfits _ rfl) ho hright hn'
      · exact fun op hop => hright.fitsLeft (hfits _ rfl) (hstops op hop)
    · rw [if_neg ho]
      refine meets_pure ⟨front, (o, y) :: later, g, rfl, hpieces.symm, hclimbed, ?_⟩
      rintro _ ⟨⟩
      exact Bool.eq_false_iff.mpr ho

/-- From an operand on the operators that bind tightly enough are grouped as they bind. -/
theorem meets_binary (fuel above : Nat) (x : Leaf) (ops : Tail) (qs : List Piece) :
    Meets (rule fuel (.binary above)) (word x.text :: (tailPieces ops ++ punct ";" :: qs))
      (Topped above x ops qs) := by
  induction fuel generalizing above x ops with
  | zero => exact meets_stuck
  | succ fuel ih =>
    refine meets_nested (meets_here fun start => ?_)
    refine (meets_unary x (behind_tail ops qs)).bind fun n ps hn => ?_
    obtain ⟨rfl, hn⟩ := hn
    refine Meets.climb (I := Climbing above x ops qs) (fun n ps h => meets_binaryStep ih h) ?_
    exact ⟨[], ops, .leaf x, rfl, rfl, .leaf hn, fun _ _ => nofun⟩

end

/-- Above nothing the climb leaves no operator. -/
theorem Topped.arranges {ops : Tail} {n : Node} {ps : List Piece} (h : Topped 0 x ops qs n ps) :
    ps = punct ";" :: qs ∧ ∃ g : Grouping, g.Arranges x ops ∧ n.shape = g.shape := by
  obtain ⟨front, back, g, rfl, rfl, hclimbed, hstops⟩ := h
  cases back with
  | nil =>
    rw [List.append_nil]
    exact ⟨rfl, g, hclimbed.toArranges, hclimbed.shape⟩
  | cons op back =>
    have hpositive : ∀ p ∈ binaryTexts, precedence? p ≠ some 0 := by decide
    have hstop : op.1.continues 0 = false := hstops op rfl
    rw [Operator.continues, Bool.or_eq_false_iff, decide_eq_false_iff_not, Nat.not_lt,
      Nat.le_zero] at hstop
    have hzero := op.1.precedence?_text
    rw [hstop.1] at hzero
    exact absurd hzero (hpositive _ op.1.mem_binaryTexts)

end Operators

end Subscriptions
