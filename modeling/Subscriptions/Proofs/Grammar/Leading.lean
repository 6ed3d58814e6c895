import Subscriptions.Proofs.Grammar.Faultless
import Subscriptions.Proofs.Syntax.Shifting

namespace Subscriptions.Grammar

/-- The same state with a line feed and more trivia in front of the current token. -/
def State.broken (lead : String) (s : State) : State :=
  { s with rest := s.rest.modifyHead (Token.broken lead) }

/-- The parse comes to the same, whatever trivia is in front of the current token. -/
def Unled {α : Type} (p : Parse α) (s : State) : Prop :=
  ∀ lead depth, p depth (s.broken lead) = p depth s

/-- Something that stands around it ends with the token. -/
inductive Halts (t : Token) : Prop
  | closer (h : t.isPunctOf closers = true)
  | middle (h : t.kind = .templateMiddle)
  | tail (h : t.kind = .templateTail)

/-- An expression starts with the token, or it is read in place of one. -/
structure Leads (t : Token) : Prop where
  goesOn : ¬ Halts t
  semicolon : t.isPunct ";" = false
  isEnd : t.isEnd = false

theorem closers_of_not_halts {t : Token} (ht : ¬ Halts t) : t.isPunctOf closers = false :=
  Bool.eq_false_iff.mpr fun h => ht (.closer h)

theorem Leads.punct {t : Token} (ht : Leads t) : t.isPunctOf [")", "]", "\x7d", ";"] = false := by
  have hclosers := closers_of_not_halts ht.goesOn
  have hsemicolon := ht.semicolon
  rw [Token.isPunct, Bool.and_eq_false_imp] at hsemicolon
  rw [Token.isPunctOf, Bool.and_eq_false_imp] at hclosers ⊢
  intro hkind
  have hnot : t.text ∉ closers := by
    rw [← List.contains_iff_mem, hclosers hkind]
    exact Bool.false_ne_true
  have hne : t.text ≠ ";" := ne_of_beq_false (hsemicolon hkind)
  rw [← Bool.not_eq_true, List.contains_iff_mem]
  simp only [closers, List.mem_cons, not_or] at hnot ⊢
  exact ⟨hnot.1, hnot.2.1, hnot.2.2.1, hne, List.not_mem_nil⟩

section
variable (lead : String) (s : State)

@[simp] theorem State.kind_broken : (s.broken lead).current.kind = s.current.kind := by
  obtain ⟨rest, last, readTo, arena, faults⟩ := s
  cases rest <;> rfl

@[simp] theorem State.text_broken : (s.broken lead).current.text = s.current.text := by
  obtain ⟨rest, last, readTo, arena, faults⟩ := s
  cases rest <;> rfl

@[simp] theorem State.span_broken : (s.broken lead).current.span = s.current.span := by
  obtain ⟨rest, last, readTo, arena, faults⟩ := s
  cases rest <;> rfl

@[simp] theorem State.isAt_broken (p : String) : (s.broken lead).isAt p = s.isAt p := by
  simp [isAt, Token.isPunct]

@[simp] theorem State.isAtWord_broken (w : String) :
    (s.broken lead).isAtWord w = s.isAtWord w := by simp [isAtWord, Token.isTheWord]

@[simp] theorem State.isWord_broken : (s.broken lead).current.isWord = s.current.isWord := by
  simp [Token.isWord]

@[simp] theorem State.isPunctOf_broken (ps : List String) :
    (s.broken lead).current.isPunctOf ps = s.current.isPunctOf ps := by simp [Token.isPunctOf]

@[simp] theorem State.ahead_broken (n : Nat) :
    (s.broken lead).ahead (n + 1) = s.ahead (n + 1) := by
  obtain ⟨rest, last, readTo, arena, faults⟩ := s
  cases rest <;> rfl

@[simp] theorem State.tail_broken : (s.broken lead).rest.tail = s.rest.tail := by
  obtain ⟨rest, last, readTo, arena, faults⟩ := s
  cases rest <;> rfl

@[simp] theorem State.length_broken : (s.broken lead).rest.length = s.rest.length :=
  List.length_modifyHead

theorem balanced_broken (t : Token) (ts : List Token) (depth : Nat) :
    (balanced depth (t.broken lead :: ts)).2 = (balanced depth (t :: ts)).2 := by
  change (if t.isPunctOf openers then _ else if t.isPunctOf closers then _ else _ : Split).2 =
    (if t.isPunctOf openers then _ else if t.isPunctOf closers then _ else _ : Split).2
  split_ifs <;> rfl

@[simp] theorem opensArrow_broken : opensArrow (s.broken lead).rest = opensArrow s.rest := by
  obtain ⟨rest, last, readTo, arena, faults⟩ := s
  cases rest with
  | nil => rfl
  | cons t ts =>
    change opensArrow (t.broken lead :: ts) = opensArrow (t :: ts)
    rw [opensArrow, opensArrow, balanced_broken]

theorem isUnaryOperator_broken : isUnaryOperator (s.broken lead) = isUnaryOperator s := by
  simp [isUnaryOperator, isWordOperator]

theorem wordForm_broken : wordForm (s.broken lead) = wordForm s := by
  simp [wordForm, State.aheadIs]

theorem statementForm_broken : statementForm (s.broken lead) = statementForm s := by
  simp [statementForm, punctForm, wordStatementForm]

end

variable {α β : Type} {go : Recur} {start : Nat} {s : State} {t : Token} {ts : List Token}

theorem Unled.bind {p : Parse α} {f : α → Parse β} (h : Unled p s) : Unled (p >>= f) s := by
  intro lead depth
  rw [Parse.bind_run, Parse.bind_run, h lead depth]

theorem unled_here {f : Nat → Parse β} (h : ∀ start, Unled (f start) s) :
    Unled (here >>= f) s := by
  intro lead depth
  change f (s.broken lead).current.span.start depth (s.broken lead) = _
  rw [State.span_broken, h]
  rfl

theorem unled_look {f : State → Parse β} (hf : ∀ lead, f (s.broken lead) = f s)
    (h : Unled (f s) s) : Unled (look >>= f) s := by
  intro lead depth
  change f (s.broken lead) depth (s.broken lead) = f s depth s
  rw [hf, h]

theorem unled_ite {c : Prop} [Decidable c] {p q : Parse α} (hp : c → Unled p s)
    (hq : ¬ c → Unled q s) : Unled (if c then p else q) s := by
  split
  · rename_i h
    exact hp h
  · rename_i h
    exact hq h

/-- Behind the token nothing of what is in front of it is left. -/
theorem unled_advance (hs : s.rest = t :: ts) : Unled advance s := by
  obtain ⟨rest, last, readTo, arena, faults⟩ := s
  subst hs
  exact fun lead depth => rfl

theorem unled_skip {cut : List Token → Split} {split : Split} {p : Parse β} (hs : s.rest = t :: ts)
    (hcut : ∀ lead, cut (t.broken lead :: ts) = take (t.broken lead) split)
    (hcut' : cut (t :: ts) = take t split) : Unled (skip cut >>= fun _ => p) s := by
  obtain ⟨rest, last, readTo, arena, faults⟩ := s
  subst hs
  intro lead depth
  have hlast : (t.broken lead :: split.1).getLast?.map (·.span.stop) =
      (t :: split.1).getLast?.map (·.span.stop) := by
    cases split.1 <;> rfl
  simp only [skip, Parse.bind_run, Option.bind_some, State.broken, List.modifyHead_cons, hcut, hcut',
    take, State.read, hlast]

theorem unled_takeName (hs : s.rest = t :: ts) : Unled takeName s := by
  obtain ⟨rest, last, readTo, arena, faults⟩ := s
  subst hs
  exact fun lead depth => rfl

theorem unled_accept {p : String} (hs : s.rest = t :: ts) (hp : s.isAt p = true) :
    Unled (accept p) s := by
  refine unled_look (fun lead => by simp) ?_
  rw [if_pos hp]
  exact (unled_advance hs).bind

theorem unled_expect {p : String} (hs : s.rest = t :: ts) (hp : s.isAt p = true) :
    Unled (expect p) s := (unled_accept hs hp).bind

theorem unled_skipAngles (hs : s.rest = t :: ts) (hat : s.isAt "<" = true) :
    Unled skipAngles s := by
  have ht : t.isPunct "<" = true := by rwa [State.isAt, State.current, hs] at hat
  refine unled_look (fun lead => by simp) ?_
  rw [if_pos hat]
  exact unled_skip hs (fun lead => angles_open ts ht) (angles_open ts ht)

/-- Where nothing ends that is around it, the token is skipped. -/
theorem enclosed_take (ht : ¬ Halts t) (ts : List Token) : enclosed 0 (t :: ts) =
    take t (enclosed (if t.isPunctOf openers || t.kind == .templateHead then 1 else 0) ts) := by
  have hkind : t.kind ≠ .templateTail ∧ t.kind ≠ .templateMiddle := by
    exact ⟨fun h => ht (.tail h), fun h => ht (.middle h)⟩
  simp only [enclosed, closers_of_not_halts ht, beq_eq_false_iff_ne.mpr hkind.1, beq_eq_false_iff_ne.mpr hkind.2,
    Bool.false_and, Bool.or_self, Bool.false_eq_true, if_false]
  split <;> rfl

theorem halts_broken_iff {lead : String} : Halts (t.broken lead) ↔ Halts t := by
  constructor <;> exact fun
    | .closer h => .closer h
    | .middle h => .middle h
    | .tail h => .tail h

theorem unled_skipTooDeep (hs : s.rest = t :: ts) (ht : ¬ Halts t) : Unled skipTooDeep s := by
  obtain ⟨rest, last, readTo, arena, faults⟩ := s
  subst hs
  let reported : State := ⟨t :: ts, last, readTo, arena, .tooDeep maxNesting t.span :: faults⟩
  have hread : Unled (skip (enclosed 0) >>= fun _ => build .unknown t.span.start []) reported :=
    unled_skip rfl (fun lead => enclosed_take (mt halts_broken_iff.mp ht) ts) (enclosed_take ht ts)
  exact hread

theorem unled_nested {p : Parse Node} (hs : s.rest = t :: ts) (ht : ¬ Halts t) (h : Unled p s) :
    Unled (nested p) s := by
  intro lead depth
  rw [nested]
  split
  · exact unled_skipTooDeep hs ht lead depth
  · exact h lead (depth + 1)

theorem unled_parameters (hs : s.rest = t :: ts) (hat : s.isAt "(" = true) :
    Unled (parameters go) s := (unled_accept hs hat).bind

/-- An arrow function starts with its parameter or its parenthesis. -/
theorem unled_arrow (hs : s.rest = t :: ts) (h : s.current.isWord = true ∨ s.isAt "(" = true) :
    Unled (arrow go start) s := by
  refine unled_look (fun lead => by simp) (unled_ite (fun _ => ?_) fun hword => ?_)
  · exact unled_here fun start => (unled_takeName hs).bind
  · exact (unled_parameters hs (h.resolve_left hword)).bind

theorem unled_arrayLiteral (hs : s.rest = t :: ts) (hat : s.isAt "[" = true) :
    Unled (arrayLiteral go) s := unled_here fun _ => (unled_expect hs hat).bind

theorem unled_objectLiteral (hs : s.rest = t :: ts) (hat : s.isAt "\x7b" = true) :
    Unled (objectLiteral go) s := unled_here fun _ => (unled_expect hs hat).bind

theorem unled_wordPrimary (hs : s.rest = t :: ts) (hword : s.current.isWord = true) :
    Unled (wordPrimary go) s := by
  refine unled_here fun start => unled_look (fun lead => by rw [wordForm_broken]) ?_
  split
  · exact unled_here fun _ => (unled_advance hs).bind
  · exact (unled_advance hs).bind
  · exact unled_here fun _ => (unled_advance hs).bind
  · exact (unled_advance hs).bind
  · exact (unled_advance hs).bind
  · exact (unled_advance hs).bind
  · exact (unled_advance hs).bind
  · exact unled_arrow hs (.inl hword)
  · exact (unled_takeName hs).bind

theorem unled_punctPrimary (hs : s.rest = t :: ts) (ht : Leads t) :
    Unled (punctPrimary go start) s := by
  refine unled_look (fun lead => by simp) ?_
  refine unled_ite (fun hat => ?_) fun _ => ?_
  · exact unled_ite (fun _ => unled_arrow hs (.inr hat)) fun _ => (unled_advance hs).bind
  refine unled_ite (fun hat => unled_arrayLiteral hs hat) fun _ => ?_
  refine unled_ite (fun hat => unled_objectLiteral hs hat) fun _ => ?_
  refine unled_ite (fun hat => (unled_skipAngles hs hat).bind) fun _ => ?_
  have hcurrent : s.current = t := by rw [State.current, hs, List.headD_cons]
  rw [hcurrent, ht.punct, if_neg Bool.false_ne_true]
  obtain ⟨rest, last, readTo, arena, faults⟩ := s
  subst hs
  exact fun lead depth => rfl

theorem unled_primary (hs : s.rest = t :: ts) (ht : Leads t) : Unled (primary go) s := by
  have hcurrent : s.current = t := by rw [State.current, hs, List.headD_cons]
  refine unled_here fun start => unled_look (fun lead => by rw [State.kind_broken]) ?_
  rw [hcurrent]
  cases hkind : t.kind with
  | word =>
    exact unled_wordPrimary hs (by rw [Token.isWord, hcurrent, hkind]; rfl)
  | number | string | regex | template => exact (unled_advance hs).bind
  | templateHead => exact unled_here fun _ => (unled_advance hs).bind
  | punct => exact unled_punctPrimary hs ht
  | templateMiddle => exact absurd (.middle hkind) ht.goesOn
  | templateTail => exact absurd (.tail hkind) ht.goesOn
  | endOfFile => exact absurd hkind (ne_of_beq_false ht.isEnd)

/-- The rules inside a rule, at the token at which it starts. -/
def UnledRules (go : Recur) (s : State) : Prop := ∀ r, Unled (go r) s

theorem unled_construction (hs : s.rest = t :: ts) : Unled (construction go) s :=
  unled_here fun _ => (unled_advance hs).bind

theorem unled_access (hgo : UnledRules go s) (hs : s.rest = t :: ts) (ht : Leads t) :
    Unled (access go) s := by
  refine unled_here fun start => unled_look (fun lead => by simp) (unled_ite (fun _ => ?_) fun _ => ?_)
  · exact (hgo .construction).bind
  · exact (unled_primary hs ht).bind

theorem unled_unary (hgo : UnledRules go s) (hs : s.rest = t :: ts) : Unled (unary go) s := by
  refine unled_here fun start => unled_look (fun lead => by rw [isUnaryOperator_broken]) ?_
  exact unled_ite (fun _ => (unled_advance hs).bind) fun _ => (hgo .access).bind

theorem unled_binary (hgo : UnledRules go s) (above : Nat) : Unled (binary go above) s :=
  unled_here fun _ => (hgo .unary).bind

theorem unled_conditional (hgo : UnledRules go s) : Unled (conditional go) s :=
  unled_here fun _ => (hgo (.binary 0)).bind

theorem unled_assignment (hgo : UnledRules go s) (hs : s.rest = t :: ts) :
    Unled (assignment go) s := by
  refine unled_here fun start => unled_look (fun lead => by simp) (unled_ite (fun _ => ?_) fun _ => ?_)
  · exact (unled_advance hs).bind
  · exact (unled_conditional hgo).bind

theorem unled_expression (hgo : UnledRules go s) : Unled (expression go) s :=
  unled_here fun _ => (hgo .assignment).bind

theorem unled_block (hs : s.rest = t :: ts) (hat : s.isAt "\x7b" = true) : Unled (block go) s :=
  unled_here fun _ => (unled_expect hs hat).bind

theorem unled_gather {turn : Parse (List Node × Bool)} (h : Unled turn s) :
    Unled (gather turn) s := unled_look (fun lead => by rw [State.length_broken]) h.bind

theorem unled_decoratedStatement (hs : s.rest = t :: ts) (hat : s.isAt "@" = true) :
    Unled (decoratedStatement go) s := by
  have hturn : Unled (decorators go) s := by
    refine unled_gather (unled_look (fun lead => by simp) ?_)
    rw [if_pos hat]
    exact unled_here fun _ => (unled_advance hs).bind
  exact unled_here fun _ => hturn.bind

/-- Of the keyword of a clause only the text counts. -/
theorem moduleClause_broken (lead : String) (s : State) :
    moduleClause (s.broken lead).current = moduleClause s.current := by
  have hcut (t : Token) : clauseTokens 0 true (t.broken lead) = clauseTokens 0 true t := by
    funext ts
    cases ts <;> rfl
  obtain ⟨rest, last, readTo, arena, faults⟩ := s
  cases rest with
  | nil => rfl
  | cons t ts =>
    change moduleClause (t.broken lead) = moduleClause t
    rw [moduleClause, moduleClause, hcut]

theorem unled_importClause (hs : s.rest = t :: ts) : Unled importClause s :=
  unled_here fun _ => unled_look (fun lead => by simp only [moduleClause_broken])
    (unled_advance hs).bind

theorem unled_exportClause (hs : s.rest = t :: ts) : Unled (exportClause go) s :=
  unled_here fun _ => unled_look (fun lead => by simp only [moduleClause_broken])
    (unled_advance hs).bind

theorem unled_statement (hexpression : statementForm s = .expression → Unled (expression go) s)
    (hs : s.rest = t :: ts) : Unled (statement go) s := by
  refine unled_here fun start => unled_look (fun lead => by rw [statementForm_broken]) ?_
  cases hform : statementForm s with
  | expression => exact (hexpression hform).bind
  | block => exact unled_block hs (isAt_of_form_block hform)
  | decorated => exact unled_decoratedStatement hs (isAt_of_form_decorated hform)
  | importClause => exact unled_importClause hs
  | exportClause => exact unled_exportClause hs
  | «variables» => exact (unled_here fun _ => (unled_advance hs).bind).bind
  | enumeration | interface | typeAlias | jump | function | classDeclaration | returning | branch
  | forLoop | whileLoop | doLoop | switch | trying | throwing =>
    exact unled_here fun _ => (unled_advance hs).bind
  | empty | constEnum | asyncFunction | abstractClass | declared | labelled | namespaceBody =>
    exact (unled_advance hs).bind

/-- What a rule reads does not depend on the trivia in front of it. -/
theorem unled_rule (fuel : Nat) (hs : s.rest = t :: ts) (ht : Leads t) :
    UnledRules (rule fuel) s := by
  induction fuel with
  | zero => exact fun _ _ _ => rfl
  | succ fuel ih =>
    intro r
    cases r with
    | statement => exact unled_nested hs ht.goesOn (unled_statement (fun _ => unled_expression ih) hs)
    | assignment => exact unled_nested hs ht.goesOn (unled_assignment ih hs)
    | binary above => exact unled_nested hs ht.goesOn (unled_binary ih above)
    | unary => exact unled_nested hs ht.goesOn (unled_unary ih hs)
    | construction => exact unled_nested hs ht.goesOn (unled_construction hs)
    | access => exact unled_access ih hs ht

end Subscriptions.Grammar
