import Subscriptions.Proofs.Lockstep.Steps

namespace Subscriptions.Grammar

variable {M : Pairing} {go : Recur} {ns ms : List Node} {s t : State}

theorem balanced_ne_nil {depth : Nat} {ts : List Token} (h : ts ≠ []) :
    (balanced depth ts).1 ≠ [] := by
  cases ts with
  | nil => exact absurd rfl h
  | cons t ts =>
    rw [balanced]
    split_ifs <;> exact List.cons_ne_nil _ _

def Pairing.NamingMember (M : Pairing) (ns ms : List Node) (a b : Option Name) (s t : State) :
    Prop := Option.Rel M.memberName a b ∧ M.Twin ns ms s t

theorem locked_computedName (h : M.Twin ns ms s t) (hs : s.isAt "[" = true) :
    Locked (do
      let start ← here
      let tokens ← skip (balanced 0)
      let stop := (← look).readTo
      return some ⟨textOfTokens tokens, ⟨start, max stop start⟩⟩) (do
      let start ← here
      let tokens ← skip (balanced 0)
      let stop := (← look).readTo
      return some ⟨textOfTokens tokens, ⟨start, max stop start⟩⟩) s t (M.NamingMember ns ms) := by
  intro depth _ _ s' t' hrun hrun'
  obtain ⟨k, hcut, hcut'⟩ := (Cuts.balanced 0).splitAt h.rest_plain
  have hpos : 0 < k := by
    rw [Nat.pos_iff_ne_zero]
    rintro rfl
    have hne : (balanced 0 s.rest).1 ≠ [] := balanced_ne_nil (h.rest_ne_nil (isEnd_of_isPunct hs))
    rw [hcut, List.splitAt_eq] at hne
    exact hne rfl
  have hname := M.memberName_computed h hs hpos
  have htwin := h.readBy k
  rw [State.readBy, State.readBy, ← hcut, ← hcut'] at htwin
  rw [State.computed, State.computed, State.readBy, State.readBy, ← hcut, ← hcut'] at hname
  cases hrun
  cases hrun'
  exact ⟨.some hname, htwin⟩

theorem locked_memberName (h : M.Twin ns ms s t) :
    Locked memberName memberName s t (M.NamingMember ns ms) := by
  refine locked_look (locked_ite (by simp only [h.isWord, h.kind]) (fun _ => ?_) fun _ => ?_)
  · exact (locked_advance h).bind fun _ _ _ _ h₁ =>
      locked_pure ⟨.some (M.memberName_unquoted h.current), h₁⟩
  refine locked_ite (h.isAt "[") (fun hs => locked_computedName h hs) fun _ => ?_
  exact (locked_report _ (by decide) h).bind fun _ _ _ _ h₁ => locked_pure ⟨.none, h₁⟩

theorem locked_decorators (hgo : Paired M go) (h : M.Twin ns ms s t) :
    Locked (decorators go) (decorators go) s t (M.Many ns ms) := by
  refine locked_gather (fun ns ms s t h => ?_) h
  refine locked_look (locked_ite (h.isAt "@") (fun _ => ?_) fun _ => locked_stop h)
  refine locked_here ((locked_advance h).bind fun _ _ s₁ t₁ h₁ => ?_)
  refine (hgo.enter .access h₁).bind fun n m s₂ t₂ h₂ => ?_
  refine (locked_build h₂ h.length rfl rfl (by decide) h.place).bind fun n m s₃ t₃ h₃ => ?_
  exact locked_turn h₃

theorem locked_initializer (hgo : Paired M go) (h : M.Twin ns ms s t) :
    Locked (initializer go) (initializer go) s t (M.Many ns ms) := by
  refine locked_ifAccept h (fun s₁ t₁ h₁ => ?_) fun _ _ h₁ => locked_pure h₁.nil
  exact (hgo.enter .assignment h₁).bind fun n m s₂ t₂ h₂ => locked_pure h₂

theorem locked_parameterName (h : M.Twin ns ms s t) :
    Locked parameterName parameterName s t fun a b s' t' =>
      Option.Rel M.name a b ∧ M.Twin ns ms s' t' := by
  refine locked_look (locked_ite h.isWord (fun _ => locked_someName h) fun _ => ?_)
  refine locked_ite (by simp only [h.isAt]) (fun _ => ?_) fun _ => ?_
  · exact (locked_skipBalanced h).bind fun _ _ _ _ h₁ => locked_pure ⟨.none, h₁⟩
  refine (locked_report _ (by decide) h).bind fun _ _ s₁ t₁ h₁ => ?_
  refine locked_ite (by simp only [h.isAt]) (fun _ => ?_) fun _ => locked_pure ⟨.none, h₁⟩
  exact (locked_advance h₁).bind fun _ _ _ _ h₂ => locked_pure ⟨.none, h₂⟩

theorem locked_parameter (hgo : Paired M go) (h : M.Twin ns ms s t) :
    Locked (parameter go) (parameter go) s t (M.One ns ms) := by
  refine locked_here ((locked_decorators hgo h).bind fun ds ds' s₁ t₁ h₁ => locked_look ?_)
  have hcount : fieldModifierCount t₁.rest = fieldModifierCount s₁.rest :=
    h₁.view (f := fun s => fieldModifierCount s.rest) fun s => by simp
  dsimp only
  rw [hcount]
  refine (locked_advanceBy rfl h₁).bind fun _ _ s₂ t₂ h₂ => ?_
  refine (locked_optional "..." h₂).bind fun _ _ s₃ t₃ h₃ => ?_
  refine (locked_parameterName h₃).bind fun a b s₄ t₄ h₄ => ?_
  refine (locked_optional "?" h₄.2).bind fun _ _ s₅ t₅ h₅ => ?_
  refine (locked_annotated _ h₅).bind fun _ _ s₆ t₆ h₆ => ?_
  refine (locked_initializer hgo h₆.2).bind fun vs vs' s₇ t₇ h₇ => ?_
  cases fieldModifierCount s₁.rest == 0 <;>
    exact locked_buildNamed h₇ h.length (by simp) (by simp) (by decide) h.place
      (named_of_rel (by decide) h₄.1) h₆.1

/-- Parameters in parentheses. -/
theorem locked_parameters (hgo : Paired M go) (h : M.Twin ns ms s t) :
    Locked (parameters go) (parameters go) s t (M.Many ns ms) := by
  refine locked_ifAccept h (fun s₁ t₁ h₁ => ?_) fun s₁ t₁ h₁ => ?_
  · refine (locked_gather (fun ns ms s t h => ?_) h₁).bind fun xs ys s₂ t₂ h₂ => ?_
    · exact locked_look (locked_ite (by simp only [h.isAt, h.atEnd]) (fun _ => locked_stop h)
        fun _ => locked_item (locked_parameter hgo h))
    · exact (locked_expect ")" (by decide) h₂).bind fun _ _ s₃ t₃ h₃ => locked_pure h₃
  · exact (locked_report _ (by decide) h₁).bind fun _ _ s₂ t₂ h₂ => locked_pure h₂.nil

/-- A statement, or a token that starts none, which is reported and passed over. -/
theorem locked_statementTurn (hgo : Paired M go) (h : M.Twin ns ms s t) :
    Locked (do
      let (node, progress) ← moved (go .statement)
      if !progress then
        report .statement
        advance
      return ([node], true)) (do
      let (node, progress) ← moved (go .statement)
      if !progress then
        report .statement
        advance
      return ([node], true)) s t (M.Turned ns ms) := by
  refine (locked_moved h (hgo.enter .statement h)).bind fun r r' s₁ t₁ h₁ => ?_
  refine locked_ite (congrArg _ h₁.1) (fun _ => ?_) fun _ => locked_turn h₁.2
  refine (locked_report _ (by decide) h₁.2).bind fun _ _ s₂ t₂ h₂ => ?_
  exact (locked_advance h₂).bind fun _ _ s₃ t₃ h₃ => locked_turn h₃

theorem locked_statementsToBrace (hgo : Paired M go) (h : M.Twin ns ms s t) :
    Locked (statementsToBrace go) (statementsToBrace go) s t (M.Many ns ms) := by
  refine locked_gather (fun ns ms s t h => ?_) h
  exact locked_look (locked_ite (by simp only [h.isAt, h.atEnd]) (fun _ => locked_stop h)
    fun _ => locked_statementTurn hgo h)

theorem locked_block (hgo : Paired M go) (h : M.Twin ns ms s t) :
    Locked (block go) (block go) s t (M.One ns ms) := by
  refine locked_here ((locked_expect "\x7b" (by decide) h).bind fun _ _ s₁ t₁ h₁ => ?_)
  refine (locked_statementsToBrace hgo h₁).bind fun xs ys s₂ t₂ h₂ => ?_
  refine (locked_expect "\x7d" (by decide) h₂).bind fun _ _ s₃ t₃ h₃ => ?_
  exact locked_build h₃ h.length rfl rfl (by decide) h.place

theorem locked_bodyOrSemicolon (hgo : Paired M go) (h : M.Twin ns ms s t) :
    Locked (bodyOrSemicolon go) (bodyOrSemicolon go) s t (M.Many ns ms) := by
  refine locked_look (locked_ite (h.isAt "\x7b") (fun _ => ?_) fun _ => ?_)
  · exact (locked_block hgo h).bind fun _ _ s₁ t₁ h₁ => locked_pure h₁
  · exact (locked_optional ";" h).bind fun _ _ s₁ t₁ h₁ => locked_pure h₁.nil

/-- Parameters, a return type and a body that may be missing. -/
theorem locked_signature (hgo : Paired M go) (h : M.Twin ns ms s t) {stops : List String}
    {f g : List Node → Option String → List Node → Parse Node}
    (hf : ∀ ps ps' d d' bs bs' s' t', M.declared d d' →
      M.Twin (ns ++ (ps ++ bs)) (ms ++ (ps' ++ bs')) s' t' →
        Locked (f ps d bs) (g ps' d' bs') s' t' (M.One ns ms)) :
    Locked (do
      let params ← parameters go
      let returned ← annotation stops
      let body ← bodyOrSemicolon go
      f params returned body) (do
      let params ← parameters go
      let returned ← annotation stops
      let body ← bodyOrSemicolon go
      g params returned body) s t (M.One ns ms) := by
  refine (locked_parameters hgo h).bind fun ps ps' s₁ t₁ h₁ => ?_
  refine (locked_annotated _ h₁).bind fun d d' s₂ t₂ h₂ => ?_
  exact (locked_bodyOrSemicolon hgo h₂.2).bind fun bs bs' s₃ t₃ h₃ =>
    hf _ _ _ _ _ _ s₃ t₃ h₂.1 h₃.join

theorem locked_function (hgo : Paired M go) {kind : Kind} (hkind : kind ≠ .propertyAccess)
    (hmember : kind.hasMemberName = false) (h : M.Twin ns ms s t) :
    Locked (function go kind) (function go kind) s t (M.One ns ms) := by
  refine locked_here ((locked_advance h).bind fun _ _ s₁ t₁ h₁ => ?_)
  refine (locked_optional "*" h₁).bind fun _ _ s₂ t₂ h₂ => ?_
  refine (locked_takeNameIfWord hmember h₂).bind fun a b s₃ t₃ h₃ => ?_
  refine (locked_skipAngles h₃.2).bind fun _ _ s₄ t₄ h₄ => ?_
  refine locked_signature hgo h₄ fun _ _ _ _ _ _ s₅ t₅ hdeclared h₅ => ?_
  exact locked_buildNamed h₅ h.length rfl rfl hkind h.place h₃.1 hdeclared

/-- The kind of a member that has parameters. -/
theorem locked_accessorKind (h : M.Twin ns ms s t) :
    Locked accessorKind accessorKind s t fun k k' s' t' =>
      k.hasMemberName = true ∧ M.Same ns ms k k' s' t' := by
  refine locked_look (locked_ite (by simp only [h.isAtWord, h.startsMemberName_ahead])
    (fun _ => ?_) fun _ => locked_pure ⟨rfl, rfl, h⟩)
  refine (locked_advance h).bind fun _ _ s₁ t₁ h₁ => ?_
  refine locked_pure ⟨?_, ?_, h₁⟩
  · split_ifs <;> rfl
  · rw [h.isAtWord]

theorem locked_constructorMember (hgo : Paired M go) {start start' : Nat}
    (hstart : M.place start start') (h : M.Twin ns ms s t) :
    Locked (constructorMember go start) (constructorMember go start') s t (M.One ns ms) := by
  refine (locked_advance h).bind fun _ _ s₁ t₁ h₁ => ?_
  refine (locked_parameters hgo h₁).bind fun ps ps' s₂ t₂ h₂ => ?_
  refine (locked_bodyOrSemicolon hgo h₂).bind fun bs bs' s₃ t₃ h₃ => ?_
  exact locked_build h₃ h.length (by simp) (by simp) (by decide) hstart

theorem locked_methodMember (hgo : Paired M go) {kind : Kind} (hkind : kind.hasMemberName = true)
    {start start' : Nat} {name name' : Option Name} (hstart : M.place start start')
    (hname : Option.Rel M.memberName name name') (h : M.Twin ns ms s t) :
    Locked (methodMember go kind start name) (methodMember go kind start' name') s t
      (M.One ns ms) := by
  refine (locked_skipAngles h).bind fun _ _ s₁ t₁ h₁ => ?_
  refine locked_signature hgo h₁ fun _ _ _ _ _ _ s₂ t₂ hdeclared h₂ => ?_
  exact locked_buildNamed h₂ h.length rfl rfl (ne_propertyAccess_of_hasMemberName hkind) hstart
    (named_member hkind hname) hdeclared

theorem locked_propertyMember (hgo : Paired M go) {start start' : Nat} {name name' : Option Name}
    (hstart : M.place start start') (hname : Option.Rel M.memberName name name')
    (h : M.Twin ns ms s t) :
    Locked (propertyMember go start name) (propertyMember go start' name') s t (M.One ns ms) := by
  refine (locked_annotated _ h).bind fun _ _ s₁ t₁ h₁ => ?_
  refine (locked_initializer hgo h₁.2).bind fun vs vs' s₂ t₂ h₂ => ?_
  refine (locked_optional ";" h₂).bind fun _ _ s₃ t₃ h₃ => ?_
  exact locked_buildNamed h₃ h.length rfl rfl (by decide) hstart (named_member rfl hname) h₁.1

theorem locked_undecoratedMember (hgo : Paired M go) (h : M.Twin ns ms s t) :
    Locked (undecoratedMember go) (undecoratedMember go) s t (M.One ns ms) := by
  refine locked_here (locked_look (locked_ite (by simp only [h.isAtWord, h.aheadIs]) (fun _ => ?_)
    fun _ => ?_))
  · exact (locked_advance h).bind fun _ _ s₁ t₁ h₁ => locked_block hgo h₁
  have hcount : memberModifierCount t.rest = memberModifierCount s.rest :=
    h.view (f := fun s => memberModifierCount s.rest) fun s => by simp
  refine (locked_advanceBy hcount h).bind fun _ _ s₁ t₁ h₁ => ?_
  refine (locked_accessorKind h₁).bind fun kind _ s₂ t₂ h₂ => ?_
  obtain ⟨hkind, rfl, h₂⟩ := h₂
  refine (locked_optional "*" h₂).bind fun _ _ s₃ t₃ h₃ => locked_look ?_
  refine locked_ite (by simp only [h₃.isAtWord, h₃.aheadIs])
    (fun _ => locked_constructorMember hgo h.place h₃) fun _ => ?_
  refine (locked_memberName h₃).bind fun name name' s₄ t₄ h₄ => ?_
  refine (locked_optional "?" h₄.2).bind fun _ _ s₅ t₅ h₅ => ?_
  refine (locked_optional "!" h₅).bind fun _ _ s₆ t₆ h₆ => locked_look ?_
  exact locked_ite (by simp only [h₆.isAt]) (fun _ => locked_methodMember hgo hkind h.place h₄.1 h₆)
    fun _ => locked_propertyMember hgo h.place h₄.1 h₆

theorem locked_classMembers (hgo : Paired M go) (h : M.Twin ns ms s t) :
    Locked (classMembers go) (classMembers go) s t (M.Many ns ms) := by
  refine locked_gather (fun ns ms s t h => ?_) h
  refine locked_look (locked_ite (by simp only [h.isAt, h.atEnd]) (fun _ => locked_stop h)
    fun _ => ?_)
  refine locked_ite (h.isAt ";") (fun _ => ?_) fun _ => ?_
  · exact (locked_advance h).bind fun _ _ s₁ t₁ h₁ => locked_next h₁
  refine (locked_decorators hgo h).bind fun ds ds' s₁ t₁ h₁ => ?_
  refine (locked_undecoratedMember hgo h₁).bind fun n m s₂ t₂ h₂ => locked_look ?_
  refine locked_ite (by rw [h.rest_length, h₂.rest_length]) (fun _ => ?_)
    fun _ => locked_pure ⟨rfl, h₂.join⟩
  refine (locked_report _ (by decide) h₂).bind fun _ _ s₃ t₃ h₃ => ?_
  exact (locked_advance h₃).bind fun _ _ s₄ t₄ h₄ => locked_pure ⟨rfl, h₄.join⟩

theorem locked_heritage (hgo : Paired M go) (h : M.Twin ns ms s t) :
    Locked (heritage go) (heritage go) s t (M.Many ns ms) := by
  refine locked_ifAcceptWord h (fun s₁ t₁ h₁ => ?_) fun s₁ t₁ h₁ => locked_pure h₁.nil
  refine (hgo.enter .access h₁).bind fun n m s₂ t₂ h₂ => ?_
  exact (locked_skipAngles h₂).bind fun _ _ s₃ t₃ h₃ => locked_pure h₃

/-- The body of a class in its braces. -/
theorem locked_braces (hgo : Paired M go) {xs ys : List Node} {start start' : Nat}
    {name name' : Option Name} (hlength : ns.length = ms.length) (hstart : M.place start start')
    (hname : M.named .classDeclaration name name') (h : M.Twin (ns ++ xs) (ms ++ ys) s t) :
    Locked (do
      expect "\x7b"
      let members ← classMembers go
      expect "\x7d"
      buildNamed .classDeclaration start name none (xs ++ members)) (do
      expect "\x7b"
      let members ← classMembers go
      expect "\x7d"
      buildNamed .classDeclaration start' name' none (ys ++ members)) s t (M.One ns ms) := by
  refine (locked_expect "\x7b" (by decide) h).bind fun _ _ s₁ t₁ h₁ => ?_
  refine (locked_classMembers hgo h₁).bind fun _ _ s₂ t₂ h₂ => ?_
  refine (locked_expect "\x7d" (by decide) h₂).bind fun _ _ s₃ t₃ h₃ => ?_
  exact locked_buildNamed h₃ hlength (by simp) (by simp) (by decide) hstart hname M.declared_none

theorem locked_classBody (hgo : Paired M go) {ds ds' : List Node} (hlength : ns.length = ms.length)
    (h : M.Twin (ns ++ ds) (ms ++ ds') s t) :
    Locked (classBody go ds) (classBody go ds') s t (M.One ns ms) := by
  refine locked_here ((locked_advance h).bind fun _ _ s₁ t₁ h₁ => locked_look ?_)
  refine locked_join (P := M.Naming (ns ++ ds) (ms ++ ds') .classDeclaration)
    (by simp only [h₁.isAtWord]) ?_ fun a b s₂ t₂ h₂ => ?_
  · exact locked_ite (by simp only [h₁.isAtWord]) (fun _ => locked_pure ⟨named_none, h₁⟩)
      fun _ => locked_takeNameIfWord rfl h₁
  refine (locked_skipAngles h₂.2).bind fun _ _ s₃ t₃ h₃ => ?_
  refine (locked_heritage hgo h₃).bind fun bs bs' s₄ t₄ h₄ => ?_
  refine locked_ifAcceptWord h₄ (fun s₅ t₅ h₅ => ?_)
    fun _ _ h₅ => locked_braces hgo hlength h.place h₂.1 h₅.join
  exact (locked_typeUpTo _ h₅).bind fun _ _ s₆ t₆ h₆ =>
    locked_braces hgo hlength h.place h₂.1 h₆.2.join

end Subscriptions.Grammar
