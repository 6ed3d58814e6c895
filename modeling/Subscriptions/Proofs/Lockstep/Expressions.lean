import Subscriptions.Proofs.Lockstep.Members

namespace Subscriptions.Grammar

variable {M : Pairing} {go : Recur} {ns ms : List Node} {s t : State} {start start' : Nat}

theorem locked_missingExpression (hstart : M.place start start') (h : M.Twin ns ms s t) :
    Locked (missingExpression start) (missingExpression start') s t (M.One ns ms) :=
  (locked_report _ (by decide) h).bind fun _ _ _ _ h₁ =>
    locked_build h₁ h.length (by simp) (by simp) (by decide) hstart

theorem locked_expression (hgo : Paired M go) (h : M.Twin ns ms s t) :
    Locked (expression go) (expression go) s t (M.One ns ms) := by
  refine locked_here ((hgo.enter .assignment h).bind fun n m s₁ t₁ h₁ => locked_look ?_)
  refine locked_ite (h₁.isAt ",") (fun _ => ?_) fun _ => locked_pure h₁
  refine (locked_gather (fun ns ms s t h => ?_) h₁).bind fun xs ys s₂ t₂ h₂ => ?_
  · refine locked_ifAccept h (fun s₁ t₁ h₁ => ?_) fun _ _ h₁ => locked_stop h₁
    exact (hgo.enter .assignment h₁).bind fun _ _ s₂ t₂ h₂ => locked_turn h₂
  · exact locked_build h₂ h.length (by simp) (by simp) (by decide) h.place

theorem locked_spreadOrAssignment (hgo : Paired M go) (h : M.Twin ns ms s t) :
    Locked (spreadOrAssignment go) (spreadOrAssignment go) s t (M.One ns ms) := by
  refine locked_look (locked_ite (h.isAt "...") (fun _ => ?_) fun _ => hgo.enter .assignment h)
  refine locked_here ((locked_advance h).bind fun _ _ s₁ t₁ h₁ => ?_)
  exact (hgo.enter .assignment h₁).bind fun _ _ s₂ t₂ h₂ =>
    locked_build h₂ h.length rfl rfl (by decide) h.place

theorem locked_arguments (hgo : Paired M go) (h : M.Twin ns ms s t) :
    Locked (arguments go) (arguments go) s t (M.Many ns ms) := by
  refine (locked_expect "(" (by decide) h).bind fun _ _ s₁ t₁ h₁ => ?_
  refine (locked_gather (fun ns ms s t h => ?_) h₁).bind fun xs ys s₂ t₂ h₂ => ?_
  · exact locked_look (locked_ite (by simp only [h.isAt, h.atEnd]) (fun _ => locked_stop h)
      fun _ => locked_item (locked_spreadOrAssignment hgo h))
  · exact (locked_expect ")" (by decide) h₂).bind fun _ _ s₃ t₃ h₃ => locked_pure h₃

theorem locked_elementAccess (hgo : Paired M go) {n m : Node} (hlength : ns.length = ms.length)
    (hstart : M.place start start') (h : M.Twin (ns ++ [n]) (ms ++ [m]) s t) :
    Locked (elementAccess go start n) (elementAccess go start' m) s t (M.One ns ms) := by
  refine (locked_expect "[" (by decide) h).bind fun _ _ s₁ t₁ h₁ => ?_
  refine (locked_expression hgo h₁).bind fun _ _ s₂ t₂ h₂ => ?_
  refine (locked_expect "]" (by decide) h₂).bind fun _ _ s₃ t₃ h₃ => ?_
  exact locked_build h₃ hlength (by simp) (by simp) (by decide) hstart

theorem locked_arrow (hgo : Paired M go) (hstart : M.place start start') (h : M.Twin ns ms s t) :
    Locked (arrow go start) (arrow go start') s t (M.One ns ms) := by
  have hbody : ∀ ps ps' s' t', M.Twin (ns ++ ps) (ms ++ ps') s' t' → Locked (do
      let returned ← annotation ["=>"]
      expect "=>"
      let body ← if (← look).isAt "\x7b" then block go else go .assignment
      buildNamed .arrowFunction start none returned (ps ++ [body])) (do
      let returned ← annotation ["=>"]
      expect "=>"
      let body ← if (← look).isAt "\x7b" then block go else go .assignment
      buildNamed .arrowFunction start' none returned (ps' ++ [body])) s' t' (M.One ns ms) := by
    intro ps ps' s' t' h'
    refine (locked_annotated _ h').bind fun _ _ s₁ t₁ h₁ => ?_
    refine (locked_expect "=>" (by decide) h₁.2).bind fun _ _ s₂ t₂ h₂ => locked_look ?_
    refine locked_join (h₂.isAt "\x7b") (P := M.One (ns ++ ps) (ms ++ ps')) ?_
      fun _ _ s₃ t₃ h₃ => ?_
    · exact locked_ite (h₂.isAt "\x7b") (fun _ => locked_block hgo h₂)
        fun _ => hgo.enter .assignment h₂
    · exact locked_buildNamed h₃ h.length (by simp) (by simp) (by decide) hstart named_none h₁.1
  refine locked_look (locked_ite h.isWord (fun _ => locked_here ?_) fun _ => ?_)
  · refine (locked_takeName h).bind fun _ _ s₁ t₁ h₁ => ?_
    obtain ⟨rfl, rfl, h₁⟩ := h₁
    refine Locked.bind (locked_buildNamed h₁ h.length (by simp) (by simp) (by decide) h.place
      (named_word h rfl) M.declared_none) fun n m s₂ t₂ h₂ => hbody [n] [m] s₂ t₂ h₂
  · exact (locked_parameters hgo h).bind hbody

theorem locked_arrayLiteral (hgo : Paired M go) (h : M.Twin ns ms s t) :
    Locked (arrayLiteral go) (arrayLiteral go) s t (M.One ns ms) := by
  refine locked_here ((locked_expect "[" (by decide) h).bind fun _ _ s₁ t₁ h₁ => ?_)
  refine (locked_gather (fun ns ms s t h => ?_) h₁).bind fun xs ys s₂ t₂ h₂ => ?_
  · refine locked_look (locked_ite (by simp only [h.isAt, h.atEnd]) (fun _ => locked_stop h)
      fun _ => ?_)
    refine locked_ite (h.isAt ",") (fun _ => ?_)
      fun _ => locked_item (locked_spreadOrAssignment hgo h)
    exact (locked_advance h).bind fun _ _ s₁ t₁ h₁ => locked_next h₁
  · refine (locked_expect "]" (by decide) h₂).bind fun _ _ s₃ t₃ h₃ => ?_
    exact locked_build h₃ h.length rfl rfl (by decide) h.place

theorem locked_objectMemberKind (h : M.Twin ns ms s t) :
    Locked objectMemberKind objectMemberKind s t fun k k' s' t' =>
      k.hasMemberName = true ∧ M.Same ns ms k k' s' t' := by
  refine locked_look (locked_ite
    (by simp only [h.isWord, h.text, h.startsMemberName_ahead, h.isPunct_ahead])
    (fun _ => ?_) fun _ => locked_pure ⟨rfl, rfl, h⟩)
  refine (locked_advance h).bind fun _ _ s₁ t₁ h₁ => locked_pure ⟨?_, ?_, h₁⟩
  · split_ifs <;> rfl
  · rw [h.isAtWord]

theorem locked_objectMethod (hgo : Paired M go) {kind : Kind} (hkind : kind.hasMemberName = true)
    {name name' : Option Name} (hstart : M.place start start')
    (hname : Option.Rel M.memberName name name') (h : M.Twin ns ms s t) :
    Locked (objectMethod go kind start name) (objectMethod go kind start' name') s t
      (M.One ns ms) := by
  refine (locked_skipAngles h).bind fun _ _ s₁ t₁ h₁ => ?_
  refine (locked_parameters hgo h₁).bind fun _ _ s₂ t₂ h₂ => ?_
  refine (locked_annotated _ h₂).bind fun _ _ s₃ t₃ h₃ => ?_
  refine (locked_block hgo h₃.2).bind fun _ _ s₄ t₄ h₄ => ?_
  exact locked_buildNamed h₄ h.length (by simp) (by simp) (ne_propertyAccess_of_hasMemberName hkind)
    hstart (named_member hkind hname) h₃.1

theorem locked_shorthandMember (hgo : Paired M go) {name name' : Option Name}
    (hstart : M.place start start') (hname : Option.Rel M.memberName name name')
    (h : M.Twin ns ms s t) :
    Locked (shorthandMember go start name) (shorthandMember go start' name') s t (M.One ns ms) := by
  cases hname with
  | none =>
    refine locked_pureBind (Locked.bind (locked_initializer hgo h) fun xs ys s₁ t₁ h₁ => ?_)
    exact locked_build h₁ h.length rfl rfl (by decide) hstart
  | @some a b hab =>
    have halloc : Locked (fun _ s => some (shorthand s.built a, s.alloc (shorthand s.built a)))
        (fun _ s => some (shorthand s.built b, s.alloc (shorthand s.built b))) s t fun n m s' t' =>
          n = shorthand s.built a ∧ m = shorthand t.built b ∧ M.Twin ns ms s' t' := by
      intro depth _ _ s' t' hrun hrun'
      cases hrun
      cases hrun'
      exact ⟨rfl, rfl, h.alloc _ _⟩
    refine Locked.bind halloc fun _ _ s₁ t₁ h₁ => ?_
    obtain ⟨rfl, rfl, h₁⟩ := h₁
    refine locked_pureBind (Locked.bind (locked_initializer hgo h₁) fun xs ys s₂ t₂ h₂ => ?_)
    exact locked_buildShorthand h h₂ hstart hab

theorem locked_objectMember (hgo : Paired M go) (h : M.Twin ns ms s t) :
    Locked (objectMember go) (objectMember go) s t (M.One ns ms) := by
  refine locked_look (locked_ite (h.isAt "...") (fun _ => locked_spreadOrAssignment hgo h)
    fun _ => ?_)
  refine locked_here ((locked_objectMemberKind h).bind fun kind _ s₁ t₁ h₁ => ?_)
  obtain ⟨hkind, rfl, h₁⟩ := h₁
  refine (locked_optional "*" h₁).bind fun _ _ s₂ t₂ h₂ => ?_
  refine (locked_memberName h₂).bind fun name name' s₃ t₃ h₃ => locked_look ?_
  obtain ⟨hname, h₃⟩ := h₃
  refine locked_ite (by simp only [h₃.isAt])
    (fun _ => locked_objectMethod hgo hkind h.place hname h₃) fun _ => ?_
  refine locked_ite (h₃.isAt ":") (fun _ => ?_)
    fun _ => locked_shorthandMember hgo h.place hname h₃
  refine (locked_advance h₃).bind fun _ _ s₄ t₄ h₄ => ?_
  refine (hgo.enter .assignment h₄).bind fun _ _ s₅ t₅ h₅ => ?_
  exact locked_buildNamed h₅ h.length rfl rfl (by decide) h.place (named_member rfl hname)
    M.declared_none

theorem locked_objectLiteral (hgo : Paired M go) (h : M.Twin ns ms s t) :
    Locked (objectLiteral go) (objectLiteral go) s t (M.One ns ms) := by
  refine locked_here ((locked_expect "\x7b" (by decide) h).bind fun _ _ s₁ t₁ h₁ => ?_)
  refine (locked_gather (fun ns ms s t h => ?_) h₁).bind fun xs ys s₂ t₂ h₂ => ?_
  · exact locked_look (locked_ite (by simp only [h.isAt, h.atEnd]) (fun _ => locked_stop h)
      fun _ => locked_item (locked_objectMember hgo h))
  · refine (locked_expect "\x7d" (by decide) h₂).bind fun _ _ s₃ t₃ h₃ => ?_
    exact locked_build h₃ h.length rfl rfl (by decide) h.place

theorem locked_template (hgo : Paired M go) (h : M.Twin ns ms s t) :
    Locked (template go) (template go) s t (M.One ns ms) := by
  refine locked_here ((locked_advance h).bind fun _ _ s₁ t₁ h₁ => ?_)
  refine (locked_gather (fun ns ms s t h => ?_) h₁).bind fun xs ys s₂ t₂ h₂ =>
    locked_build h₂ h.length rfl rfl (by decide) h.place
  refine (locked_expression hgo h).bind fun _ _ s₁ t₁ h₁ => locked_look ?_
  rw [h₁.kind]
  split
  · exact (locked_advance h₁).bind fun _ _ s₂ t₂ h₂ => locked_turn h₂
  · exact (locked_advance h₁).bind fun _ _ s₂ t₂ h₂ => locked_turn h₂
  · exact (locked_report _ (by decide) h₁).bind fun _ _ s₂ t₂ h₂ => locked_turn h₂

theorem locked_wordPrimary (hgo : Paired M go) (h : M.Twin ns ms s t) :
    Locked (wordPrimary go) (wordPrimary go) s t (M.One ns ms) := by
  refine locked_here (locked_look ?_)
  rw [h.wordForm]
  cases wordForm s with
  | function => exact locked_function hgo (by decide) rfl h
  | asyncFunction =>
    exact (locked_advance h).bind fun _ _ s₁ t₁ h₁ => locked_function hgo (by decide) rfl h₁
  | classLiteral => exact locked_classBody hgo h.length h.nil
  | asyncArrow => exact (locked_advance h).bind fun _ _ s₁ t₁ h₁ => locked_arrow hgo h.place h₁
  | thisWord | superWord | literal =>
    exact (locked_advance h).bind fun _ _ s₁ t₁ h₁ =>
      locked_build h₁ h.length (by simp) (by simp) (by decide) h.place
  | arrow => exact locked_arrow hgo h.place h
  | identifier =>
    refine (locked_takeName h).bind fun _ _ s₁ t₁ h₁ => ?_
    obtain ⟨rfl, rfl, h₁⟩ := h₁
    exact locked_buildNamed h₁ h.length (by simp) (by simp) (by decide) h.place (named_word h rfl)
      M.declared_none

theorem locked_parenthesized (hgo : Paired M go) (hstart : M.place start start')
    (h : M.Twin ns ms s t) :
    Locked (parenthesized go start) (parenthesized go start') s t (M.One ns ms) := by
  refine (locked_advance h).bind fun _ _ s₁ t₁ h₁ => ?_
  refine (locked_expression hgo h₁).bind fun _ _ s₂ t₂ h₂ => ?_
  exact (locked_expect ")" (by decide) h₂).bind fun _ _ s₃ t₃ h₃ =>
    locked_build h₃ h.length rfl rfl (by decide) hstart

theorem locked_genericArrow (hgo : Paired M go) (hstart : M.place start start')
    (h : M.Twin ns ms s t) :
    Locked (genericArrow go start) (genericArrow go start') s t (M.One ns ms) := by
  refine (locked_skipAngles h).bind fun _ _ s₁ t₁ h₁ => locked_look ?_
  exact locked_ite (by simp only [h₁.isAt, h₁.opensArrow]) (fun _ => locked_arrow hgo hstart h₁)
    fun _ => locked_missingExpression hstart h₁

theorem locked_punctPrimary (hgo : Paired M go) (hstart : M.place start start')
    (h : M.Twin ns ms s t) :
    Locked (punctPrimary go start) (punctPrimary go start') s t (M.One ns ms) := by
  refine locked_look (locked_ite (h.isAt "(") (fun _ => ?_) fun _ => ?_)
  · exact locked_ite h.opensArrow (fun _ => locked_arrow hgo hstart h)
      fun _ => locked_parenthesized hgo hstart h
  refine locked_ite (h.isAt "[") (fun _ => locked_arrayLiteral hgo h) fun _ => ?_
  refine locked_ite (h.isAt "\x7b") (fun _ => locked_objectLiteral hgo h) fun _ => ?_
  refine locked_ite (h.isAt "<") (fun _ => locked_genericArrow hgo hstart h) fun _ => ?_
  refine locked_ite (h.isPunctOf _) (fun _ => locked_missingExpression hstart h) fun _ => ?_
  refine (locked_report _ (by decide) h).bind fun _ _ s₁ t₁ h₁ => ?_
  exact (locked_advance h₁).bind fun _ _ s₂ t₂ h₂ =>
    locked_build h₂ h.length (by simp) (by simp) (by decide) hstart

theorem locked_primary (hgo : Paired M go) (h : M.Twin ns ms s t) :
    Locked (primary go) (primary go) s t (M.One ns ms) := by
  refine locked_here (locked_look ?_)
  rw [h.kind]
  cases s.current.kind with
  | word => exact locked_wordPrimary hgo h
  | number | string | regex | template =>
    exact (locked_advance h).bind fun _ _ s₁ t₁ h₁ =>
      locked_build h₁ h.length (by simp) (by simp) (by decide) h.place
  | templateHead => exact locked_template hgo h
  | punct => exact locked_punctPrimary hgo h.place h
  | templateMiddle | templateTail | endOfFile => exact locked_missingExpression h.place h

/-- One node more in the place of the last one, with more to come. -/
theorem locked_climbed {p q : Parse Node} (hp : Locked p q s t (M.One ns ms)) :
    Locked (do return (← p, true)) (do return (← q, true)) s t (M.Climbed ns ms) :=
  hp.bind fun _ _ _ _ h₁ => locked_done h₁

theorem locked_calleeStep (hgo : Paired M go) {n m : Node} (hlength : ns.length = ms.length)
    (hstart : M.place start start') (h : M.Twin (ns ++ [n]) (ms ++ [m]) s t) :
    Locked (calleeStep go start n) (calleeStep go start' m) s t (M.Climbed ns ms) := by
  refine locked_look (locked_ite (h.isAt ".") (fun _ => ?_) fun _ => ?_)
  · refine (locked_advance h).bind fun _ _ s₁ t₁ h₁ => locked_look ?_
    refine locked_ite h₁.isWord (fun hword => locked_accessNamed h₁ hlength hword hstart)
      fun _ => ?_
    exact (locked_report _ (by decide) h₁).bind fun _ _ s₂ t₂ h₂ => locked_done h₂
  · exact locked_ite (h.isAt "[")
      (fun _ => locked_climbed (locked_elementAccess hgo hlength hstart h)) fun _ => locked_done h

theorem locked_construction (hgo : Paired M go) (h : M.Twin ns ms s t) :
    Locked (construction go) (construction go) s t (M.One ns ms) := by
  refine locked_here ((locked_advance h).bind fun _ _ s₁ t₁ h₁ => ?_)
  refine locked_ifAccept h₁ (fun s₂ t₂ h₂ => ?_) fun s₂ t₂ h₂ => locked_here (locked_look ?_)
  · refine (locked_takeName h₂).bind fun _ _ s₃ t₃ h₃ => ?_
    obtain ⟨rfl, rfl, h₃⟩ := h₃
    exact locked_buildNamed h₃ h.length (by simp) (by simp) (by decide) h.place (named_word h₂ rfl)
      M.declared_none
  refine locked_join (h₂.isAtWord "new") (P := M.One ns ms) ?_ fun _ _ s₃ t₃ h₃ => ?_
  · exact locked_ite (h₂.isAtWord "new") (fun _ => hgo.enter .construction h₂)
      fun _ => locked_primary hgo h₂
  refine (locked_climb (fun n m s t h' => locked_calleeStep hgo h.length h₂.place h') h₃).bind
    fun n m s₄ t₄ h₄ => ?_
  refine (locked_skipAngles h₄).bind fun _ _ s₅ t₅ h₅ => locked_look ?_
  refine locked_join (h₅.isAt "(") (P := M.Many (ns ++ [n]) (ms ++ [m])) ?_ fun _ _ s₆ t₆ h₆ => ?_
  · exact locked_ite (h₅.isAt "(") (fun _ => locked_arguments hgo h₅) fun _ => locked_pure h₅.nil
  · exact locked_build h₆ h.length (by simp) (by simp) (by decide) h.place

theorem locked_callOf (hgo : Paired M go) {n m : Node} (hlength : ns.length = ms.length)
    (hstart : M.place start start') (h : M.Twin (ns ++ [n]) (ms ++ [m]) s t) :
    Locked (callOf go start n) (callOf go start' m) s t (M.One ns ms) :=
  (locked_arguments hgo h).bind fun _ _ _ _ h₁ =>
    locked_build h₁ hlength (by simp) (by simp) (by decide) hstart

theorem locked_memberStep (hgo : Paired M go) {n m : Node} (hlength : ns.length = ms.length)
    (hstart : M.place start start') (h : M.Twin (ns ++ [n]) (ms ++ [m]) s t) :
    Locked (memberStep go start n) (memberStep go start' m) s t (M.Climbed ns ms) := by
  refine (locked_advance h).bind fun _ _ s₁ t₁ h₁ => locked_look ?_
  refine locked_ite (h₁.isAt "(")
    (fun _ => locked_climbed (locked_callOf hgo hlength hstart h₁)) fun _ => ?_
  refine locked_ite (h₁.isAt "[")
    (fun _ => locked_climbed (locked_elementAccess hgo hlength hstart h₁)) fun _ => ?_
  refine locked_ite h₁.isWord (fun hword => locked_accessNamed h₁ hlength hword hstart) fun _ => ?_
  exact (locked_report _ (by decide) h₁).bind fun _ _ s₂ t₂ h₂ => locked_done h₂

theorem locked_accessStep (hgo : Paired M go) {n m : Node} (hlength : ns.length = ms.length)
    (hstart : M.place start start') (h : M.Twin (ns ++ [n]) (ms ++ [m]) s t) :
    Locked (accessStep go start n) (accessStep go start' m) s t (M.Climbed ns ms) := by
  refine locked_look (locked_ite (by simp only [h.isAt])
    (fun _ => locked_memberStep hgo hlength hstart h) fun _ => ?_)
  refine locked_ite (by simp only [h.isAt, h.newlineBefore])
    (fun _ => locked_climbed (locked_elementAccess hgo hlength hstart h)) fun _ => ?_
  refine locked_ite (h.isAt "(")
    (fun _ => locked_climbed (locked_callOf hgo hlength hstart h)) fun _ => ?_
  refine locked_ite (by simp only [h.isAt, h.typeArgumentsThenCall]) (fun _ => ?_) fun _ => ?_
  · exact (locked_skipAngles h).bind fun _ _ s₁ t₁ h₁ =>
      locked_climbed (locked_callOf hgo hlength hstart h₁)
  refine locked_ite (by simp only [h.kind]) (fun _ => ?_) fun _ => ?_
  · refine (locked_primary hgo h).bind fun _ _ s₁ t₁ h₁ => ?_
    exact locked_climbed (locked_build h₁ hlength (by simp) (by simp) (by decide) hstart)
  refine locked_ite (by simp only [h.isAt, h.newlineBefore]) (fun _ => ?_) fun _ => locked_done h
  exact (locked_advance h).bind fun _ _ s₁ t₁ h₁ => locked_done h₁

theorem locked_access (hgo : Paired M go) (h : M.Twin ns ms s t) :
    Locked (access go) (access go) s t (M.One ns ms) := by
  refine locked_here (locked_look ?_)
  refine locked_join (h.isAtWord "new") (P := M.One ns ms) ?_ fun _ _ s₁ t₁ h₁ => ?_
  · exact locked_ite (h.isAtWord "new") (fun _ => hgo.enter .construction h)
      fun _ => locked_primary hgo h
  · exact locked_climb (fun n m s t h' => locked_accessStep hgo h.length h.place h') h₁

theorem locked_unary (hgo : Paired M go) (h : M.Twin ns ms s t) :
    Locked (unary go) (unary go) s t (M.One ns ms) := by
  refine locked_here (locked_look (locked_ite h.isUnaryOperator (fun _ => ?_) fun _ => ?_))
  · refine (locked_advance h).bind fun _ _ s₁ t₁ h₁ => ?_
    exact (hgo.enter .unary h₁).bind fun _ _ s₂ t₂ h₂ =>
      locked_build h₂ h.length rfl rfl (by decide) h.place
  refine (hgo.enter .access h).bind fun _ _ s₁ t₁ h₁ => locked_look ?_
  refine locked_ite (by simp only [h₁.isPunctOf, h₁.newlineBefore]) (fun _ => ?_)
    fun _ => locked_pure h₁
  exact (locked_advance h₁).bind fun _ _ s₂ t₂ h₂ =>
    locked_build h₂ h.length rfl rfl (by decide) h.place

theorem locked_castType (h : M.Twin ns ms s t) :
    Locked castType castType s t (M.Typed ns ms) :=
  locked_ifAcceptWord h (fun _ _ h₁ => locked_pure ⟨M.declared_none, h₁⟩)
    fun _ _ h₁ => locked_typeUpTo _ h₁

theorem locked_binaryStep (hgo : Paired M go) {above : Nat} {n m : Node}
    (hlength : ns.length = ms.length) (hstart : M.place start start')
    (h : M.Twin (ns ++ [n]) (ms ++ [m]) s t) :
    Locked (binaryStep go above start n) (binaryStep go above start' m) s t (M.Climbed ns ms) := by
  refine locked_look ?_
  dsimp only
  rw [h.operator?]
  cases operator? above s.current with
  | none => exact locked_done h
  | some precedence =>
    refine (locked_advance h).bind fun _ _ s₁ t₁ h₁ => locked_ite h.isCast (fun _ => ?_) fun _ => ?_
    · refine (locked_castType h₁).bind fun _ _ s₂ t₂ h₂ => ?_
      exact locked_climbed
        (locked_buildNamed h₂.2 hlength rfl rfl (by decide) hstart named_none h₂.1)
    · refine (hgo.enter (.binary precedence) h₁).bind fun _ _ s₂ t₂ h₂ => ?_
      exact locked_climbed (locked_build h₂ hlength (by simp) (by simp) (by decide) hstart)

theorem locked_binary (hgo : Paired M go) {above : Nat} (h : M.Twin ns ms s t) :
    Locked (binary go above) (binary go above) s t (M.One ns ms) := by
  refine locked_here ((hgo.enter .unary h).bind fun _ _ s₁ t₁ h₁ => ?_)
  exact locked_climb (fun n m s t h' => locked_binaryStep hgo h.length h.place h') h₁

theorem locked_conditional (hgo : Paired M go) (h : M.Twin ns ms s t) :
    Locked (conditional go) (conditional go) s t (M.One ns ms) := by
  refine locked_here ((hgo.enter (.binary 0) h).bind fun _ _ s₁ t₁ h₁ => ?_)
  refine locked_ifAccept h₁ (fun s₂ t₂ h₂ => ?_) fun _ _ h₂ => locked_pure h₂
  refine (hgo.enter .assignment h₂).bind fun _ _ s₃ t₃ h₃ => ?_
  refine (locked_expect ":" (by decide) h₃).bind fun _ _ s₄ t₄ h₄ => ?_
  exact (hgo.enter .assignment h₄).bind fun _ _ s₅ t₅ h₅ =>
    locked_build h₅ h.length (by simp) (by simp) (by decide) h.place

theorem locked_yielded (hgo : Paired M go) (hstart : M.place start start') (h : M.Twin ns ms s t) :
    Locked (yielded go start) (yielded go start') s t (M.One ns ms) := by
  refine (locked_advance h).bind fun _ _ s₁ t₁ h₁ => ?_
  refine (locked_optional "*" h₁).bind fun _ _ s₂ t₂ h₂ => locked_look ?_
  refine locked_ite h₂.endsYield
    (fun _ => locked_build h₂ h.length (by simp) (by simp) (by decide) hstart) fun _ => ?_
  exact (hgo.enter .assignment h₂).bind fun _ _ s₃ t₃ h₃ =>
    locked_build h₃ h.length rfl rfl (by decide) hstart

theorem locked_assignment (hgo : Paired M go) (h : M.Twin ns ms s t) :
    Locked (assignment go) (assignment go) s t (M.One ns ms) := by
  refine locked_here (locked_look (locked_ite (h.isAtWord "yield")
    (fun _ => locked_yielded hgo h.place h) fun _ => ?_))
  refine (locked_conditional hgo h).bind fun _ _ s₁ t₁ h₁ => locked_look ?_
  refine locked_ite (h₁.isPunctOf _) (fun _ => ?_) fun _ => locked_pure h₁
  refine (locked_advance h₁).bind fun _ _ s₂ t₂ h₂ => ?_
  exact (hgo.enter .assignment h₂).bind fun _ _ s₃ t₃ h₃ =>
    locked_build h₃ h.length (by simp) (by simp) (by decide) h.place

end Subscriptions.Grammar
