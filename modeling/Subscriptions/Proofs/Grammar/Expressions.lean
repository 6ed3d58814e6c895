import Subscriptions.Grammar.Expression
import Subscriptions.Proofs.Grammar.Members

namespace Subscriptions.Grammar

variable {m k j : Nat} {go : Recur} {a s : State} {ns : List Node}

theorem isEnd_of_operator? {above p : Nat} {t : Token} (h : operator? above t = some p) :
    t.isEnd = false := by
  rw [operator?] at h
  split at h
  · rename_i hop
    simp only [isCast, Bool.or_eq_true, Bool.and_eq_true] at hop
    rcases hop with ((hop | hop) | hop) | ⟨hop | hop, -⟩
    · exact isEnd_of_kind (eq_of_beq hop) (by decide)
    all_goals exact isEnd_of_isTheWord hop
  · cases h

theorem isEnd_of_isUnaryOperator (h : isUnaryOperator s = true) : s.current.isEnd = false := by
  simp only [isUnaryOperator, isWordOperator, Bool.or_eq_true, Bool.and_eq_true] at h
  rcases h with h | h
  · exact isEnd_of_isPunctOf h
  · exact isEnd_of_isWord h.1.1

theorem ensures_missingExpression {start : Nat} (h : Reached m k a ns s) :
    Ensures (missingExpression start) s fun n => Reached m k a (ns ++ [n]) :=
  (ensures_report _ h).bind fun _ _ h₁ => ensures_build h₁.1 (by simp) (by omega)

theorem ensures_expression (hgo : Covers m go) (hk : 6 ≤ k) (h : Reached m k a ns s) :
    Ensures (expression go) s fun n => Reached m k a (ns ++ [n]) := by
  refine ensures_here ((hgo.enter .assignment h hk).bind fun first s₁ h₁ => ensures_look ?_)
  refine ensures_ite (fun _ => ?_) fun _ => ensures_pure h₁
  refine (ensures_gather (fun j ns s _ h => ?_) h₁).bind fun others s₂ h₂ => ensures_build h₂ (by simp) (by omega)
  refine ensures_ifAccept h (fun s₁ h₁ => ?_) fun _ => ensures_stop h
  exact (hgo.fresh h₁ (by omega)).bind fun n s₂ h₂ => ensures_pure h₂

theorem ensures_spreadOrAssignment (hgo : Covers m go) (hk : 6 ≤ k) (h : Reached m k a ns s) :
    Ensures (spreadOrAssignment go) s fun n => Reached m k a (ns ++ [n]) := by
  refine ensures_look (ensures_ite (fun _ => ?_) fun _ => hgo.enter .assignment h hk)
  refine ensures_here ((ensures_advance h).bind fun _ s₁ h₁ => ?_)
  exact (hgo.enter .assignment h₁ hk).bind fun value s₂ h₂ => ensures_build h₂ (by simp) (by omega)

/-- Arguments have the room that their opening parenthesis leaves. -/
theorem ensures_arguments (hgo : Covers m go)
    (h : Ensures (expect "(") s fun _ => Reached m k a ns) (hk : 6 ≤ k) :
    Ensures (arguments go) s fun nodes => Reached m k a (ns ++ nodes) := by
  refine h.bind fun _ s₁ h₁ => (ensures_gather (fun j ns s hj h => ?_) h₁).bind
    fun nodes s₂ h₂ => ?_
  · refine ensures_look (ensures_ite (fun _ => ensures_stop h) fun _ => ?_)
    refine (ensures_spreadOrAssignment hgo (by omega) h).bind fun node s₁ h₁ => ?_
    exact (ensures_accept "," h₁).bind fun more s₂ h₂ => ensures_pure h₂
  · exact (ensures_expect ")" h₂).bind fun _ s₃ h₃ => ensures_pure h₃

theorem ensures_elementAccess (hgo : Covers m go) {start : Nat} {object : Node}
    (h : Reached m k a (ns ++ [object]) s) (hs : s.isAt "[" = true) :
    Ensures (elementAccess go start object) s fun n => Reached m (k + 8) a (ns ++ [n]) := by
  refine (ensures_expect_at h hs).bind fun _ s₁ h₁ => ?_
  refine (ensures_expression hgo (by omega) h₁).bind fun index s₂ h₂ => ?_
  exact (ensures_expect "]" h₂).bind fun _ s₃ h₃ => ensures_build h₃ (by simp) (by omega)

/-- Where there is no room, the parameters of an arrow function make it. -/
theorem ensures_arrow (hgo : Covers m go) {start : Nat} (h : Reached m k a ns s)
    (hs : 7 ≤ k ∨ s.current.isWord = true ∨ s.isAt "(" = true) :
    Ensures (arrow go start) s fun n => Reached m k a (ns ++ [n]) := by
  have hbody : ∀ params s', Reached m (max k 7) a (ns ++ params) s' → Ensures (do
      let returned ← annotation ["=>"]
      expect "=>"
      let body ← if (← look).isAt "\x7b" then block go else go .assignment
      buildNamed .arrowFunction start none returned (params ++ [body])) s'
      fun n => Reached m k a (ns ++ [n]) := by
    intro params s' h'
    refine (ensures_annotated _ h').bind fun returned s₂ h₂ => ?_
    refine (ensures_expect "=>" h₂).bind fun _ s₃ h₃ => ensures_look ?_
    refine ensures_join (P := fun n => Reached m (max k 7) a (ns ++ params ++ [n])) ?_
      fun body s₄ h₄ => ensures_buildNamed h₄ (by simp) (by omega)
    exact ensures_ite (fun _ => ensures_block hgo (ensures_expect _ h₃) (by omega)) fun _ => hgo.fresh h₃ (by omega)
  refine ensures_look (ensures_ite (fun hw => ensures_here ?_) fun hw => ?_)
  · have hne := h.rest_ne_nil (isEnd_of_isWord hw)
    refine (ensures_takeName_token h hne).bind fun name s₁ h₁ => ?_
    exact (ensures_buildNamed h₁ (by simp) (by omega)).bind fun n s₂ h₂ => hbody [n] s₂ h₂
  · refine (ensures_parameters hgo h).bind fun params s₁ h₁ => hbody params s₁ ?_
    rcases hs with hk | hword | hparen
    · exact h₁.1.weaken (by omega)
    · exact absurd hword hw
    · exact (h₁.2 hparen).weaken (by omega)

theorem ensures_arrayLiteral (hgo : Covers m go) (h : Reached m k a ns s)
    (hs : s.isAt "[" = true) :
    Ensures (arrayLiteral go) s fun n => Reached m k a (ns ++ [n]) := by
  refine ensures_here ((ensures_expect_at h hs).bind fun _ s₁ h₁ => ?_)
  refine (ensures_gather (fun j ns s hj h => ?_) h₁).bind fun elements s₂ h₂ => ?_
  · refine ensures_look (ensures_ite (fun _ => ensures_stop h) fun _ => ?_)
    refine ensures_ite (fun hcomma => ?_) fun _ => ?_
    · refine (ensures_advance_token h (h.ne_nil_of_isAt hcomma)).bind fun _ s₁ h₁ => ?_
      exact ensures_next h₁
    · refine (ensures_spreadOrAssignment hgo (by omega) h).bind fun node s₁ h₁ => ?_
      exact (ensures_accept "," h₁).bind fun more s₂ h₂ => ensures_pure h₂
  · exact (ensures_expect "]" h₂).bind fun _ s₃ h₃ => ensures_build h₃ (by simp) (by omega)

theorem ensures_objectMemberKind (h : Reached m k a ns s) :
    Ensures objectMemberKind s fun _ => Reached m k a ns := by
  refine ensures_look (ensures_ite (fun _ => ?_) fun _ => ensures_pure h)
  exact (ensures_advance h).bind fun _ _ h₁ => ensures_pure h₁

theorem ensures_objectMethod (hgo : Covers m go) {kind : Kind} {start : Nat} {name : Option Name}
    (h : Reached m k a ns s) (hs : s.isAt "(" = true ∨ s.isAt "<" = true) :
    Ensures (objectMethod go kind start name) s fun n => Reached m k a (ns ++ [n]) := by
  refine (ensures_skipAngles_cases h).bind fun _ s₁ hcases => ?_
  have hparams : Ensures (parameters go) s₁ fun params => Reached m (k + 8) a (ns ++ params) := by
    rcases hcases with h₁ | ⟨hangle, rfl⟩
    · exact (ensures_parameters hgo h₁).mono fun params s₂ h₂ => h₂.1
    · have hparen : s₁.isAt "(" = true := hs.resolve_right (by simp [hangle])
      exact (ensures_parameters hgo h).mono fun params s₂ h₂ => h₂.2 hparen
  refine hparams.bind fun params s₂ h₂ => ?_
  refine (ensures_annotated _ h₂).bind fun returned s₃ h₃ => ?_
  refine (ensures_block hgo (ensures_expect _ h₃) (by omega)).bind fun body s₄ h₄ => ?_
  exact ensures_buildNamed h₄ (by simp) (by omega)

theorem ensures_shorthandMember (hgo : Covers m go) {start : Nat} {name : Option Name}
    (h : Reached m k a ns s) :
    Ensures (shorthandMember go start name) s fun n => Reached m k a (ns ++ [n]) := by
  have hdefault : ∀ value s', Reached m k a (ns ++ value) s' → Ensures (do
      let default ← initializer go
      buildNamed .propertyAssignment start name none (value ++ default)) s'
      fun n => Reached m k a (ns ++ [n]) := by
    intro value s' h'
    exact (ensures_initializer hgo h').bind fun default s₁ h₁ => ensures_buildNamed h₁ (by simp) (by omega)
  cases name with
  | none => exact hdefault [] s h.nil
  | some n =>
    refine Ensures.bind (P := fun n => Reached m k a (ns ++ [n])) ?_
      fun value s₁ h₁ => hdefault [value] s₁ h₁
    exact fun depth => ⟨_, _, rfl, h.reduce _ (by simp) rfl⟩

theorem ensures_objectMember (hgo : Covers m go) (hk : 6 ≤ k) (h : Reached m k a ns s) :
    Ensures (objectMember go) s fun n => Reached m k a (ns ++ [n]) := by
  refine ensures_look (ensures_ite (fun _ => ensures_spreadOrAssignment hgo hk h) fun _ => ?_)
  refine ensures_here ((ensures_objectMemberKind h).bind fun kind s₁ h₁ => ?_)
  refine (ensures_optional "*" h₁).bind fun _ s₂ h₂ => ?_
  refine (ensures_memberName h₂).bind fun name s₃ h₃ => ensures_look ?_
  refine ensures_ite (fun hs => ?_) fun _ => ensures_ite (fun _ => ?_) fun _ => ?_
  · exact ensures_objectMethod hgo h₃ ((Bool.or_eq_true _ _).mp hs)
  · refine (ensures_advance h₃).bind fun _ s₄ h₄ => ?_
    exact (hgo.enter .assignment h₄ hk).bind fun value s₅ h₅ => ensures_buildNamed h₅ (by simp) (by omega)
  · exact ensures_shorthandMember hgo h₃

theorem ensures_objectLiteral (hgo : Covers m go) (h : Reached m k a ns s)
    (hs : s.isAt "\x7b" = true) :
    Ensures (objectLiteral go) s fun n => Reached m k a (ns ++ [n]) := by
  refine ensures_here ((ensures_expect_at h hs).bind fun _ s₁ h₁ => ?_)
  refine (ensures_gather (fun j ns s hj h => ?_) h₁).bind fun members s₂ h₂ => ?_
  · refine ensures_look (ensures_ite (fun _ => ensures_stop h) fun _ => ?_)
    refine (ensures_objectMember hgo (by omega) h).bind fun node s₁ h₁ => ?_
    exact (ensures_accept "," h₁).bind fun more s₂ h₂ => ensures_pure h₂
  · exact (ensures_expect "\x7d" h₂).bind fun _ s₃ h₃ => ensures_build h₃ (by simp) (by omega)

theorem ensures_template (hgo : Covers m go) (h : Reached m k a ns s) (hs : s.rest ≠ []) :
    Ensures (template go) s fun n => Reached m (k + 8) a (ns ++ [n]) := by
  refine ensures_here ((ensures_advance_token h hs).bind fun _ s₁ h₁ => ?_)
  refine (ensures_gather (fun j ns s hj h => ?_) h₁).bind fun parts s₂ h₂ => ensures_build h₂ (by simp) (by omega)
  refine (ensures_expression hgo (by omega) h).bind fun node s₁ h₁ => ensures_look ?_
  split
  · rename_i hkind
    have hne := h₁.rest_ne_nil (isEnd_of_kind hkind (by decide))
    exact (ensures_advance_token h₁ hne).bind fun _ s₂ h₂ => ensures_pure h₂
  · exact (ensures_advance h₁).bind fun _ s₂ h₂ => ensures_pure h₂
  · exact (ensures_report _ h₁).bind fun _ s₂ h₂ => ensures_pure h₂.1

theorem ensures_wordPrimary (hgo : Covers m go) (h : Reached m k a ns s)
    (hs : s.current.isWord = true) :
    Ensures (wordPrimary go) s fun n => Reached m k a (ns ++ [n]) := by
  have hne := h.rest_ne_nil (isEnd_of_isWord hs)
  refine ensures_here (ensures_look ?_)
  cases wordForm s with
  | function => exact ensures_function hgo _ h
  | asyncFunction => exact (ensures_advance h).bind fun _ s₁ h₁ => ensures_function hgo _ h₁
  | classLiteral => exact ensures_classBody hgo h.nil
  | asyncArrow =>
    refine (ensures_advance_token h hne).bind fun _ s₁ h₁ => ?_
    exact (ensures_arrow hgo h₁ (.inl (by omega))).mono fun n s₂ h₂ => h₂.weaken (by omega)
  | thisWord | superWord | literal =>
    exact (ensures_advance h).bind fun _ s₁ h₁ => ensures_build h₁ (by simp) (by omega)
  | arrow => exact ensures_arrow hgo h (.inr (.inl hs))
  | identifier => exact (ensures_takeName h).bind fun name s₁ h₁ => ensures_buildNamed h₁ (by simp) (by omega)

theorem ensures_parenthesized (hgo : Covers m go) {start : Nat} (h : Reached m k a ns s)
    (hs : s.isAt "(" = true) :
    Ensures (parenthesized go start) s fun n => Reached m k a (ns ++ [n]) := by
  refine (ensures_advance_token h (h.ne_nil_of_isAt hs)).bind fun _ s₁ h₁ => ?_
  refine (ensures_expression hgo (by omega) h₁).bind fun inner s₂ h₂ => ?_
  exact (ensures_expect ")" h₂).bind fun _ s₃ h₃ => ensures_build h₃ (by simp) (by omega)

theorem ensures_genericArrow (hgo : Covers m go) {start : Nat} (h : Reached m k a ns s) :
    Ensures (genericArrow go start) s fun n => Reached m k a (ns ++ [n]) := by
  refine (ensures_skipAngles h).bind fun _ s₁ h₁ => ensures_look (ensures_ite (fun hs => ?_) ?_)
  · exact ensures_arrow hgo h₁ (.inr (.inr ((Bool.and_eq_true _ _).mp hs).1))
  · exact fun _ => ensures_missingExpression h₁

theorem ensures_punctPrimary (hgo : Covers m go) {start : Nat} (h : Reached m k a ns s) :
    Ensures (punctPrimary go start) s fun n => Reached m k a (ns ++ [n]) := by
  refine ensures_look (ensures_ite (fun hparen => ?_) fun _ => ?_)
  · exact ensures_ite (fun _ => ensures_arrow hgo h (.inr (.inr hparen)))
      fun _ => ensures_parenthesized hgo h hparen
  refine ensures_ite (fun hs => ensures_arrayLiteral hgo h hs) fun _ => ?_
  refine ensures_ite (fun hs => ensures_objectLiteral hgo h hs) fun _ => ?_
  refine ensures_ite (fun _ => ensures_genericArrow hgo h) fun _ => ?_
  refine ensures_ite (fun _ => ensures_missingExpression h) fun _ => ?_
  refine (ensures_report _ h).bind fun _ s₁ h₁ => ?_
  exact (ensures_advance h₁.1).bind fun _ s₂ h₂ => ensures_build h₂ (by simp) (by omega)

theorem ensures_primary (hgo : Covers m go) (h : Reached m k a ns s) :
    Ensures (primary go) s fun n => Reached m k a (ns ++ [n]) := by
  refine ensures_here (ensures_look ?_)
  cases hkind : s.current.kind with
  | word => exact ensures_wordPrimary hgo h (beq_iff_eq.mpr hkind)
  | number | string | regex | template =>
    exact (ensures_advance h).bind fun _ s₁ h₁ => ensures_build h₁ (by simp) (by omega)
  | templateHead =>
    have hne := h.rest_ne_nil (isEnd_of_kind hkind (by decide))
    exact (ensures_template hgo h hne).mono fun n s₁ h₁ => h₁.weaken (by omega)
  | punct => exact ensures_punctPrimary hgo h
  | templateMiddle | templateTail | endOfFile => exact ensures_missingExpression h

/-- A template reads tokens. -/
theorem ensures_primary_template (hgo : Covers m go) (h : Reached m k a ns s)
    (hs : (s.current.kind == .template || s.current.kind == .templateHead) = true) :
    Ensures (primary go) s fun n => Reached m (k + 8) a (ns ++ [n]) := by
  refine ensures_here (ensures_look ?_)
  simp only [Bool.or_eq_true, beq_iff_eq] at hs
  rcases hs with hkind | hkind
  · have hne := h.rest_ne_nil (isEnd_of_kind hkind (by decide))
    rw [hkind]
    exact (ensures_advance_token h hne).bind fun _ s₁ h₁ => ensures_build h₁ (by simp) (by omega)
  · rw [hkind]
    exact ensures_template hgo h (h.rest_ne_nil (isEnd_of_kind hkind (by decide)))

theorem ensures_calleeStep (hgo : Covers m go) {start : Nat} {callee : Node}
    (h : Reached m k a (ns ++ [callee]) s) :
    Ensures (calleeStep go start callee) s (Climbed m k a ns) := by
  refine ensures_look (ensures_ite (fun hdot => ?_) fun _ => ensures_ite (fun hs => ?_) fun _ => ?_)
  · refine (ensures_advance_token h (h.ne_nil_of_isAt hdot)).bind fun _ s₁ h₁ => ensures_look ?_
    refine ensures_ite (fun _ => ?_) fun _ => ?_
    · refine (ensures_takeName h₁).bind fun name s₂ h₂ => ?_
      exact (ensures_buildNamed h₂ (by simp) (by omega)).bind fun n s₃ h₃ => ensures_more h₃
    · exact (ensures_report _ h₁).bind fun _ s₂ h₂ => ensures_done (h₂.1.weaken (by omega))
  · exact (ensures_elementAccess hgo h hs).bind fun n s₁ h₁ => ensures_more h₁
  · exact ensures_done h

theorem ensures_construction (hgo : Covers m go) (h : Reached m k a ns s) :
    Ensures (construction go) s fun n => Reached m k a (ns ++ [n]) := by
  refine ensures_here ((ensures_advance_cases h).bind fun _ s₁ h₁ => ?_)
  refine ensures_ifAccept h₁.1 (fun s₂ h₂ => ?_) fun _ => ensures_here (ensures_look ?_)
  · exact (ensures_takeName h₂).bind fun name s₃ h₃ => ensures_buildNamed h₃ (by simp) (by omega)
  -- at another `new` the one before it was read
  have hfirst : Ensures (if s₁.isAtWord "new" then go .construction else primary go) s₁
      fun n => Reached m k a (ns ++ [n]) := by
    refine ensures_ite (fun hs => ?_) fun _ => ensures_primary hgo h₁.1
    exact (hgo.fresh (h₁.2 (h₁.1.ne_nil_of_isAtWord hs)) (by omega)).mono fun n s₂ h₂ => h₂.weaken (by omega)
  refine ensures_join hfirst fun first s₂ h₂ => ?_
  refine (ensures_climb (fun j s left _ h => ensures_calleeStep hgo h) h₂).bind
    fun callee s₃ h₃ => ?_
  refine (ensures_skipAngles h₃).bind fun _ s₄ h₄ => ensures_look ?_
  refine ensures_join (P := fun args => Reached m k a (ns ++ [callee] ++ args))
    (ensures_ite (fun hs => ?_) fun _ => ensures_pure h₄.nil)
    fun args s₅ h₅ => ensures_build h₅ (by simp) (by omega)
  exact (ensures_arguments hgo (ensures_expect_at h₄ hs) (by omega)).mono fun args s₅ h₅ => h₅.weaken (by omega)

theorem ensures_callOf (hgo : Covers m go) {start : Nat} {callee : Node}
    (h : Ensures (expect "(") s fun _ => Reached m k a (ns ++ [callee])) (hk : 6 ≤ k) :
    Ensures (callOf go start callee) s fun n => Reached m k a (ns ++ [n]) :=
  (ensures_arguments hgo h hk).bind fun _ _ h₁ => ensures_build h₁ (by simp) (by omega)

theorem ensures_memberStep (hgo : Covers m go) {start : Nat} {object : Node}
    (h : Reached m k a (ns ++ [object]) s) (hs : s.rest ≠ []) :
    Ensures (memberStep go start object) s (Climbed m k a ns) := by
  refine (ensures_advance_token h hs).bind fun _ s₁ h₁ => ensures_look ?_
  refine ensures_ite (fun _ => ?_) fun _ => ensures_ite (fun hindex => ?_) fun _ => ?_
  · exact (ensures_callOf hgo (ensures_expect _ h₁) (by omega)).bind fun n s₂ h₂ => ensures_more h₂
  · exact (ensures_elementAccess hgo h₁ hindex).bind fun n s₂ h₂ => ensures_more (h₂.weaken (by omega))
  · refine ensures_ite (fun _ => ?_) fun _ => ?_
    · refine (ensures_takeName h₁).bind fun name s₂ h₂ => ?_
      exact (ensures_buildNamed h₂ (by simp) (by omega)).bind fun n s₃ h₃ => ensures_more h₃
    · exact (ensures_report _ h₁).bind fun _ s₂ h₂ => ensures_done (h₂.1.weaken (by omega))

theorem ensures_accessStep (hgo : Covers m go) {start : Nat} {object : Node}
    (h : Reached m k a (ns ++ [object]) s) :
    Ensures (accessStep go start object) s (Climbed m k a ns) := by
  refine ensures_look (ensures_ite (fun hs => ?_) fun _ => ?_)
  · refine ensures_memberStep hgo h ?_
    rcases (Bool.or_eq_true _ _).mp hs with hs | hs <;> exact h.ne_nil_of_isAt hs
  refine ensures_ite (fun hs => ?_) fun _ => ensures_ite (fun hs => ?_) fun _ => ?_
  · have hindex := ((Bool.and_eq_true _ _).mp hs).1
    exact (ensures_elementAccess hgo h hindex).bind fun n s₁ h₁ => ensures_more h₁
  · exact (ensures_callOf hgo (ensures_expect_at h hs) (by omega)).bind fun n s₁ h₁ => ensures_more h₁
  refine ensures_ite (fun hs => ?_) fun _ => ensures_ite (fun hs => ?_) fun _ => ?_
  · have hangle := ((Bool.and_eq_true _ _).mp hs).1
    refine (ensures_skipAngles_at h hangle).bind fun _ s₁ h₁ => ?_
    exact (ensures_callOf hgo (ensures_expect _ h₁) (by omega)).bind fun n s₂ h₂ => ensures_more h₂
  · refine (ensures_primary_template hgo h hs).bind fun template s₁ h₁ => ?_
    exact (ensures_build h₁ (by simp) (by omega)).bind fun n s₂ h₂ => ensures_more h₂
  refine ensures_ite (fun hs => ?_) fun _ => ensures_done h
  have hne := h.ne_nil_of_isAt ((Bool.and_eq_true _ _).mp hs).1
  exact (ensures_advance_token h hne).bind fun _ s₁ h₁ => ensures_more h₁

theorem ensures_access (hgo : Covers m go) (hk : 2 ≤ k) (h : Reached m k a ns s) :
    Ensures (access go) s fun n => Reached m k a (ns ++ [n]) := by
  refine ensures_here (ensures_look ?_)
  refine ensures_join (P := fun n => Reached m k a (ns ++ [n])) ?_ fun first s₁ h₁ => ?_
  · exact ensures_ite (fun _ => hgo.enter .construction h hk) fun _ => ensures_primary hgo h
  · exact ensures_climb (fun j s left _ h => ensures_accessStep hgo h) h₁

theorem ensures_unary (hgo : Covers m go) (hk : 3 ≤ k) (h : Reached m k a ns s) :
    Ensures (unary go) s fun n => Reached m k a (ns ++ [n]) := by
  refine ensures_here (ensures_look (ensures_ite (fun hs => ?_) fun _ => ?_))
  · have hne := h.rest_ne_nil (isEnd_of_isUnaryOperator hs)
    refine (ensures_advance_token h hne).bind fun _ s₁ h₁ => ?_
    exact (hgo.fresh h₁ (by omega)).bind fun operand s₂ h₂ => ensures_build h₂ (by simp) (by omega)
  · refine (hgo.enter .access h hk).bind fun operand s₁ h₁ => ensures_look ?_
    refine ensures_ite (fun _ => ?_) fun _ => ensures_pure h₁
    exact (ensures_advance h₁).bind fun _ s₂ h₂ => ensures_build h₂ (by simp) (by omega)

theorem ensures_castType (h : Reached m k a ns s) :
    Ensures castType s fun _ => Reached m k a ns :=
  ensures_ifAcceptWord h (fun _ h₁ => ensures_pure (h₁.weaken (by omega))) fun _ h₁ => ensures_typeUpTo _ h₁

theorem ensures_binaryStep (hgo : Covers m go) {above start : Nat} {left : Node}
    (h : Reached m k a (ns ++ [left]) s) :
    Ensures (binaryStep go above start left) s (Climbed m k a ns) := by
  refine ensures_look ?_
  dsimp only
  cases hop : operator? above s.current with
  | none => exact ensures_done h
  | some precedence =>
    have hne := h.rest_ne_nil (isEnd_of_operator? hop)
    refine (ensures_advance_token h hne).bind fun _ s₁ h₁ => ensures_ite (fun _ => ?_) fun _ => ?_
    · refine (ensures_castType h₁).bind fun declared s₂ h₂ => ?_
      exact (ensures_buildNamed h₂ (by simp) (by omega)).bind fun n s₃ h₃ => ensures_more h₃
    · refine (hgo.fresh h₁ (by omega)).bind fun right s₂ h₂ => ?_
      exact (ensures_build h₂ (by simp) (by omega)).bind fun n s₃ h₃ => ensures_more h₃

theorem ensures_binary (hgo : Covers m go) {above : Nat} (hk : 4 ≤ k) (h : Reached m k a ns s) :
    Ensures (binary go above) s fun n => Reached m k a (ns ++ [n]) := by
  refine ensures_here ((hgo.enter .unary h hk).bind fun first s₁ h₁ => ?_)
  exact ensures_climb (fun j s left _ h => ensures_binaryStep hgo h) h₁

theorem ensures_conditional (hgo : Covers m go) (hk : 5 ≤ k) (h : Reached m k a ns s) :
    Ensures (conditional go) s fun n => Reached m k a (ns ++ [n]) := by
  refine ensures_here ((hgo.enter (.binary 0) h hk).bind fun test s₁ h₁ => ?_)
  refine ensures_ifAccept h₁ (fun s₂ h₂ => ?_) fun _ => ensures_pure h₁
  refine (hgo.fresh h₂ (by omega)).bind fun whenTrue s₃ h₃ => ?_
  refine (ensures_expect ":" h₃).bind fun _ s₄ h₄ => ?_
  exact (hgo.fresh h₄ (by omega)).bind fun whenFalse s₅ h₅ => ensures_build h₅ (by simp) (by omega)

theorem ensures_yielded (hgo : Covers m go) {start : Nat} (h : Reached m k a ns s)
    (hs : s.isAtWord "yield" = true) :
    Ensures (yielded go start) s fun n => Reached m k a (ns ++ [n]) := by
  refine (ensures_advance_token h (h.ne_nil_of_isAtWord hs)).bind fun _ s₁ h₁ => ?_
  refine (ensures_optional "*" h₁).bind fun _ s₂ h₂ => ensures_look ?_
  refine ensures_ite (fun _ => ensures_build h₂ (by simp) (by omega)) fun _ => ?_
  exact (hgo.fresh h₂ (by omega)).bind fun value s₃ h₃ => ensures_build h₃ (by simp) (by omega)

theorem ensures_assignment (hgo : Covers m go) (hk : 5 ≤ k) (h : Reached m k a ns s) :
    Ensures (assignment go) s fun n => Reached m k a (ns ++ [n]) := by
  refine ensures_here (ensures_look (ensures_ite (fun hs => ensures_yielded hgo h hs) fun _ => ?_))
  refine (ensures_conditional hgo hk h).bind fun target s₁ h₁ => ensures_look ?_
  refine ensures_ite (fun hs => ?_) fun _ => ensures_pure h₁
  have hne := h₁.rest_ne_nil (isEnd_of_isPunctOf hs)
  refine (ensures_advance_token h₁ hne).bind fun _ s₂ h₂ => ?_
  exact (hgo.fresh h₂ (by omega)).bind fun value s₃ h₃ => ensures_build h₃ (by simp) (by omega)

end Subscriptions.Grammar
