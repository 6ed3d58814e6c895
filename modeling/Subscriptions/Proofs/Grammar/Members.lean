import Subscriptions.Grammar.Members
import Subscriptions.Proofs.Grammar.Primitives

namespace Subscriptions.Grammar

variable {m k j : Nat} {go : Recur} {a s : State} {ns : List Node}

theorem ensures_memberName (h : Reached m k a ns s) :
    Ensures memberName s fun _ => Reached m k a ns := by
  refine ensures_look (ensures_ite (fun _ => ?_) fun _ => ensures_ite (fun _ => ?_) fun _ => ?_)
  · exact (ensures_advance h).bind fun _ _ h₁ => ensures_pure h₁
  · refine ensures_here ((ensures_skip h (balanced_suffix 0)).bind fun _ _ h₁ => ?_)
    exact ensures_look (ensures_pure h₁)
  · exact (ensures_report _ h).bind fun _ _ h₁ => ensures_pure h₁.1

theorem ensures_decorator (hgo : Covers m go) (h : Reached m k a ns s) (hs : s.isAt "@" = true) :
    Ensures (do
      let start ← here
      advance
      let expression ← go .access
      return ([← build .decorator start [expression]], true)) s fun r s' =>
        r.2 = true ∧ Reached m (k + 8) a (ns ++ r.1) s' := by
  refine ensures_here ((ensures_advance_token h (h.ne_nil_of_isAt hs)).bind fun _ s₁ h₁ => ?_)
  refine (hgo.fresh h₁ (by omega)).bind fun expression s₂ h₂ => ?_
  exact (ensures_build h₂ (by simp) (by omega)).bind fun n s₃ h₃ => ensures_pure ⟨rfl, h₃⟩

theorem turns_decorators (hgo : Covers m go) : Turns m k a (do
    if (← look).isAt "@" then
      let start ← here
      advance
      let expression ← go .access
      return ([← build .decorator start [expression]], true)
    else return ([], false)) := by
  intro j ns s _ h
  refine ensures_look (ensures_ite (fun hs => ?_) fun _ => ensures_stop h)
  refine (ensures_decorator hgo h hs).mono fun r s₁ hr => ?_
  obtain ⟨nodes, more⟩ := r
  obtain ⟨rfl, h₁⟩ := hr
  exact h₁

theorem ensures_decorators (hgo : Covers m go) (h : Reached m k a ns s) :
    Ensures (decorators go) s fun nodes => Reached m k a (ns ++ nodes) :=
  ensures_gather (turns_decorators hgo) h

theorem ensures_decorators_at (hgo : Covers m go) (h : Reached m k a ns s)
    (hs : s.isAt "@" = true) :
    Ensures (decorators go) s fun nodes => Reached m (k + 8) a (ns ++ nodes) :=
  ensures_gather_more (turns_decorators hgo) h fun _ h₁ =>
    ensures_look (ensures_ite (fun _ => ensures_decorator hgo h₁ hs) fun hn => absurd hs hn)

theorem ensures_initializer (hgo : Covers m go) (h : Reached m k a ns s) :
    Ensures (initializer go) s fun nodes => Reached m k a (ns ++ nodes) := by
  refine ensures_ifAccept h (fun s₁ h₁ => ?_) fun _ => ensures_pure h.nil
  exact (hgo.fresh h₁ (by omega)).bind fun value s₂ h₂ => ensures_pure (h₂.weaken (by omega))

theorem ensures_parameterName (h : Reached m k a ns s) :
    Ensures parameterName s fun _ => Reached m k a ns := by
  refine ensures_look (ensures_ite (fun _ => ?_) fun _ => ensures_ite (fun _ => ?_) fun _ => ?_)
  · exact (ensures_takeName h).bind fun _ _ h₁ => ensures_pure h₁
  · exact (ensures_skipBalanced h).bind fun _ _ h₁ => ensures_pure h₁
  · refine (ensures_report _ h).bind fun _ s₁ h₁ => ensures_ite (fun _ => ?_) fun _ => ?_
    · exact (ensures_advance h₁.1).bind fun _ _ h₂ => ensures_pure h₂
    · exact ensures_pure h₁.1

theorem ensures_parameter (hgo : Covers m go) (h : Reached m k a ns s) :
    Ensures (parameter go) s fun n => Reached m k a (ns ++ [n]) := by
  refine ensures_here ((ensures_decorators hgo h).bind fun decorations s₁ h₁ => ?_)
  refine ensures_look ((ensures_advanceBy _ h₁).bind fun _ s₂ h₂ => ?_)
  refine (ensures_optional "..." h₂).bind fun _ s₃ h₃ => ?_
  refine (ensures_parameterName h₃).bind fun name s₄ h₄ => ?_
  refine (ensures_optional "?" h₄).bind fun _ s₅ h₅ => ?_
  refine (ensures_annotated _ h₅).bind fun declared s₆ h₆ => ?_
  refine (ensures_initializer hgo h₆).bind fun value s₇ h₇ => ?_
  exact ensures_buildNamed h₇ (by simp) (by omega)

/-- Parameters in parentheses read these. -/
theorem ensures_parameters (hgo : Covers m go) (h : Reached m k a ns s) :
    Ensures (parameters go) s fun nodes s' => Reached m k a (ns ++ nodes) s' ∧
      (s.isAt "(" = true → Reached m (k + 8) a (ns ++ nodes) s') := by
  refine ensures_ifAccept h (fun s₁ h₁ => ?_) fun hs => ?_
  · refine (ensures_gather (fun j ns s _ h => ?_) h₁).bind fun nodes s₂ h₂ => ?_
    · refine ensures_look (ensures_ite (fun _ => ensures_stop h) fun _ => ?_)
      refine (ensures_parameter hgo h).bind fun node s₁ h₁ => ?_
      exact (ensures_accept "," h₁).bind fun more s₂ h₂ => ensures_pure h₂
    · exact (ensures_expect ")" h₂).bind fun _ s₃ h₃ => ensures_pure ⟨h₃.weaken (by omega), fun _ => h₃⟩
  · refine (ensures_report _ h).bind fun _ s₁ h₁ => ensures_pure ?_
    rw [hs]
    exact ⟨h₁.1.nil, fun hn => nomatch hn⟩

/-- Where a statement reads nothing, the token that is skipped makes room for the next turn. -/
theorem ensures_statementTurn (hgo : Covers m go) (hk : 7 ≤ k) (h : Reached m k a ns s)
    (hs : s.rest ≠ []) :
    Ensures (do
      let (node, progress) ← moved (go .statement)
      if !progress then
        report .statement
        advance
      return ([node], true)) s (Turned m k a ns) := by
  refine (ensures_moved h fun i hi h => hgo.fresh h (by omega)).bind fun r s₁ h₁ => ?_
  obtain ⟨node, progress⟩ := r
  cases progress with
  | true => exact ensures_pure h₁.1
  | false =>
    refine (ensures_report _ h₁.1).bind fun _ s₂ h₂ => ?_
    exact (ensures_advance_token h₂.1 (h₂.2 ▸ h₁.2 rfl hs)).bind fun _ s₃ h₃ => ensures_pure h₃

theorem ensures_statementsToBrace (hgo : Covers m go) (hk : 7 ≤ k) (h : Reached m k a ns s) :
    Ensures (statementsToBrace go) s fun nodes => Reached m k a (ns ++ nodes) := by
  refine ensures_gather (fun j ns s hj h => ?_) h
  refine ensures_look (ensures_ite (fun _ => ensures_stop h) fun hs => ?_)
  exact ensures_statementTurn hgo (Nat.le_trans hk hj) h (rest_ne_nil_of_not_atEnd hs)

/-- A block has the room that its opening brace leaves. -/
theorem ensures_block (hgo : Covers m go)
    (h : Ensures (expect "\x7b") s fun _ => Reached m k a ns) (hk : 7 ≤ k) :
    Ensures (block go) s fun n => Reached m k a (ns ++ [n]) := by
  refine ensures_here (h.bind fun _ s₁ h₁ => ?_)
  refine (ensures_statementsToBrace hgo hk h₁).bind fun statements s₂ h₂ => ?_
  refine (ensures_expect "\x7d" h₂).bind fun _ s₃ h₃ => ?_
  exact ensures_build h₃ (by simp) (by omega)

theorem ensures_bodyOrSemicolon (hgo : Covers m go) (h : Reached m k a ns s) :
    Ensures (bodyOrSemicolon go) s fun nodes => Reached m k a (ns ++ nodes) := by
  refine ensures_look (ensures_ite (fun hs => ?_) fun _ => ?_)
  · refine (ensures_block hgo (ensures_expect_at h hs) (by omega)).bind fun n s₁ h₁ => ?_
    exact ensures_pure (h₁.weaken (by omega))
  · exact (ensures_optional ";" h).bind fun _ s₁ h₁ => ensures_pure h₁.nil

theorem ensures_function (hgo : Covers m go) (kind : Kind) (h : Reached m k a ns s) :
    Ensures (function go kind) s fun n => Reached m k a (ns ++ [n]) := by
  refine ensures_here ((ensures_advance h).bind fun _ s₁ h₁ => ?_)
  refine (ensures_optional "*" h₁).bind fun _ s₂ h₂ => ?_
  refine (ensures_takeNameIfWord h₂).bind fun name s₃ h₃ => ?_
  refine (ensures_skipAngles h₃).bind fun _ s₄ h₄ => ?_
  refine (ensures_parameters hgo h₄).bind fun params s₅ h₅ => ?_
  refine (ensures_annotated _ h₅.1).bind fun returned s₆ h₆ => ?_
  refine (ensures_bodyOrSemicolon hgo h₆).bind fun body s₇ h₇ => ?_
  exact ensures_buildNamed h₇ (by simp) (by omega)

theorem ensures_accessorKind (h : Reached m k a ns s) :
    Ensures accessorKind s fun _ => Reached m k a ns := by
  refine ensures_look (ensures_ite (fun _ => ?_) fun _ => ensures_pure h)
  exact (ensures_advance h).bind fun _ s₁ h₁ => ensures_pure h₁

theorem ensures_constructorMember (hgo : Covers m go) (start : Nat) (h : Reached m k a ns s) :
    Ensures (constructorMember go start) s fun n => Reached m k a (ns ++ [n]) := by
  refine (ensures_advance h).bind fun _ s₁ h₁ => ?_
  refine (ensures_parameters hgo h₁).bind fun params s₂ h₂ => ?_
  refine (ensures_bodyOrSemicolon hgo h₂.1).bind fun body s₃ h₃ => ?_
  exact ensures_build h₃ (by simp) (by omega)

theorem ensures_methodMember (hgo : Covers m go) (kind : Kind) (start : Nat) (name : Option Name)
    (h : Reached m k a ns s) :
    Ensures (methodMember go kind start name) s fun n => Reached m k a (ns ++ [n]) := by
  refine (ensures_skipAngles h).bind fun _ s₁ h₁ => ?_
  refine (ensures_parameters hgo h₁).bind fun params s₂ h₂ => ?_
  refine (ensures_annotated _ h₂.1).bind fun returned s₃ h₃ => ?_
  refine (ensures_bodyOrSemicolon hgo h₃).bind fun body s₄ h₄ => ?_
  exact ensures_buildNamed h₄ (by simp) (by omega)

theorem ensures_propertyMember (hgo : Covers m go) (start : Nat) (name : Option Name)
    (h : Reached m k a ns s) :
    Ensures (propertyMember go start name) s fun n => Reached m k a (ns ++ [n]) := by
  refine (ensures_annotated _ h).bind fun declared s₁ h₁ => ?_
  refine (ensures_initializer hgo h₁).bind fun value s₂ h₂ => ?_
  refine (ensures_optional ";" h₂).bind fun _ s₃ h₃ => ?_
  exact ensures_buildNamed h₃ (by simp) (by omega)

theorem ensures_undecoratedMember (hgo : Covers m go) (h : Reached m k a ns s) :
    Ensures (undecoratedMember go) s fun n => Reached m k a (ns ++ [n]) := by
  refine ensures_here (ensures_look (ensures_ite (fun hs => ?_) fun _ => ?_))
  · have hne := h.ne_nil_of_isAtWord ((Bool.and_eq_true _ _).mp hs).1
    refine (ensures_advance_token h hne).bind fun _ s₁ h₁ => ?_
    exact (ensures_block hgo (ensures_expect _ h₁) (by omega)).mono fun n s₂ h₂ => h₂.weaken (by omega)
  · refine (ensures_advanceBy _ h).bind fun _ s₁ h₁ => ?_
    refine (ensures_accessorKind h₁).bind fun kind s₂ h₂ => ?_
    refine (ensures_optional "*" h₂).bind fun _ s₃ h₃ => ensures_look ?_
    refine ensures_ite (fun _ => ensures_constructorMember hgo _ h₃) fun _ => ?_
    refine (ensures_memberName h₃).bind fun name s₄ h₄ => ?_
    refine (ensures_optional "?" h₄).bind fun _ s₅ h₅ => ?_
    refine (ensures_optional "!" h₅).bind fun _ s₆ h₆ => ensures_look ?_
    exact ensures_ite (fun _ => ensures_methodMember hgo _ _ _ h₆)
      fun _ => ensures_propertyMember hgo _ _ h₆

theorem ensures_classMembers (hgo : Covers m go) (h : Reached m k a ns s) :
    Ensures (classMembers go) s fun nodes => Reached m k a (ns ++ nodes) := by
  refine ensures_gather (fun j ns s hj h => ?_) h
  refine ensures_look (ensures_ite (fun _ => ensures_stop h) fun hs => ?_)
  have hne := rest_ne_nil_of_not_atEnd hs
  refine ensures_ite (fun _ => ?_) fun _ => ?_
  · exact (ensures_advance_token h hne).bind fun _ s₁ h₁ => ensures_next h₁
  · obtain ⟨hk, htight⟩ := h.tight
    refine (ensures_decorators hgo htight).bind fun decorations s₁ h₁ => ?_
    refine (ensures_undecoratedMember hgo h₁).bind fun member s₂ h₂ => ?_
    refine ensures_look (ensures_ite (fun heq => ?_) fun hlt => ?_)
    · have hne₂ : s₂.rest ≠ [] := by
        rwa [← List.length_pos_iff, eq_of_beq heq, List.length_pos_iff]
      refine (ensures_report _ (h₂.weaken hk)).bind fun _ s₃ h₃ => ?_
      refine (ensures_advance_token h₃.1 (h₃.2 ▸ hne₂)).bind fun _ s₄ h₄ => ensures_pure ?_
      exact h₄.join
    · have hne₂ : s₂.rest.length ≠ s.rest.length := fun heq => hlt (beq_iff_eq.mpr heq)
      exact ensures_pure (h₂.gain h hne₂).join

theorem ensures_heritage (hgo : Covers m go) (h : Reached m k a ns s) :
    Ensures (heritage go) s fun nodes => Reached m k a (ns ++ nodes) := by
  refine ensures_ifAcceptWord h (fun s₁ h₁ => ?_) fun s₁ h₁ => ensures_pure h₁.nil
  refine (hgo.fresh h₁ (by omega)).bind fun base s₂ h₂ => ?_
  exact (ensures_skipAngles h₂).bind fun _ s₃ h₃ => ensures_pure (h₃.weaken (by omega))

theorem ensures_classBody (hgo : Covers m go) {decorations : List Node}
    (h : Reached m k a (ns ++ decorations) s) :
    Ensures (classBody go decorations) s fun n => Reached m k a (ns ++ [n]) := by
  refine ensures_here ((ensures_advance h).bind fun _ s₁ h₁ => ensures_look ?_)
  refine ensures_join (P := fun _ => Reached m k a (ns ++ decorations))
    (ensures_ite (fun _ => ensures_pure h₁) fun _ => ensures_takeNameIfWord h₁) fun name s₂ h₂ => ?_
  refine (ensures_skipAngles h₂).bind fun _ s₃ h₃ => ?_
  refine (ensures_heritage hgo h₃).bind fun base s₄ h₄ => ?_
  have hbraces : ∀ s', Reached m k a (ns ++ decorations ++ base) s' → Ensures (do
      expect "\x7b"
      let members ← classMembers go
      expect "\x7d"
      buildNamed .classDeclaration s.current.span.start name none (decorations ++ base ++ members))
      s' fun n => Reached m k a (ns ++ [n]) := by
    intro s' h'
    refine (ensures_expect "\x7b" h').bind fun _ s₅ h₅ => ?_
    refine (ensures_classMembers hgo h₅).bind fun members s₆ h₆ => ?_
    refine (ensures_expect "\x7d" h₆).bind fun _ s₇ h₇ => ?_
    exact ensures_buildNamed h₇ (by simp) (by omega)
  refine ensures_ifAcceptWord h₄ (fun s₅ h₅ => ?_) hbraces
  exact (ensures_typeUpTo _ (h₅.weaken (by omega))).bind fun _ s₆ h₆ => hbraces s₆ h₆

end Subscriptions.Grammar
