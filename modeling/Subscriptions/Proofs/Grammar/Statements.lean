import Mathlib.Logic.Basic
import Subscriptions.Grammar.Statement
import Subscriptions.Proofs.Grammar.Expressions

namespace Subscriptions.Grammar

theorem clauseTokens_suffix (inner : Nat) (first : Bool) (previous : Token) (ts : List Token) :
    (clauseTokens inner first previous ts).2 <:+ ts := by
  fun_induction clauseTokens inner first previous ts <;> simp_all [take, List.suffix_cons_iff]

theorem namespaceName_suffix (ts : List Token) : (namespaceName ts).2 <:+ ts := by
  fun_induction namespaceName ts <;> simp_all [take, List.suffix_cons_iff]

/-- Blocks and decorated statements start with a punctuator. -/
theorem wordStatementForm_ne (s : State) :
    wordStatementForm s ≠ .block ∧ wordStatementForm s ≠ .decorated := by
  constructor <;>
    simp only [wordStatementForm, ne_eq, ite_eq_iff, reduceCtorEq, and_false, or_self,
      not_false_eq_true]

theorem isAt_of_form_block {s : State} (h : statementForm s = .block) : s.isAt "\x7b" = true := by
  rw [statementForm] at h
  split at h
  · rename_i hkind
    simp only [punctForm, ite_eq_iff, reduceCtorEq, and_false, or_false, and_true,
      beq_iff_eq] at h
    rw [State.isAt, Token.isPunct, hkind, h]
    rfl
  · exact absurd h (wordStatementForm_ne s).1
  · cases h

theorem isAt_of_form_decorated {s : State} (h : statementForm s = .decorated) :
    s.isAt "@" = true := by
  rw [statementForm] at h
  split at h
  · rename_i hkind
    simp only [punctForm, ite_eq_iff, reduceCtorEq, and_false, false_or, and_true,
      or_false, beq_iff_eq] at h
    rw [State.isAt, Token.isPunct, hkind, h.2.2]
    rfl
  · exact absurd h (wordStatementForm_ne s).2
  · cases h

theorem isEnd_of_statementForm {s : State} (h : statementForm s ≠ .expression) :
    s.current.isEnd = false := by
  rw [statementForm] at h
  split at h
  · rename_i hkind
    exact isEnd_of_kind hkind (by decide)
  · rename_i hkind
    exact isEnd_of_kind hkind (by decide)
  · exact absurd rfl h

variable {m k j : Nat} {go : Recur} {a s : State} {ns : List Node}

theorem ensures_moduleClause {keyword : Token} (h : Reached m k a ns s) :
    Ensures (moduleClause keyword) s fun _ => Reached m k a ns :=
  (ensures_skip h (clauseTokens_suffix 0 true keyword)).bind fun _ _ h₁ => ensures_pure h₁

theorem ensures_importClause (h : Reached m k a ns s) :
    Ensures importClause s fun n => Reached m k a (ns ++ [n]) := by
  refine ensures_here (ensures_look ((ensures_advance h).bind fun _ s₁ h₁ => ?_))
  exact (ensures_moduleClause h₁).bind fun _ s₂ h₂ => ensures_build h₂ (by simp) (by omega)

theorem ensures_enumeration (h : Reached m k a ns s) :
    Ensures enumeration s fun n => Reached m k a (ns ++ [n]) := by
  refine ensures_here ((ensures_advance h).bind fun _ s₁ h₁ => ?_)
  refine (ensures_takeNameIfWord h₁).bind fun name s₂ h₂ => ensures_look ?_
  refine ensures_ite (fun _ => ?_) fun _ => ensures_buildNamed h₂ (by simp) (by omega)
  exact (ensures_skipBalanced h₂).bind fun _ s₃ h₃ => ensures_buildNamed h₃ (by simp) (by omega)

/-- No node stands before the body of an interface. -/
theorem eq_nil_of_interfaceHeading {depth : Nat} {s s' : State} {nodes : List Node}
    (h : interfaceHeading depth s = some (nodes, s')) : nodes = [] := by
  refine eq_nil_of_turns (fun s r s' hr => ?_) h
  rw [Parse.bind_run, look, Option.bind_some] at hr
  dsimp only at hr
  split at hr
  · cases hr
    rfl
  · split at hr
    all_goals
      rw [Parse.bind_run, Option.bind_eq_some_iff] at hr
      obtain ⟨_, -, hr⟩ := hr
      cases hr
      rfl

theorem ensures_interfaceHeading (h : Reached m k a ns s) :
    Ensures interfaceHeading s fun _ => Reached m k a ns := by
  have hgather : Ensures interfaceHeading s fun nodes => Reached m k a (ns ++ nodes) := by
    refine ensures_gather (fun j ns s _ h => ?_) h
    refine ensures_look (ensures_ite (fun _ => ensures_stop h) fun hs => ?_)
    refine ensures_join (P := fun _ => Reached m (j + 8) a ns)
      (ensures_ite (fun hangle => ensures_skipAngles_at h hangle) fun _ => ?_)
      fun _ s₁ h₁ => ensures_next h₁
    exact ensures_advance_token h (rest_ne_nil_of_not_atEnd hs)
  intro depth
  obtain ⟨nodes, s', hrun, h'⟩ := hgather depth
  rw [eq_nil_of_interfaceHeading hrun, List.append_nil] at h'
  exact ⟨nodes, s', hrun, h'⟩

theorem ensures_interface (h : Reached m k a ns s) :
    Ensures interface s fun n => Reached m k a (ns ++ [n]) := by
  refine ensures_here ((ensures_advance h).bind fun _ s₁ h₁ => ?_)
  refine (ensures_takeName h₁).bind fun name s₂ h₂ => ?_
  refine (ensures_interfaceHeading h₂).bind fun nodes s₃ h₃ => ?_
  exact (ensures_skipBalanced h₃).bind fun _ s₄ h₄ => ensures_buildNamed h₄ (by simp) (by omega)

theorem ensures_typeAlias (h : Reached m k a ns s) :
    Ensures typeAlias s fun n => Reached m k a (ns ++ [n]) := by
  refine ensures_here ((ensures_advance h).bind fun _ s₁ h₁ => ?_)
  refine (ensures_takeName h₁).bind fun name s₂ h₂ => ?_
  refine (ensures_skipAngles h₂).bind fun _ s₃ h₃ => ?_
  refine (ensures_expect "=" h₃).bind fun _ s₄ h₄ => ?_
  refine (ensures_typeUpTo _ h₄).bind fun declared s₅ h₅ => ?_
  exact (ensures_optional ";" h₅).bind fun _ s₆ h₆ => ensures_buildNamed h₆ (by simp) (by omega)

theorem ensures_jump (h : Reached m k a ns s) :
    Ensures jump s fun n => Reached m k a (ns ++ [n]) := by
  refine ensures_here ((ensures_advance h).bind fun _ s₁ h₁ => ensures_look ?_)
  have hend : ∀ s', Reached m k a ns s' → Ensures (do
      optional ";"
      build .jumpStatement s.current.span.start []) s' fun n => Reached m k a (ns ++ [n]) :=
    fun s' h' => (ensures_optional ";" h').bind fun _ s₂ h₂ => ensures_build h₂ (by simp) (by omega)
  refine ensures_ite (fun _ => ?_) fun _ => hend s₁ h₁
  exact (ensures_advance h₁).bind fun _ s₂ h₂ => hend s₂ h₂

theorem ensures_variableName (h : Reached m k a ns s) :
    Ensures variableName s fun _ => Reached m k a ns := by
  refine ensures_look (ensures_ite (fun _ => ?_) fun _ => ensures_ite (fun _ => ?_) fun _ => ?_)
  · exact (ensures_takeName h).bind fun _ _ h₁ => ensures_pure h₁
  · exact (ensures_skipBalanced h).bind fun _ _ h₁ => ensures_pure h₁
  · exact (ensures_report _ h).bind fun _ _ h₁ => ensures_pure h₁.1

theorem ensures_caughtName (h : Reached m k a ns s) :
    Ensures caughtName s fun _ => Reached m k a ns := by
  refine ensures_look (ensures_ite (fun _ => ?_) fun _ => ?_)
  · exact (ensures_takeName h).bind fun _ _ h₁ => ensures_pure h₁
  · exact (ensures_skipBalanced h).bind fun _ _ h₁ => ensures_pure h₁

theorem ensures_variableDeclaration (hgo : Covers m go) (h : Reached m k a ns s) :
    Ensures (variableDeclaration go) s fun n => Reached m k a (ns ++ [n]) := by
  refine ensures_here ((ensures_variableName h).bind fun name s₁ h₁ => ?_)
  refine (ensures_optional "!" h₁).bind fun _ s₂ h₂ => ?_
  refine (ensures_annotated _ h₂).bind fun declared s₃ h₃ => ?_
  exact (ensures_initializer hgo h₃).bind fun value s₄ h₄ => ensures_buildNamed h₄ (by simp) (by omega)

theorem ensures_variableStatement (hgo : Covers m go) (h : Reached m k a ns s)
    (hs : s.rest ≠ []) :
    Ensures (variableStatement go) s fun n => Reached m (k + 8) a (ns ++ [n]) := by
  refine ensures_here ((ensures_advance_token h hs).bind fun _ s₁ h₁ => ?_)
  refine (ensures_gather (fun j ns s _ h => ?_) h₁).bind fun nodes s₂ h₂ => ensures_build h₂ (by simp) (by omega)
  refine (ensures_variableDeclaration hgo h).bind fun node s₁ h₁ => ?_
  exact (ensures_accept "," h₁).bind fun more s₂ h₂ => ensures_pure h₂

theorem ensures_expressionStatement (hgo : Covers m go) {start : Nat} (hk : 6 ≤ k)
    (h : Reached m k a ns s) :
    Ensures (expressionStatement go start) s fun n => Reached m k a (ns ++ [n]) := by
  refine (ensures_expression hgo hk h).bind fun value s₁ h₁ => ?_
  exact (ensures_optional ";" h₁).bind fun _ s₂ h₂ => ensures_build h₂ (by simp) (by omega)

theorem ensures_exportClause (hgo : Covers m go) (h : Reached m k a ns s) (hs : s.rest ≠ []) :
    Ensures (exportClause go) s fun n => Reached m k a (ns ++ [n]) := by
  refine ensures_here (ensures_look ((ensures_advance_token h hs).bind fun _ s₁ h₁ => ?_))
  refine ensures_look (ensures_ite (fun _ => ?_) fun _ => ensures_ite (fun _ => ?_) fun _ => ?_)
  · exact (ensures_moduleClause h₁).bind fun _ s₂ h₂ => ensures_build h₂ (by simp) (by omega)
  · refine (ensures_advance h₁).bind fun _ s₂ h₂ => ?_
    exact (ensures_expressionStatement hgo (by omega) h₂).mono fun n s₃ h₃ => h₃.weaken (by omega)
  · refine (ensures_optionalWord _ h₁).bind fun _ s₂ h₂ => ?_
    exact (hgo.fresh h₂ (by omega)).mono fun n s₃ h₃ => h₃.weaken (by omega)

theorem ensures_namespaceBody (hgo : Covers m go) (h : Reached m k a ns s) (hs : s.rest ≠ []) :
    Ensures (namespaceBody go) s fun n => Reached m k a (ns ++ [n]) := by
  refine (ensures_advance_token h hs).bind fun _ s₁ h₁ => ?_
  refine (ensures_skip h₁ namespaceName_suffix).bind fun _ s₂ h₂ => ensures_look ?_
  refine ensures_ite (fun _ => ?_) fun _ => ensures_here ?_
  · exact (ensures_block hgo (ensures_expect _ h₂) (by omega)).mono fun n s₃ h₃ => h₃.weaken (by omega)
  · exact (ensures_optional ";" h₂).bind fun _ s₃ h₃ => ensures_build h₃ (by simp) (by omega)

theorem ensures_decoratedStatement (hgo : Covers m go) (h : Reached m k a ns s)
    (hs : s.isAt "@" = true) :
    Ensures (decoratedStatement go) s fun n => Reached m k a (ns ++ [n]) := by
  refine ensures_here ((ensures_decorators_at hgo h hs).bind fun decorations s₁ h₁ => ?_)
  refine (ensures_optionalWord _ h₁).bind fun _ s₂ h₂ => ?_
  refine (ensures_optionalWord _ h₂).bind fun _ s₃ h₃ => ?_
  refine (ensures_optionalWord _ h₃).bind fun _ s₄ h₄ => ensures_look ?_
  refine ensures_ite (fun _ => ensures_classBody hgo (h₄.weaken (by omega))) fun _ => ?_
  exact (hgo.fresh h₄ (by omega)).bind fun statement s₅ h₅ => ensures_build h₅ (by simp) (by omega)

theorem ensures_returning (hgo : Covers m go) (h : Reached m k a ns s) (hs : s.rest ≠ []) :
    Ensures (returning go) s fun n => Reached m k a (ns ++ [n]) := by
  refine ensures_here ((ensures_advance_token h hs).bind fun _ s₁ h₁ => ensures_look ?_)
  have hend : ∀ value s', Reached m (k + 8) a (ns ++ value) s' → Ensures (do
      optional ";"
      build .returnStatement s.current.span.start value) s' fun n => Reached m k a (ns ++ [n]) :=
    fun value s' h' => (ensures_optional ";" h').bind fun _ s₂ h₂ => ensures_build h₂ (by simp) (by omega)
  refine ensures_ite (fun _ => hend [] s₁ h₁.nil) fun _ => ?_
  exact (ensures_expression hgo (by omega) h₁).bind fun value s₂ h₂ => hend [value] s₂ h₂

theorem ensures_condition (hgo : Covers m go) (hk : 6 ≤ k) (h : Reached m k a ns s) :
    Ensures (condition go) s fun n => Reached m k a (ns ++ [n]) := by
  refine (ensures_expect "(" h).bind fun _ s₁ h₁ => ?_
  refine (ensures_expression hgo hk h₁).bind fun value s₂ h₂ => ?_
  exact (ensures_expect ")" h₂).bind fun _ s₃ h₃ => ensures_pure h₃

theorem ensures_branch (hgo : Covers m go) (h : Reached m k a ns s) (hs : s.rest ≠ []) :
    Ensures (branch go) s fun n => Reached m k a (ns ++ [n]) := by
  refine ensures_here ((ensures_advance_token h hs).bind fun _ s₁ h₁ => ?_)
  refine (ensures_condition hgo (by omega) h₁).bind fun test s₂ h₂ => ?_
  refine (hgo.fresh h₂ (by omega)).bind fun whenTrue s₃ h₃ => ?_
  refine ensures_ifAcceptWord h₃ (fun s₄ h₄ => ?_) fun s₄ h₄ => ensures_build h₄ (by simp) (by omega)
  exact (hgo.fresh h₄ (by omega)).bind fun whenFalse s₅ h₅ => ensures_build h₅ (by simp) (by omega)

theorem ensures_forHead (hgo : Covers m go) (hk : 6 ≤ k) (h : Reached m k a ns s) :
    Ensures (forHead go) s fun nodes => Reached m k a (ns ++ nodes) := by
  refine ensures_gather (fun j ns s hj h => ?_) h
  refine ensures_look (ensures_ite (fun _ => ensures_stop h) fun hs => ?_)
  have hne := rest_ne_nil_of_not_atEnd hs
  refine ensures_ite (fun _ => ?_) fun _ => ensures_ite (fun _ => ?_) fun _ => ?_
  · exact (ensures_advance_token h hne).bind fun _ s₁ h₁ => ensures_next h₁
  · exact (ensures_variableStatement hgo h hne).bind fun n s₁ h₁ => ensures_pure h₁
  · refine (ensures_moved h fun i hi hs => ensures_expression hgo (by omega) hs).bind
      fun r s₁ h₁ => ?_
    exact ensures_pure h₁.1

theorem ensures_forLoop (hgo : Covers m go) (h : Reached m k a ns s) (hs : s.rest ≠ []) :
    Ensures (forLoop go) s fun n => Reached m k a (ns ++ [n]) := by
  refine ensures_here ((ensures_advance_token h hs).bind fun _ s₁ h₁ => ?_)
  refine (ensures_optionalWord _ h₁).bind fun _ s₂ h₂ => ?_
  refine (ensures_expect "(" h₂).bind fun _ s₃ h₃ => ?_
  refine (ensures_forHead hgo (by omega) h₃).bind fun head s₄ h₄ => ?_
  refine (ensures_expect ")" h₄).bind fun _ s₅ h₅ => ?_
  exact (hgo.fresh h₅ (by omega)).bind fun body s₆ h₆ => ensures_build h₆ (by simp) (by omega)

theorem ensures_whileLoop (hgo : Covers m go) (h : Reached m k a ns s) (hs : s.rest ≠ []) :
    Ensures (whileLoop go) s fun n => Reached m k a (ns ++ [n]) := by
  refine ensures_here ((ensures_advance_token h hs).bind fun _ s₁ h₁ => ?_)
  refine (ensures_condition hgo (by omega) h₁).bind fun test s₂ h₂ => ?_
  exact (hgo.fresh h₂ (by omega)).bind fun body s₃ h₃ => ensures_build h₃ (by simp) (by omega)

theorem ensures_doLoop (hgo : Covers m go) (h : Reached m k a ns s) (hs : s.rest ≠ []) :
    Ensures (doLoop go) s fun n => Reached m k a (ns ++ [n]) := by
  refine ensures_here ((ensures_advance_token h hs).bind fun _ s₁ h₁ => ?_)
  refine (hgo.fresh h₁ (by omega)).bind fun body s₂ h₂ => ?_
  have hend : ∀ test s', Reached m (k + 8) a (ns ++ [body] ++ test) s' → Ensures (do
      optional ";"
      build .loopStatement s.current.span.start (body :: test)) s'
      fun n => Reached m k a (ns ++ [n]) :=
    fun test s' h' => (ensures_optional ";" h').bind fun _ s₂ h₂ => ensures_build h₂ (by simp) (by omega)
  refine ensures_ifAcceptWord h₂ (fun s₃ h₃ => ?_) fun s₃ h₃ => hend [] s₃ h₃.nil
  refine (ensures_condition hgo (by omega) h₃).bind fun test s₄ h₄ => ?_
  exact hend [test] s₄ (h₄.weaken (by omega))

theorem ensures_caseStatements (hgo : Covers m go) (hk : 7 ≤ k) (h : Reached m k a ns s) :
    Ensures (caseStatements go) s fun nodes => Reached m k a (ns ++ nodes) := by
  refine ensures_gather (fun j ns s hj h => ?_) h
  refine ensures_look (ensures_ite (fun _ => ensures_stop h) fun hs => ?_)
  refine (ensures_moved h fun i hi hs => hgo.fresh hs (by omega)).bind fun r s₁ h₁ => ?_
  obtain ⟨node, progress⟩ := r
  cases progress with
  | true => exact ensures_pure h₁.1
  | false =>
    have hne := h₁.2 rfl (rest_ne_nil_of_not_atEnd hs)
    exact (ensures_advance_token h₁.1 hne).bind fun _ s₂ h₂ => ensures_pure h₂

theorem ensures_caseBody (hgo : Covers m go) {start : Nat} {value : List Node} (hk : 7 ≤ k)
    (h : Reached m k a (ns ++ value) s) :
    Ensures (caseBody go start value) s fun n => Reached m k a (ns ++ [n]) := by
  refine (ensures_expect ":" h).bind fun _ s₁ h₁ => ?_
  exact (ensures_caseStatements hgo hk h₁).bind fun statements s₂ h₂ => ensures_build h₂ (by simp) (by omega)

theorem ensures_cases (hgo : Covers m go) (h : Reached m k a ns s) :
    Ensures (cases go) s fun nodes => Reached m k a (ns ++ nodes) := by
  refine ensures_gather (fun j ns s hj h => ?_) h
  refine ensures_look (ensures_ite (fun _ => ensures_stop h) fun hs => ?_)
  have hne := rest_ne_nil_of_not_atEnd hs
  refine ensures_here (ensures_ite (fun _ => ?_) fun _ => ensures_ite (fun _ => ?_) fun _ => ?_)
  · refine (ensures_advance_token h hne).bind fun _ s₁ h₁ => ?_
    refine (ensures_expression hgo (by omega) h₁).bind fun value s₂ h₂ => ?_
    exact (ensures_caseBody hgo (by omega) h₂).bind fun n s₃ h₃ => ensures_pure h₃
  · refine (ensures_advance_token h hne).bind fun _ s₁ h₁ => ?_
    exact (ensures_caseBody hgo (by omega) h₁.nil).bind fun n s₂ h₂ => ensures_pure h₂
  · refine (ensures_report _ h).bind fun _ s₁ h₁ => ?_
    refine (ensures_advance_token h₁.1 (h₁.2 ▸ hne)).bind fun _ s₂ h₂ => ?_
    exact ensures_next h₂

theorem ensures_switch (hgo : Covers m go) (h : Reached m k a ns s) (hs : s.rest ≠ []) :
    Ensures (switch go) s fun n => Reached m k a (ns ++ [n]) := by
  refine ensures_here ((ensures_advance_token h hs).bind fun _ s₁ h₁ => ?_)
  refine (ensures_condition hgo (by omega) h₁).bind fun value s₂ h₂ => ?_
  refine (ensures_expect "\x7b" h₂).bind fun _ s₃ h₃ => ?_
  refine (ensures_cases hgo h₃).bind fun clauses s₄ h₄ => ?_
  exact (ensures_expect "\x7d" h₄).bind fun _ s₅ h₅ => ensures_build h₅ (by simp) (by omega)

theorem ensures_caught (h : Reached m k a ns s) :
    Ensures caught s fun nodes => Reached m k a (ns ++ nodes) := by
  refine ensures_ifAccept h (fun s₁ h₁ => ensures_here ?_)
    fun _ => ensures_pure h.nil
  refine (ensures_caughtName h₁).bind fun name s₂ h₂ => ?_
  refine (ensures_annotated _ h₂).bind fun declared s₃ h₃ => ?_
  exact (ensures_buildNamed h₃ (by simp) (by omega)).bind fun node s₄ h₄ =>
    (ensures_expect ")" h₄).bind fun _ s₅ h₅ => ensures_pure h₅

theorem ensures_catchClause (hgo : Covers m go) (h : Reached m k a ns s) :
    Ensures (catchClause go) s fun nodes => Reached m k a (ns ++ nodes) := by
  refine ensures_look (ensures_ite (fun hs => ?_) fun _ => ensures_pure h.nil)
  have hne := h.ne_nil_of_isAtWord hs
  refine ensures_here ((ensures_advance_token h hne).bind fun _ s₁ h₁ => ?_)
  refine (ensures_caught h₁).bind fun value s₂ h₂ => ?_
  refine (ensures_block hgo (ensures_expect _ h₂) (by omega)).bind fun body s₃ h₃ => ?_
  exact (ensures_build h₃ (by simp) (by omega)).bind fun n s₄ h₄ => ensures_pure h₄

theorem ensures_trying (hgo : Covers m go) (h : Reached m k a ns s) (hs : s.rest ≠ []) :
    Ensures (trying go) s fun n => Reached m k a (ns ++ [n]) := by
  refine ensures_here ((ensures_advance_token h hs).bind fun _ s₁ h₁ => ?_)
  refine (ensures_block hgo (ensures_expect _ h₁) (by omega)).bind fun body s₂ h₂ => ?_
  refine (ensures_catchClause hgo h₂).bind fun clause s₃ h₃ => ?_
  refine ensures_ifAcceptWord h₃ (fun s₄ h₄ => ?_) fun s₄ h₄ => ensures_build h₄ (by simp) (by omega)
  exact (ensures_block hgo (ensures_expect _ h₄) (by omega)).bind fun last s₅ h₅ =>
    ensures_build h₅ (by simp) (by omega)

theorem ensures_throwing (hgo : Covers m go) (h : Reached m k a ns s) (hs : s.rest ≠ []) :
    Ensures (throwing go) s fun n => Reached m k a (ns ++ [n]) := by
  refine ensures_here ((ensures_advance_token h hs).bind fun _ s₁ h₁ => ?_)
  refine (ensures_expression hgo (by omega) h₁).bind fun value s₂ h₂ => ?_
  exact (ensures_optional ";" h₂).bind fun _ s₃ h₃ => ensures_build h₃ (by simp) (by omega)

theorem ensures_statement (hgo : Covers m go) (hk : 6 ≤ k) (h : Reached m k a ns s) :
    Ensures (statement go) s fun n => Reached m k a (ns ++ [n]) := by
  refine ensures_here (ensures_look ?_)
  have hne : statementForm s ≠ .expression → s.rest ≠ [] :=
    fun hform => h.rest_ne_nil (isEnd_of_statementForm hform)
  cases hform : statementForm s with
  | expression => exact ensures_expressionStatement hgo hk h
  | block =>
    have hs := isAt_of_form_block hform
    exact (ensures_block hgo (ensures_expect_at h hs) (by omega)).mono fun n s₁ h₁ => h₁.weaken (by omega)
  | decorated => exact ensures_decoratedStatement hgo h (isAt_of_form_decorated hform)
  | importClause => exact ensures_importClause h
  | enumeration => exact ensures_enumeration h
  | interface => exact ensures_interface h
  | typeAlias => exact ensures_typeAlias h
  | jump => exact ensures_jump h
  | function => exact ensures_function hgo _ h
  | classDeclaration => exact ensures_classBody hgo h.nil
  | empty => exact (ensures_advance h).bind fun _ s₁ h₁ => ensures_build h₁ (by simp) (by omega)
  | constEnum => exact (ensures_advance h).bind fun _ s₁ h₁ => ensures_enumeration h₁
  | asyncFunction => exact (ensures_advance h).bind fun _ s₁ h₁ => ensures_function hgo _ h₁
  | abstractClass =>
    exact (ensures_advance h).bind fun _ s₁ h₁ => ensures_classBody hgo h₁.nil
  | declared =>
    refine (ensures_advance_token h (hne (by simp [hform]))).bind fun _ s₁ h₁ => ?_
    exact (hgo.fresh h₁ (by omega)).mono fun n s₂ h₂ => h₂.weaken (by omega)
  | labelled =>
    refine (ensures_advance_token h (hne (by simp [hform]))).bind fun _ s₁ h₁ => ?_
    refine (ensures_advance h₁).bind fun _ s₂ h₂ => ?_
    exact (hgo.fresh h₂ (by omega)).mono fun n s₃ h₃ => h₃.weaken (by omega)
  | «variables» =>
    refine (ensures_variableStatement hgo h (hne (by simp [hform]))).bind fun n s₁ h₁ => ?_
    exact (ensures_optional ";" h₁).bind fun _ s₂ h₂ => ensures_pure (h₂.weaken (by omega))
  | exportClause => exact ensures_exportClause hgo h (hne (by simp [hform]))
  | namespaceBody => exact ensures_namespaceBody hgo h (hne (by simp [hform]))
  | returning => exact ensures_returning hgo h (hne (by simp [hform]))
  | branch => exact ensures_branch hgo h (hne (by simp [hform]))
  | forLoop => exact ensures_forLoop hgo h (hne (by simp [hform]))
  | whileLoop => exact ensures_whileLoop hgo h (hne (by simp [hform]))
  | doLoop => exact ensures_doLoop hgo h (hne (by simp [hform]))
  | switch => exact ensures_switch hgo h (hne (by simp [hform]))
  | trying => exact ensures_trying hgo h (hne (by simp [hform]))
  | throwing => exact ensures_throwing hgo h (hne (by simp [hform]))

end Subscriptions.Grammar
