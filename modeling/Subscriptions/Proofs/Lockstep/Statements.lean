import Subscriptions.Proofs.Grammar.Termination
import Subscriptions.Proofs.Lockstep.Expressions
import Subscriptions.Proofs.Syntax.Placing

namespace Subscriptions

namespace Grammar

variable {M : Pairing} {go : Recur} {ns ms : List Node} {s t : State} {start start' : Nat}

theorem locked_moduleClause {keyword keyword' : Token} (hkeyword : keyword'.text = keyword.text)
    (h : M.Twin ns ms s t) :
    Locked (moduleClause keyword) (moduleClause keyword') s t (M.Still ns ms) := by
  have hcut : clauseTokens 0 true keyword' = clauseTokens 0 true keyword :=
    funext fun ts => clauseTokens_previous ts 0 true hkeyword
  rw [moduleClause, moduleClause, hcut]
  exact (locked_skip (.clauseTokens 0 true keyword) h).bind fun _ _ _ _ h₁ => locked_pure h₁

theorem locked_importClause (h : M.Twin ns ms s t) :
    Locked importClause importClause s t (M.One ns ms) := by
  refine locked_here (locked_look ((locked_advance h).bind fun _ _ s₁ t₁ h₁ => ?_))
  exact (locked_moduleClause h.text h₁).bind fun _ _ s₂ t₂ h₂ =>
    locked_build h₂ h.length (by simp) (by simp) (by decide) h.place

theorem locked_enumeration (h : M.Twin ns ms s t) :
    Locked enumeration enumeration s t (M.One ns ms) := by
  refine locked_here ((locked_advance h).bind fun _ _ s₁ t₁ h₁ => ?_)
  have hkind : Kind.typeDeclaration.hasMemberName = false := rfl
  refine (locked_takeNameIfWord hkind h₁).bind fun a b s₂ t₂ h₂ => ?_
  obtain ⟨hname, h₂⟩ := h₂
  refine locked_look (locked_ite (h₂.isAt "\x7b") (fun _ => ?_) fun _ => ?_)
  · exact (locked_skipBalanced h₂).bind fun _ _ s₃ t₃ h₃ =>
      locked_buildNamed h₃ h.length (by simp) (by simp) (by decide) h.place hname M.declared_none
  · exact locked_buildNamed h₂ h.length (by simp) (by simp) (by decide) h.place hname
      M.declared_none

theorem locked_interfaceHeading (h : M.Twin ns ms s t) :
    Locked interfaceHeading interfaceHeading s t (M.Still ns ms) := by
  refine locked_gather_still (fun s t h => ?_) h
  refine locked_look (locked_ite (by simp only [h.isAt, h.atEnd])
    (fun _ => locked_pure ⟨rfl, h⟩) fun _ => ?_)
  refine locked_ite (h.isAt "<") (fun _ => ?_) fun _ => ?_
  · exact (locked_skipAngles h).bind fun _ _ s₁ t₁ h₁ => locked_pure ⟨rfl, h₁⟩
  · exact (locked_advance h).bind fun _ _ s₁ t₁ h₁ => locked_pure ⟨rfl, h₁⟩

theorem locked_interface (h : M.Twin ns ms s t) :
    Locked interface interface s t (M.One ns ms) := by
  refine locked_here ((locked_advance h).bind fun _ _ s₁ t₁ h₁ => ?_)
  refine (locked_takeName h₁).bind fun _ _ s₂ t₂ h₂ => ?_
  obtain ⟨rfl, rfl, h₂⟩ := h₂
  refine (locked_interfaceHeading h₂).bind fun _ _ s₃ t₃ h₃ => ?_
  refine (locked_skipBalanced h₃).bind fun _ _ s₄ t₄ h₄ => ?_
  exact locked_buildNamed h₄ h.length (by simp) (by simp) (by decide) h.place (named_word h₁ rfl)
    M.declared_none

theorem locked_typeAlias (h : M.Twin ns ms s t) :
    Locked typeAlias typeAlias s t (M.One ns ms) := by
  refine locked_here ((locked_advance h).bind fun _ _ s₁ t₁ h₁ => ?_)
  refine (locked_takeName h₁).bind fun _ _ s₂ t₂ h₂ => ?_
  obtain ⟨rfl, rfl, h₂⟩ := h₂
  refine (locked_skipAngles h₂).bind fun _ _ s₃ t₃ h₃ => ?_
  refine (locked_expect "=" (by decide) h₃).bind fun _ _ s₄ t₄ h₄ => ?_
  refine (locked_typeUpTo _ h₄).bind fun _ _ s₅ t₅ h₅ => ?_
  refine (locked_optional ";" h₅.2).bind fun _ _ s₆ t₆ h₆ => ?_
  exact locked_buildNamed h₆ h.length (by simp) (by simp) (by decide) h.place (named_word h₁ rfl)
    h₅.1

theorem locked_jump (h : M.Twin ns ms s t) : Locked jump jump s t (M.One ns ms) := by
  refine locked_here ((locked_advance h).bind fun _ _ s₁ t₁ h₁ => locked_look ?_)
  have hend : ∀ s' t', M.Twin ns ms s' t' → Locked (do
      optional ";"
      build .jumpStatement s.current.span.start []) (do
      optional ";"
      build .jumpStatement t.current.span.start []) s' t' (M.One ns ms) := fun _ _ h' =>
    (locked_optional ";" h').bind fun _ _ s₃ t₃ h₃ =>
      locked_build h₃ h.length (by simp) (by simp) (by decide) h.place
  refine locked_ite (by simp only [h₁.isWord, h₁.newlineBefore]) (fun _ => ?_) fun _ => hend _ _ h₁
  exact (locked_advance h₁).bind fun _ _ s₂ t₂ h₂ => hend _ _ h₂

theorem locked_variableName (h : M.Twin ns ms s t) :
    Locked variableName variableName s t fun a b s' t' =>
      Option.Rel M.name a b ∧ M.Twin ns ms s' t' := by
  refine locked_look (locked_ite h.isWord (fun _ => locked_someName h) fun _ => ?_)
  refine locked_ite (by simp only [h.isAt]) (fun _ => ?_) fun _ => ?_
  · exact (locked_skipBalanced h).bind fun _ _ _ _ h₁ => locked_pure ⟨.none, h₁⟩
  · exact (locked_report _ (by decide) h).bind fun _ _ _ _ h₁ => locked_pure ⟨.none, h₁⟩

theorem locked_caughtName (h : M.Twin ns ms s t) :
    Locked caughtName caughtName s t fun a b s' t' =>
      Option.Rel M.name a b ∧ M.Twin ns ms s' t' := by
  refine locked_look (locked_ite h.isWord (fun _ => locked_someName h) fun _ => ?_)
  exact (locked_skipBalanced h).bind fun _ _ _ _ h₁ => locked_pure ⟨.none, h₁⟩

theorem locked_variableDeclaration (hgo : Paired M go) (h : M.Twin ns ms s t) :
    Locked (variableDeclaration go) (variableDeclaration go) s t (M.One ns ms) := by
  refine locked_here ((locked_variableName h).bind fun a b s₁ t₁ h₁ => ?_)
  obtain ⟨hname, h₁⟩ := h₁
  refine (locked_optional "!" h₁).bind fun _ _ s₂ t₂ h₂ => ?_
  refine (locked_annotated _ h₂).bind fun _ _ s₃ t₃ h₃ => ?_
  refine (locked_initializer hgo h₃.2).bind fun _ _ s₄ t₄ h₄ => ?_
  exact locked_buildNamed h₄ h.length rfl rfl (by decide) h.place (named_of_rel rfl hname) h₃.1

theorem locked_variableStatement (hgo : Paired M go) (h : M.Twin ns ms s t) :
    Locked (variableStatement go) (variableStatement go) s t (M.One ns ms) := by
  refine locked_here ((locked_advance h).bind fun _ _ s₁ t₁ h₁ => ?_)
  exact (locked_gather (fun _ _ _ _ h => locked_item (locked_variableDeclaration hgo h)) h₁).bind
    fun _ _ s₂ t₂ h₂ => locked_build h₂ h.length rfl rfl (by decide) h.place

theorem locked_expressionStatement (hgo : Paired M go) (hstart : M.place start start')
    (h : M.Twin ns ms s t) :
    Locked (expressionStatement go start) (expressionStatement go start') s t (M.One ns ms) := by
  refine (locked_expression hgo h).bind fun _ _ s₁ t₁ h₁ => ?_
  exact (locked_optional ";" h₁).bind fun _ _ s₂ t₂ h₂ =>
    locked_build h₂ h.length rfl rfl (by decide) hstart

theorem locked_exportClause (hgo : Paired M go) (h : M.Twin ns ms s t) :
    Locked (exportClause go) (exportClause go) s t (M.One ns ms) := by
  refine locked_here (locked_look ((locked_advance h).bind fun _ _ s₁ t₁ h₁ => locked_look ?_))
  refine locked_ite (by simp only [h₁.isAt, h₁.isAtWord, h₁.aheadIs]) (fun _ => ?_) fun _ => ?_
  · exact (locked_moduleClause h.text h₁).bind fun _ _ s₂ t₂ h₂ =>
      locked_build h₂ h.length (by simp) (by simp) (by decide) h.place
  refine locked_ite (h₁.isAt "=") (fun _ => ?_) fun _ => ?_
  · exact (locked_advance h₁).bind fun _ _ s₂ t₂ h₂ => locked_expressionStatement hgo h.place h₂
  · exact (locked_optionalWord "default" h₁).bind fun _ _ s₂ t₂ h₂ => hgo.enter .statement h₂

theorem locked_namespaceBody (hgo : Paired M go) (h : M.Twin ns ms s t) :
    Locked (namespaceBody go) (namespaceBody go) s t (M.One ns ms) := by
  refine (locked_advance h).bind fun _ _ s₁ t₁ h₁ => ?_
  refine (locked_skip .namespaceName h₁).bind fun _ _ s₂ t₂ h₂ => locked_look ?_
  refine locked_ite (h₂.isAt "\x7b") (fun _ => locked_block hgo h₂) fun _ => locked_here ?_
  exact (locked_optional ";" h₂).bind fun _ _ s₃ t₃ h₃ =>
    locked_build h₃ h.length (by simp) (by simp) (by decide) h₂.place

theorem locked_decoratedStatement (hgo : Paired M go) (h : M.Twin ns ms s t) :
    Locked (decoratedStatement go) (decoratedStatement go) s t (M.One ns ms) := by
  refine locked_here ((locked_decorators hgo h).bind fun ds ds' s₁ t₁ h₁ => ?_)
  refine (locked_optionalWord "export" h₁).bind fun _ _ s₂ t₂ h₂ => ?_
  refine (locked_optionalWord "default" h₂).bind fun _ _ s₃ t₃ h₃ => ?_
  refine (locked_optionalWord "abstract" h₃).bind fun _ _ s₄ t₄ h₄ => locked_look ?_
  refine locked_ite (h₄.isAtWord "class") (fun _ => locked_classBody hgo h.length h₄) fun _ => ?_
  exact (hgo.enter .statement h₄).bind fun _ _ s₅ t₅ h₅ =>
    locked_build h₅ h.length (by simp) (by simp) (by decide) h.place

theorem locked_returning (hgo : Paired M go) (h : M.Twin ns ms s t) :
    Locked (returning go) (returning go) s t (M.One ns ms) := by
  refine locked_here ((locked_advance h).bind fun _ _ s₁ t₁ h₁ => locked_look ?_)
  have hend : ∀ xs ys s' t', M.Twin (ns ++ xs) (ms ++ ys) s' t' → Locked (do
      optional ";"
      build .returnStatement s.current.span.start xs) (do
      optional ";"
      build .returnStatement t.current.span.start ys) s' t' (M.One ns ms) := fun _ _ _ _ h' =>
    (locked_optional ";" h').bind fun _ _ s₃ t₃ h₃ =>
      locked_build h₃ h.length rfl rfl (by decide) h.place
  refine locked_ite (by simp only [h₁.isAt, h₁.atEnd, h₁.newlineBefore])
    (fun _ => locked_pureBind (hend [] [] _ _ h₁.nil)) fun _ => ?_
  exact (locked_expression hgo h₁).bind fun n m s₂ t₂ h₂ => locked_pureBind (hend [n] [m] _ _ h₂)

theorem locked_condition (hgo : Paired M go) (h : M.Twin ns ms s t) :
    Locked (condition go) (condition go) s t (M.One ns ms) := by
  refine (locked_expect "(" (by decide) h).bind fun _ _ s₁ t₁ h₁ => ?_
  refine (locked_expression hgo h₁).bind fun _ _ s₂ t₂ h₂ => ?_
  exact (locked_expect ")" (by decide) h₂).bind fun _ _ s₃ t₃ h₃ => locked_pure h₃

/-- A part that may follow after a word, and the node that takes it. -/
theorem locked_ifWordThen {word : String} {part : Parse Node} {f g : List Node → Parse Node}
    {xs ys : List Node} (h : M.Twin ns ms s t)
    (hpart : ∀ ns ms s t, M.Twin ns ms s t → Locked part part s t (M.One ns ms))
    (hf : ∀ bs bs' s' t', M.Twin (ns ++ bs) (ms ++ bs') s' t' →
      Locked (f bs) (g bs') s' t' (M.One xs ys)) :
    Locked (do
      let last ← if ← acceptWord word then pure [← part] else pure []
      f last) (do
      let last ← if ← acceptWord word then pure [← part] else pure []
      g last) s t (M.One xs ys) := by
  refine locked_ifAcceptWord h (fun s₁ t₁ h₁ => ?_) fun s₁ t₁ h₁ =>
    locked_pureBind (hf [] [] s₁ t₁ h₁.nil)
  exact (hpart _ _ _ _ h₁).bind fun n m s₂ t₂ h₂ => locked_pureBind (hf [n] [m] s₂ t₂ h₂)

theorem locked_branch (hgo : Paired M go) (h : M.Twin ns ms s t) :
    Locked (branch go) (branch go) s t (M.One ns ms) := by
  refine locked_here ((locked_advance h).bind fun _ _ s₁ t₁ h₁ => ?_)
  refine (locked_condition hgo h₁).bind fun _ _ s₂ t₂ h₂ => ?_
  refine (hgo.enter .statement h₂).bind fun _ _ s₃ t₃ h₃ => ?_
  refine locked_ifWordThen h₃ (fun _ _ _ _ h' => hgo.enter .statement h') fun _ _ s₄ t₄ h₄ => ?_
  exact locked_build h₄ h.length (by simp) (by simp) (by decide) h.place

theorem locked_forHead (hgo : Paired M go) (h : M.Twin ns ms s t) :
    Locked (forHead go) (forHead go) s t (M.Many ns ms) := by
  refine locked_gather (fun ns ms s t h => ?_) h
  refine locked_look (locked_ite (by simp only [h.isAt, h.atEnd]) (fun _ => locked_stop h)
    fun _ => ?_)
  refine locked_ite (by simp only [h.isAt, h.isAtWord]) (fun _ => ?_) fun _ => ?_
  · exact (locked_advance h).bind fun _ _ s₁ t₁ h₁ => locked_next h₁
  refine locked_ite (by simp only [h.isAtWord]) (fun _ => ?_) fun _ => ?_
  · exact (locked_variableStatement hgo h).bind fun _ _ s₁ t₁ h₁ => locked_turn h₁
  · exact (locked_moved h (locked_expression hgo h)).bind fun _ _ s₁ t₁ h₁ =>
      locked_pure ⟨h₁.1, h₁.2⟩

theorem locked_forLoop (hgo : Paired M go) (h : M.Twin ns ms s t) :
    Locked (forLoop go) (forLoop go) s t (M.One ns ms) := by
  refine locked_here ((locked_advance h).bind fun _ _ s₁ t₁ h₁ => ?_)
  refine (locked_optionalWord "await" h₁).bind fun _ _ s₂ t₂ h₂ => ?_
  refine (locked_expect "(" (by decide) h₂).bind fun _ _ s₃ t₃ h₃ => ?_
  refine (locked_forHead hgo h₃).bind fun _ _ s₄ t₄ h₄ => ?_
  refine (locked_expect ")" (by decide) h₄).bind fun _ _ s₅ t₅ h₅ => ?_
  exact (hgo.enter .statement h₅).bind fun _ _ s₆ t₆ h₆ =>
    locked_build h₆ h.length (by simp) (by simp) (by decide) h.place

theorem locked_whileLoop (hgo : Paired M go) (h : M.Twin ns ms s t) :
    Locked (whileLoop go) (whileLoop go) s t (M.One ns ms) := by
  refine locked_here ((locked_advance h).bind fun _ _ s₁ t₁ h₁ => ?_)
  refine (locked_condition hgo h₁).bind fun _ _ s₂ t₂ h₂ => ?_
  exact (hgo.enter .statement h₂).bind fun _ _ s₃ t₃ h₃ =>
    locked_build h₃ h.length (by simp) (by simp) (by decide) h.place

theorem locked_doLoop (hgo : Paired M go) (h : M.Twin ns ms s t) :
    Locked (doLoop go) (doLoop go) s t (M.One ns ms) := by
  refine locked_here ((locked_advance h).bind fun _ _ s₁ t₁ h₁ => ?_)
  refine (hgo.enter .statement h₁).bind fun _ _ s₂ t₂ h₂ => ?_
  refine locked_ifWordThen h₂ (fun _ _ _ _ h' => locked_condition hgo h') fun _ _ s₃ t₃ h₃ => ?_
  exact (locked_optional ";" h₃).bind fun _ _ s₄ t₄ h₄ =>
    locked_build h₄ h.length (by simp) (by simp) (by decide) h.place

theorem locked_caseStatements (hgo : Paired M go) (h : M.Twin ns ms s t) :
    Locked (caseStatements go) (caseStatements go) s t (M.Many ns ms) := by
  refine locked_gather (fun ns ms s t h => ?_) h
  refine locked_look (locked_ite (by simp only [h.isAt, h.isAtWord, h.atEnd])
    (fun _ => locked_stop h) fun _ => ?_)
  refine (locked_moved h (hgo.enter .statement h)).bind fun r r' s₁ t₁ h₁ => ?_
  refine locked_ite (congrArg _ h₁.1) (fun _ => ?_) fun _ => locked_turn h₁.2
  exact (locked_advance h₁.2).bind fun _ _ s₂ t₂ h₂ => locked_turn h₂

theorem locked_caseBody (hgo : Paired M go) {xs ys : List Node} (hlength : ns.length = ms.length)
    (hstart : M.place start start') (h : M.Twin (ns ++ xs) (ms ++ ys) s t) :
    Locked (caseBody go start xs) (caseBody go start' ys) s t (M.One ns ms) := by
  refine (locked_expect ":" (by decide) h).bind fun _ _ s₁ t₁ h₁ => ?_
  exact (locked_caseStatements hgo h₁).bind fun _ _ s₂ t₂ h₂ =>
    locked_build h₂ hlength (by simp) (by simp) (by decide) hstart

theorem locked_cases (hgo : Paired M go) (h : M.Twin ns ms s t) :
    Locked (cases go) (cases go) s t (M.Many ns ms) := by
  refine locked_gather (fun ns ms s t h => ?_) h
  refine locked_look (locked_ite (by simp only [h.isAt, h.atEnd]) (fun _ => locked_stop h)
    fun _ => locked_here ?_)
  refine locked_ite (h.isAtWord "case") (fun _ => ?_) fun _ => ?_
  · refine (locked_advance h).bind fun _ _ s₁ t₁ h₁ => ?_
    refine (locked_expression hgo h₁).bind fun _ _ s₂ t₂ h₂ => ?_
    exact (locked_caseBody hgo h.length h.place h₂).bind fun _ _ s₃ t₃ h₃ => locked_turn h₃
  refine locked_ite (h.isAtWord "default") (fun _ => ?_) fun _ => ?_
  · refine (locked_advance h).bind fun _ _ s₁ t₁ h₁ => ?_
    exact (locked_caseBody hgo h.length h.place h₁.nil).bind fun _ _ s₂ t₂ h₂ => locked_turn h₂
  · refine (locked_report _ (by decide) h).bind fun _ _ s₁ t₁ h₁ => ?_
    exact (locked_advance h₁).bind fun _ _ s₂ t₂ h₂ => locked_next h₂

theorem locked_switch (hgo : Paired M go) (h : M.Twin ns ms s t) :
    Locked (switch go) (switch go) s t (M.One ns ms) := by
  refine locked_here ((locked_advance h).bind fun _ _ s₁ t₁ h₁ => ?_)
  refine (locked_condition hgo h₁).bind fun _ _ s₂ t₂ h₂ => ?_
  refine (locked_expect "\x7b" (by decide) h₂).bind fun _ _ s₃ t₃ h₃ => ?_
  refine (locked_cases hgo h₃).bind fun _ _ s₄ t₄ h₄ => ?_
  exact (locked_expect "\x7d" (by decide) h₄).bind fun _ _ s₅ t₅ h₅ =>
    locked_build h₅ h.length (by simp) (by simp) (by decide) h.place

theorem locked_caught (h : M.Twin ns ms s t) : Locked caught caught s t (M.Many ns ms) := by
  refine locked_ifAccept h (fun s₁ t₁ h₁ => locked_here ?_) fun _ _ h₁ => locked_pure h₁.nil
  refine (locked_caughtName h₁).bind fun a b s₂ t₂ h₂ => ?_
  obtain ⟨hname, h₂⟩ := h₂
  refine (locked_annotated _ h₂).bind fun _ _ s₃ t₃ h₃ => ?_
  refine (locked_buildNamed h₃.2 h.length (by simp) (by simp) (by decide) h₁.place
    (named_of_rel rfl hname) h₃.1).bind fun _ _ s₄ t₄ h₄ => ?_
  exact (locked_expect ")" (by decide) h₄).bind fun _ _ s₅ t₅ h₅ => locked_pure h₅

theorem locked_catchClause (hgo : Paired M go) (h : M.Twin ns ms s t) :
    Locked (catchClause go) (catchClause go) s t (M.Many ns ms) := by
  refine locked_look (locked_ite (h.isAtWord "catch") (fun _ => locked_here ?_)
    fun _ => locked_pure h.nil)
  refine (locked_advance h).bind fun _ _ s₁ t₁ h₁ => ?_
  refine (locked_caught h₁).bind fun _ _ s₂ t₂ h₂ => ?_
  refine (locked_block hgo h₂).bind fun _ _ s₃ t₃ h₃ => ?_
  exact (locked_build h₃ h.length (by simp) (by simp) (by decide) h.place).bind
    fun _ _ s₄ t₄ h₄ => locked_pure h₄

theorem locked_trying (hgo : Paired M go) (h : M.Twin ns ms s t) :
    Locked (trying go) (trying go) s t (M.One ns ms) := by
  refine locked_here ((locked_advance h).bind fun _ _ s₁ t₁ h₁ => ?_)
  refine (locked_block hgo h₁).bind fun _ _ s₂ t₂ h₂ => ?_
  refine (locked_catchClause hgo h₂).bind fun _ _ s₃ t₃ h₃ => ?_
  refine locked_ifWordThen h₃ (fun _ _ _ _ h' => locked_block hgo h') fun _ _ s₄ t₄ h₄ => ?_
  exact locked_build h₄ h.length (by simp) (by simp) (by decide) h.place

theorem locked_throwing (hgo : Paired M go) (h : M.Twin ns ms s t) :
    Locked (throwing go) (throwing go) s t (M.One ns ms) := by
  refine locked_here ((locked_advance h).bind fun _ _ s₁ t₁ h₁ => ?_)
  refine (locked_expression hgo h₁).bind fun _ _ s₂ t₂ h₂ => ?_
  exact (locked_optional ";" h₂).bind fun _ _ s₃ t₃ h₃ =>
    locked_build h₃ h.length rfl rfl (by decide) h.place

theorem locked_statement (hgo : Paired M go) (h : M.Twin ns ms s t) :
    Locked (statement go) (statement go) s t (M.One ns ms) := by
  refine locked_here (locked_look ?_)
  rw [h.statementForm]
  cases statementForm s with
  | block => exact locked_block hgo h
  | empty =>
    exact (locked_advance h).bind fun _ _ s₁ t₁ h₁ =>
      locked_build h₁ h.length (by simp) (by simp) (by decide) h.place
  | decorated => exact locked_decoratedStatement hgo h
  | importClause => exact locked_importClause h
  | exportClause => exact locked_exportClause hgo h
  | declared => exact (locked_advance h).bind fun _ _ s₁ t₁ h₁ => hgo.enter .statement h₁
  | namespaceBody => exact locked_namespaceBody hgo h
  | constEnum => exact (locked_advance h).bind fun _ _ s₁ t₁ h₁ => locked_enumeration h₁
  | enumeration => exact locked_enumeration h
  | «variables» =>
    refine (locked_variableStatement hgo h).bind fun _ _ s₁ t₁ h₁ => ?_
    exact (locked_optional ";" h₁).bind fun _ _ s₂ t₂ h₂ => locked_pure h₂
  | function => exact locked_function hgo (by decide) rfl h
  | asyncFunction =>
    exact (locked_advance h).bind fun _ _ s₁ t₁ h₁ => locked_function hgo (by decide) rfl h₁
  | classDeclaration => exact locked_classBody hgo h.length h.nil
  | abstractClass =>
    exact (locked_advance h).bind fun _ _ s₁ t₁ h₁ => locked_classBody hgo h.length h₁.nil
  | interface => exact locked_interface h
  | typeAlias => exact locked_typeAlias h
  | returning => exact locked_returning hgo h
  | branch => exact locked_branch hgo h
  | forLoop => exact locked_forLoop hgo h
  | whileLoop => exact locked_whileLoop hgo h
  | doLoop => exact locked_doLoop hgo h
  | «switch» => exact locked_switch hgo h
  | trying => exact locked_trying hgo h
  | throwing => exact locked_throwing hgo h
  | jump => exact locked_jump h
  | labelled =>
    refine (locked_advance h).bind fun _ _ s₁ t₁ h₁ => ?_
    exact (locked_advance h₁).bind fun _ _ s₂ t₂ h₂ => hgo.enter .statement h₂
  | expression => exact locked_expressionStatement hgo h.place h

theorem paired_body (hgo : Paired M go) : Paired M (body go) := by
  intro r ns ms s t h
  cases r with
  | statement => exact locked_nested h (locked_statement hgo h)
  | assignment => exact locked_nested h (locked_assignment hgo h)
  | binary above => exact locked_nested h (locked_binary hgo h)
  | unary => exact locked_nested h (locked_unary hgo h)
  | construction => exact locked_nested h (locked_construction hgo h)
  | access => exact locked_access hgo h

/-- The induction is on the fuel: a rule has one unit more than the rules inside it. -/
theorem paired_rule (M : Pairing) (fuel : Nat) : Paired M (rule fuel) := by
  induction fuel with
  | zero => exact fun _ _ _ _ _ _ => locked_stuck
  | succ fuel ih => exact paired_body ih

theorem locked_statements (hgo : Paired M go) (h : M.Twin ns ms s t) :
    Locked (statements go) (statements go) s t (M.Many ns ms) := by
  refine locked_gather (fun ns ms s t h => ?_) h
  exact locked_look (locked_ite h.atEnd (fun _ => locked_stop h)
    fun _ => locked_statementTurn hgo h)

def State.finish (s : State) (source : List Char) (nodes : List Node) : Parsed :=
  let root : Node := ⟨s.built, .sourceFile, ⟨0, byteLength source⟩, none, none, nodes⟩
  ⟨source, root, (tokenize source).faults ++ s.faults.reverse, (s.alloc root).arena⟩

/-- The root that a run gives, with the nodes below it pending before. -/
theorem locked_program (hgo : Paired M go) {length length' : Nat} (h : M.Twin [] [] s t) :
    Locked (program go length) (program go length') s t fun n m s' t' =>
      ∃ xs ys s₀ t₀, M.Twin xs ys s₀ t₀ ∧
        n = ⟨s₀.built, .sourceFile, ⟨0, length⟩, none, none, xs⟩ ∧ s' = s₀.alloc n ∧
        m = ⟨t₀.built, .sourceFile, ⟨0, length'⟩, none, none, ys⟩ ∧ t' = t₀.alloc m := by
  refine (locked_statements hgo h).bind fun xs ys s₀ t₀ h₀ => ?_
  intro depth _ _ s' t' hrun hrun'
  cases hrun
  cases hrun'
  exact ⟨xs, ys, s₀, t₀, h₀, rfl, rfl, rfl, rfl⟩

end Grammar

namespace Parsed

open Grammar

/-- The tokens of a source are those that are left at the start, and the end of the file. -/
theorem tokens_eq_start (source : List Char) :
    (tokenize source).tokens = (start source).rest ++ [(start source).last] := by
  obtain ⟨front, e, htokens, hend, hfront⟩ := (tiled_tokenize source).eq_append_end
  have hrest : (start source).rest = front := by
    rw [start, htokens, List.filter_append, List.filter_cons_of_neg (by simp [hend])]
    simpa using hfront
  have hlast : (start source).last = e := by
    rw [start, htokens, List.getLastD_concat]
  rw [hrest, hlast, htokens]

theorem isEnd_last_start (source : List Char) : (start source).last.isEnd = true :=
  isEnd_getLastD_tokenize source

/-- At the start a parse is paired with itself if each of its tokens is. -/
theorem twin_self (M : Pairing) {source : List Char}
    (htokens : ∀ t ∈ (tokenize source).tokens, M.token t t)
    (h : M.holds [] [] (start source) (start source)) :
    M.Twin [] [] (start source) (start source) := by
  rw [tokens_eq_start source] at htokens
  exact ⟨List.forall₂_same.mpr fun t ht => htokens t (List.mem_append_left _ ht),
    htokens _ (List.mem_append_right _ List.mem_cons_self), isEnd_last_start source, rfl, h⟩

/-- Where two sources are paired at the start, their trees are paired but for their roots. -/
theorem twin_of_start (M : Pairing) {source source' : List Char}
    (h : M.Twin [] [] (start source) (start source')) :
    ∃ xs ys s t, M.Twin xs ys s t ∧
      ofSource source = s.finish source xs ∧ ofSource source' = t.finish source' ys := by
  obtain ⟨root, s', hrun, -⟩ := exists_run source
  obtain ⟨root', t', hrun', -⟩ := exists_run source'
  have hmore := run_le (Nat.le_max_left _ (fuelFor source')) hrun
  have hmore' := run_le (Nat.le_max_right (fuelFor source) _) hrun'
  obtain ⟨xs, ys, s, t, htwin, rfl, rfl, rfl, rfl⟩ :=
    locked_program (paired_rule M _) h 0 root root' s' t' hmore hmore'
  exact ⟨xs, ys, s, t, htwin, ofSource_of_run hrun, ofSource_of_run hrun'⟩

end Parsed

end Subscriptions
