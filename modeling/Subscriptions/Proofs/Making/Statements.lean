import Subscriptions.Proofs.Grammar.Termination
import Subscriptions.Proofs.Making.Expressions

namespace Subscriptions

namespace Grammar

variable {go : Recur} {m s : State} {b : Bool} {x : Option Name} {kind : Kind}

/-- A declaration that is passed over. Without a token it is at the end of the file. -/
theorem runs_buildType {declared : Option String} (h : Stage m b [] x s)
    (hmoved : b = true ∨ m.rest = []) :
    Runs (buildNamed .typeDeclaration m.current.span.start x declared []) s fun n s' =>
      Stage m b [n] none s' := by
  intro depth n s' hrun
  obtain ⟨rfl, rfl⟩ := Prod.mk.inj (Option.some.inj hrun)
  refine ⟨h.makes.made ?_, h.last, h.moved, nofun⟩
  refine ⟨rfl, rfl, .inl rfl, nofun, fun y hy => .inl (h.named y hy), ?_, nofun⟩
  exact hmoved.imp h.moved fun hrest => ⟨rfl, rfl, hrest⟩

theorem names_variableName : Names variableName := by
  intro s hs
  have h := Stage.start s hs
  refine runs_look (runs_ite (fun hword => ?_) fun _ => runs_ite (fun hat => ?_) fun _ => ?_)
  · exact h.takeName (h.rest_ne_nil (isEnd_of_isWord hword)) fun y s' h' => runs_pure h'
  · rw [Bool.or_eq_true] at hat
    exact runs_skipPattern h (h.rest_ne_nil (hat.elim isEnd_of_isPunct isEnd_of_isPunct))
  · exact h.pass (adds_report _ (by decide)) fun _ s₁ h₁ => runs_pure h₁

theorem passes_moduleClause (keyword : Token) : Passes (moduleClause keyword) :=
  adds_of_runs fun _ h => h.pass (passes_skip fun ts => clauseTokens_append ts 0 true keyword)
    fun _ _ h' => runs_pure h'

theorem runs_importClause (hs : s.last.isEnd = true) (hend : s.current.isEnd = false) :
    Runs importClause s fun n s' => Stage s true [n] none s' := by
  refine runs_here (runs_look ((Stage.start s hs).token hend fun s₁ h₁ _ => ?_))
  exact h₁.pass (passes_moduleClause _) fun _ s₂ h₂ => runs_build h₂ (by decide)

theorem runs_enumeration (hs : s.last.isEnd = true) :
    Runs enumeration s fun n s' => Stage s (!s.rest.isEmpty) [n] none s' := by
  have h := Stage.start s hs
  have hadvanced : Stage s (!s.rest.isEmpty) [] none (s.read (s.rest.take 1, s.rest.drop 1)) := by
    refine ⟨h.advanced.makes, h.last, fun hne => (h.moved_of_ne_nil ?_).moved rfl, nofun⟩
    rwa [Bool.not_eq_true', List.isEmpty_eq_false_iff] at hne
  have hmoved : (!s.rest.isEmpty) = true ∨ s.rest = [] := by
    cases s.rest with
    | nil => exact .inr rfl
    | cons t ts => exact .inl rfl
  refine runs_here (Runs.bind (runs_update (P := fun _ => Stage s (!s.rest.isEmpty) [] none)
    hadvanced) fun _ s₁ h₁ => ?_)
  refine h₁.takeNameIfWord fun name s₂ h₂ => runs_look (runs_ite (fun _ => ?_) fun _ => ?_)
  · refine h₂.pass passes_skipBalanced fun _ s₃ h₃ => runs_buildType ?_ hmoved
    rwa [Bool.or_false] at h₃
  · exact runs_buildType h₂ hmoved

/-- The heading of an interface has no nodes. -/
theorem passes_interfaceHeading : Passes interfaceHeading := by
  have hgather : Adds interfaceHeading false id := by
    refine adds_gather (adds_of_runs fun s h => runs_look (runs_ite (fun _ => runs_pure h) fun _ => ?_))
    refine runs_ite (fun _ => ?_) fun _ => ?_
    · exact h.pass passes_skipAngles fun _ s₁ h₁ => runs_pure h₁
    · exact h.pass passes_advance fun _ s₁ h₁ => runs_pure h₁
  intro s hs depth nodes s' hrun
  have h := hgather s hs depth nodes s' hrun
  rwa [eq_nil_of_interfaceHeading hrun] at h

/-- The keywords of interfaces and of aliases are no keywords without a name behind them. -/
theorem isWord_ahead_of_statementForm
    (h : statementForm s = .interface ∨ statementForm s = .typeAlias) :
    s.current.isEnd = false ∧ (s.ahead 1).isWord = true := by
  have hend : s.current.isEnd = false := by
    obtain h | h := h <;> exact isEnd_of_statementForm (by rw [h]; decide)
  refine ⟨hend, ?_⟩
  simp only [statementForm, punctForm, wordStatementForm] at h
  split at h
  · simp [ite_eq_iff] at h
  · simp only [ite_eq_iff, reduceCtorEq, and_false, false_or, and_true, Bool.and_eq_true] at h
    tauto
  · simp at h

/-- A keyword and the word behind it as a name. -/
theorem runs_keywordName {β : Type} {f : Name → Parse β} {Q : β → State → Prop}
    (hs : s.last.isEnd = true) (hend : s.current.isEnd = false) (hword : (s.ahead 1).isWord = true)
    (hf : ∀ y s', Stage s true [] (some y) s' → Runs (f y) s' Q) :
    Runs (do advance; let name ← takeName; f name) s Q := by
  refine (Stage.start s hs).token hend fun s₁ h₁ hcurrent => ?_
  exact h₁.takeName (h₁.rest_ne_nil (isEnd_of_isWord (hcurrent ▸ hword))) hf

theorem runs_interface (hs : s.last.isEnd = true) (h : statementForm s = .interface) :
    Runs interface s fun n s' => Stage s true [n] none s' := by
  obtain ⟨hend, hword⟩ := isWord_ahead_of_statementForm (.inl h)
  refine runs_here (runs_keywordName hs hend hword fun name s₁ h₁ => ?_)
  refine h₁.pass passes_interfaceHeading fun _ s₂ h₂ => ?_
  exact h₂.pass passes_skipBalanced fun _ s₃ h₃ => runs_buildNamed h₃ (by decide)

theorem runs_typeAlias (hs : s.last.isEnd = true) (h : statementForm s = .typeAlias) :
    Runs typeAlias s fun n s' => Stage s true [n] none s' := by
  obtain ⟨hend, hword⟩ := isWord_ahead_of_statementForm (.inr h)
  refine runs_here (runs_keywordName hs hend hword fun name s₁ h₁ => ?_)
  refine h₁.pass passes_skipAngles fun _ s₂ h₂ => h₂.pass (adds_expect _) fun _ s₃ h₃ => ?_
  refine h₃.pass (passes_typeUpTo _) fun declared s₄ h₄ => ?_
  exact h₄.pass (passes_optional _) fun _ s₅ h₅ => runs_buildNamed h₅ (by decide)

theorem runs_jump (hs : s.last.isEnd = true) (hend : s.current.isEnd = false) :
    Runs jump s fun n s' => Stage s true [n] none s' := by
  have hrest {s₁ : State} (h₁ : Stage s true [] none s₁) : Runs (do
      optional ";"
      build .jumpStatement s.current.span.start []) s₁ fun n s' => Stage s true [n] none s' :=
    h₁.pass (passes_optional _) fun _ s₂ h₂ => runs_build h₂ (by decide)
  refine runs_here ((Stage.start s hs).token hend fun s₁ h₁ _ => runs_look (runs_ite (fun _ => ?_) ?_))
  · exact h₁.pass passes_advance fun _ s₂ h₂ => hrest h₂
  · exact fun _ => hrest h₁

theorem names_caughtName (hne : s.rest ≠ []) (hs : s.last.isEnd = true) :
    Runs caughtName s fun x s' => Stage s true [] x s' := by
  have h := Stage.start s hs
  refine runs_look (runs_ite (fun hword => ?_) fun _ => runs_skipPattern h hne)
  exact h.takeName hne fun y s' h' => runs_pure h'

theorem isEnd_current_of_nil (hrest : s.rest = []) (hs : s.last.isEnd = true) :
    s.current.isEnd = true := by
  rwa [State.current, hrest]

/-- At the end of the file there is no punctuator to accept. -/
theorem runs_accept_end {p : String} (hrest : s.rest = []) (hs : s.last.isEnd = true) :
    Runs (accept p) s fun more s' => more = false ∧ s' = s := by
  refine runs_look (runs_ite (fun hat => ?_) fun _ => runs_pure ⟨rfl, rfl⟩)
  have hend := isEnd_current_of_nil hrest hs
  rw [isEnd_of_isPunct hat] at hend
  cases hend

theorem runs_caughtName_end (hrest : s.rest = []) (hs : s.last.isEnd = true) :
    Runs caughtName s fun x s' => x = none ∧ s' = s := by
  have hread : s.read (balanced 0 s.rest) = s := by
    obtain ⟨rest, last, readTo, arena, faults⟩ := s
    subst hrest
    rfl
  have hskipped : Runs skipBalanced s fun _ s' => s' = s :=
    Runs.bind (runs_skip (P := fun _ s' => s' = s) hread) fun _ _ h => runs_pure h
  refine runs_look (runs_ite (fun hword => ?_) fun _ => ?_)
  · have hend := isEnd_current_of_nil hrest hs
    rw [isEnd_of_isWord hword] at hend
    cases hend
  · exact hskipped.bind fun _ s' h => runs_pure ⟨rfl, h⟩

/-- At the end of the file there is no value, but the parenthesis that is missing is a fault. -/
theorem runs_caught_end (hrest : s.rest = []) (hs : s.last.isEnd = true) : Runs (do
      let start ← here
      let name ← caughtName
      let declared ← annotation [")"]
      let node ← buildNamed .parameter start name declared []
      expect ")"
      return [node]) s fun ns s' => Stage s true ns none s' := by
  refine runs_here ((runs_caughtName_end hrest hs).bind fun name s₁ h₁ => ?_)
  rw [h₁.1, h₁.2]
  have htype : Runs ( annotation [")"]) s fun _ s' => s' = s := by
    refine (runs_accept_end hrest hs).bind fun more s₂ h₂ => ?_
    rw [h₂.1, h₂.2]
    exact runs_pure rfl
  refine htype.bind fun declared s₂ h₂ => ?_
  rw [h₂]
  let node : Node :=
    ⟨s.built, .parameter, ⟨s.current.span.start, max s.readTo s.current.span.start⟩, none, declared, []⟩
  refine Runs.bind (P := fun n s' => n = node ∧ s' = s.alloc node) ?_ ?_
  · intro depth n s' hrun
    obtain ⟨rfl, rfl⟩ := Prod.mk.inj (Option.some.inj hrun)
    exact ⟨rfl, rfl⟩
  rintro _ _ ⟨rfl, rfl⟩
  refine Runs.bind (P := fun _ s' => Stage s true [node] none s') ?_ fun _ _ h => runs_pure h
  refine Runs.bind (runs_accept_end (s := s.alloc node) hrest hs) fun _ s₃ h₃ => ?_
  rw [h₃.1, h₃.2]
  refine runs_update ?_
  -- the fault does not depend on the node, so it might as well have been found before
  dsimp only [State.report]
  generalize hfault : Fault.expected _ _ _ = f
  have hf : f.leavesHollow = false := hfault ▸ rfl
  have hreport := (Stage.start s hs).report f hf
  refine ⟨?_, hs, fun _ => .inr (Nat.lt_succ_self _), nofun⟩
  have hmade : Made s (s.report f) [] [] node :=
    ⟨rfl, rfl, .inl rfl, nofun, nofun, .inl (hreport.moved rfl), nofun⟩
  exact hreport.makes.made hmade

theorem adds_caught : Adds caught false id := by
  refine adds_of_runs fun s h => h.ifAccept (fun s₁ h₁ => ?_) fun _ => runs_pure h
  by_cases hne : s₁.rest = []
  · exact (runs_caught_end hne h₁.last).imp fun ns s' h' => (h₁.trans h').weaken
  · refine runs_here ((names_caughtName hne h₁.last).bind fun name s₂ h₂ => ?_)
    refine h₂.pass (passes_annotated _) fun declared s₃ h₃ => ?_
    refine (runs_buildNamed h₃ (by decide)).bind fun node s₄ h₄ => ?_
    exact h₄.pass (adds_expect _) fun _ s₅ h₅ => runs_pure (h₁.trans h₅).weaken

/-- Behind the name of a namespace comes a brace, a semicolon or nothing. -/
theorem namespaceName_end (ts : List Token) : (namespaceName ts).2 = [] ∨
    ∃ t us, (namespaceName ts).2 = t :: us ∧ t.isPunctOf ["\x7b", ";"] = true := by
  fun_induction namespaceName ts with
  | case1 => exact .inl rfl
  | case2 t ts h => exact .inr ⟨t, ts, rfl, h⟩
  | case3 t ts _ ih => exact ih

/-- A namespace without a body ends with its semicolon, or at the end of the file. -/
theorem runs_bodiless (hs : s.last.isEnd = true) (h : s.rest = [] ∨ s.isAt ";" = true) :
    Runs (do optional ";"; build .typeDeclaration s.current.span.start []) s
      fun n s' => Stage s false [n] none s' := by
  have hstart := Stage.start s hs
  rcases h with hrest | hat
  · exact hstart.pass (passes_optional _) fun _ s₁ h₁ => runs_buildType h₁ (.inr hrest)
  · have haccept : Runs (accept ";") s fun _ s' => Stage s true [] none s' := by
      refine runs_look (runs_ite (fun _ => ?_) fun hnot => absurd hat hnot)
      exact hstart.token (isEnd_of_isPunct hat) fun s₁ h₁ _ => runs_pure h₁
    have hoptional : Runs (optional ";") s fun _ s' => Stage s true [] none s' :=
      haccept.bind fun _ _ h₁ => runs_pure h₁
    exact hoptional.bind fun _ s₁ h₁ => (runs_buildType h₁ (.inl rfl)).imp fun _ _ h₂ => h₂.weaken

section
variable (hgo : Builds go)

include hgo

theorem adds_variableDeclaration : Adds (variableDeclaration go) true fun n => [n] := by
  refine adds_of_runs fun s h => runs_here (h.name names_variableName fun name s₁ h₁ => ?_)
  refine h₁.pass (passes_optional _) fun _ s₂ h₂ => ?_
  refine h₂.pass (passes_annotated _) fun declared s₃ h₃ => ?_
  exact h₃.addAll (adds_initializer hgo) fun value s₄ h₄ => runs_buildNamed h₄ (by decide)

theorem runs_variableStatement (hs : s.last.isEnd = true) (hend : s.current.isEnd = false) :
    Runs (variableStatement go) s fun n s' => Stage s true [n] none s' := by
  refine runs_here ((Stage.start s hs).token hend fun s₁ h₁ _ => ?_)
  refine h₁.addAll (adds_gather (adds_of_runs fun s h => ?_)) fun declarations s₂ h₂ =>
    runs_build h₂ (by decide)
  refine h.addAll (adds_variableDeclaration hgo) fun node s₁ h₁ => ?_
  exact h₁.pass (passes_accept _) fun more s₂ h₂ => runs_pure h₂.weaken

theorem runs_expressionStatement (h : Stage m b [] none s) :
    Runs (expressionStatement go m.current.span.start) s fun n s' => Stage m true [n] none s' := by
  refine h.weaken.addAll (adds_expression hgo) fun value s₁ h₁ => ?_
  exact h₁.pass (passes_optional _) fun _ s₂ h₂ => runs_build h₂ (by decide)

theorem runs_exportClause (hs : s.last.isEnd = true) (hend : s.current.isEnd = false) :
    Runs (exportClause go) s fun n s' => Stage s true [n] none s' := by
  refine runs_here (runs_look ((Stage.start s hs).token hend fun s₁ h₁ _ => ?_))
  refine runs_look (runs_ite (fun _ => ?_) fun _ => runs_ite (fun _ => ?_) fun _ => ?_)
  · exact h₁.pass (passes_moduleClause _) fun _ s₂ h₂ => runs_build h₂ (by decide)
  · exact h₁.pass passes_advance fun _ s₂ h₂ => runs_expressionStatement hgo h₂
  · exact h₁.pass (passes_optionalWord _) fun _ s₂ h₂ =>
      (hgo .statement s₂ h₂.last).imp fun _ _ h₃ => h₂.trans h₃

theorem runs_namespaceBody (hs : s.last.isEnd = true) (hend : s.current.isEnd = false) :
    Runs (namespaceBody go) s fun n s' => Stage s true [n] none s' := by
  refine (Stage.start s hs).token hend fun s₁ h₁ _ => ?_
  refine Runs.bind (runs_skip (P := fun _ s₂ => Stage s true [] none s₂ ∧
    s₂.rest = (namespaceName s₁.rest).2) ⟨h₁.read _ (namespaceName_append _), rfl⟩) ?_
  rintro _ s₂ ⟨h₂, hrest⟩
  refine runs_look (runs_ite (fun _ => ?_) fun hbrace => runs_here ?_)
  · exact (adds_block hgo s₂ h₂.last).imp fun _ _ h₃ => h₂.trans h₃
  have hend : s₂.rest = [] ∨ s₂.isAt ";" = true := by
    rcases namespaceName_end s₁.rest with hnil | ⟨t, us, hcons, ht⟩
    · exact .inl (hrest.trans hnil)
    · have hcurrent : s₂.current = t := by rw [State.current, hrest, hcons, List.headD_cons]
      rw [State.isAt, hcurrent, Token.isPunct] at hbrace ⊢
      simp only [Token.isPunctOf, Bool.and_eq_true, List.contains_eq_mem, List.mem_cons,
        List.not_mem_nil, or_false, decide_eq_true_eq] at ht
      simp only [Bool.and_eq_true, beq_iff_eq] at ht hbrace ⊢
      exact .inr ⟨ht.1, ht.2.resolve_left fun heq => hbrace ⟨ht.1, heq⟩⟩
  exact (runs_bodiless h₂.last hend).imp fun n s' h₃ => h₂.trans h₃

/-- What decorators stand before is a class, or a statement that they make unknown. -/
theorem runs_decoratedStatement (hs : s.last.isEnd = true) (hat : s.isAt "@" = true) :
    Runs (decoratedStatement go) s fun n s' => Stage s true [n] none s' := by
  refine runs_here ((runs_decorators hgo hs).bind fun decorations s₁ h₁ => ?_)
  refine h₁.stage.pass (passes_optionalWord _) fun _ s₂ h₂ => ?_
  refine h₂.pass (passes_optionalWord _) fun _ s₃ h₃ => ?_
  refine h₃.pass (passes_optionalWord _) fun _ s₄ h₄ => runs_look (runs_ite (fun _ => ?_) fun _ => ?_)
  · exact runs_classBody hgo h₄ h₁.kinds
  · refine h₄.addAll (hgo .statement) fun statement s₅ h₅ depth n s' hrun => ?_
    obtain ⟨rfl, rfl⟩ := Prod.mk.inj (Option.some.inj hrun)
    refine ⟨h₅.makes.made ?_, h₅.last, h₅.moved, nofun⟩
    refine ⟨rfl, rfl, .inl rfl, nofun, nofun, .inl (h₅.moved rfl), fun _ => ?_⟩
    exact ⟨decorations, statement, rfl, h₁.ne_nil hat, h₁.kinds⟩

theorem runs_returning (hs : s.last.isEnd = true) (hend : s.current.isEnd = false) :
    Runs (returning go) s fun n s' => Stage s true [n] none s' := by
  have hrest (value : List Node) (s₁ : State) (h₁ : Stage s true value none s₁) : Runs (do
      optional ";"
      build .returnStatement s.current.span.start value) s₁ fun n s' => Stage s true [n] none s' :=
    h₁.pass (passes_optional _) fun _ s₂ h₂ => runs_build h₂ (by decide)
  refine runs_here ((Stage.start s hs).token hend fun s₁ h₁ _ => runs_look (runs_ite (fun _ => ?_) ?_))
  · exact Runs.bind (P := fun value => Stage s true value none) (runs_pure h₁) hrest
  · intro _
    refine h₁.addAll (adds_expression hgo) fun value s₂ h₂ => ?_
    exact Runs.bind (P := fun value => Stage s true value none) (runs_pure h₂) hrest

theorem adds_condition : Adds (condition go) true fun n => [n] := by
  refine adds_of_runs fun s h => h.pass (adds_expect _) fun _ s₁ h₁ => ?_
  refine h₁.addAll (adds_expression hgo) fun value s₂ h₂ => ?_
  exact h₂.pass (adds_expect _) fun _ s₃ h₃ => runs_pure h₃

theorem adds_branch : Adds (branch go) true fun n => [n] := by
  refine adds_of_runs fun s h => runs_here (h.pass passes_advance fun _ s₁ h₁ => ?_)
  refine h₁.addAll (adds_condition hgo) fun test s₂ h₂ => ?_
  refine h₂.addAll (hgo .statement) fun whenTrue s₃ h₃ => h₃.ifAcceptWord (fun s₄ h₄ => ?_) ?_
  · refine h₄.addAll (hgo .statement) fun whenFalse s₅ h₅ => ?_
    exact Runs.bind (P := fun whenFalse => Stage s true ([test] ++ [whenTrue] ++ whenFalse) none)
      (runs_pure h₅) fun whenFalse s₆ h₆ => runs_build h₆ (by decide)
  · have h₄ : Stage s true ([test] ++ [whenTrue] ++ []) none s₃ := h₃
    exact Runs.bind (P := fun whenFalse => Stage s true ([test] ++ [whenTrue] ++ whenFalse) none)
      (runs_pure h₄) fun whenFalse s₆ h₆ => runs_build h₆ (by decide)

theorem adds_forHead : Adds (forHead go) false id := by
  refine adds_gather (adds_of_runs fun s h => runs_look (runs_ite (fun _ => runs_pure h) fun _ => ?_))
  refine runs_ite (fun _ => h.pass passes_advance fun _ s₁ h₁ => runs_pure h₁) fun _ => ?_
  refine runs_ite (fun hword => ?_) fun _ => ?_
  · have hend : s.current.isEnd = false := by
      rw [Bool.or_eq_true, Bool.or_eq_true] at hword
      exact hword.elim (fun h => h.elim isEnd_of_isTheWord isEnd_of_isTheWord) isEnd_of_isTheWord
    exact (runs_variableStatement hgo h.last hend).bind fun n s₁ h₁ => runs_pure h₁.weaken
  · exact h.addAll (adds_moved (adds_expression hgo)) fun r s₁ h₁ => runs_pure h₁.weaken

theorem adds_forLoop : Adds (forLoop go) true fun n => [n] := by
  refine adds_of_runs fun s h => runs_here (h.pass passes_advance fun _ s₁ h₁ => ?_)
  refine h₁.pass (passes_optionalWord _) fun _ s₂ h₂ => h₂.pass (adds_expect _) fun _ s₃ h₃ => ?_
  refine h₃.addAll (adds_forHead hgo) fun head s₄ h₄ => h₄.pass (adds_expect _) fun _ s₅ h₅ => ?_
  exact h₅.addAll (hgo .statement) fun body s₆ h₆ => runs_build h₆ (by decide)

theorem adds_whileLoop : Adds (whileLoop go) true fun n => [n] := by
  refine adds_of_runs fun s h => runs_here (h.pass passes_advance fun _ s₁ h₁ => ?_)
  refine h₁.addAll (adds_condition hgo) fun test s₂ h₂ => ?_
  exact h₂.addAll (hgo .statement) fun body s₃ h₃ => runs_build h₃ (by decide)

theorem adds_doLoop : Adds (doLoop go) true fun n => [n] := by
  refine adds_of_runs fun s h => runs_here (h.pass passes_advance fun _ s₁ h₁ => ?_)
  have hrest (body : Node) (test : List Node) (s₂ : State)
      (h₂ : Stage s true (body :: test) none s₂) : Runs (do
        optional ";"
        build .loopStatement s.current.span.start (body :: test)) s₂
        fun n s' => Stage s true [n] none s' :=
    h₂.pass (passes_optional _) fun _ s₃ h₃ => runs_build h₃ (by decide)
  refine h₁.addAll (hgo .statement) fun body s₂ h₂ => h₂.ifAcceptWord (fun s₃ h₃ => ?_) ?_
  · refine h₃.addAll (adds_condition hgo) fun test s₄ h₄ => ?_
    exact Runs.bind (P := fun test => Stage s true (body :: test) none) (runs_pure h₄) (hrest body)
  · exact Runs.bind (P := fun test => Stage s true (body :: test) none) (runs_pure h₂) (hrest body)

theorem adds_caseStatements : Adds (caseStatements go) false id := by
  refine adds_gather (adds_of_runs fun s h => runs_look (runs_ite (fun _ => runs_pure h) fun _ => ?_))
  refine h.addAll (adds_moved (hgo .statement)) ?_
  rintro ⟨node, progress⟩ s₁ h₁
  refine runs_ite (fun _ => ?_) fun _ => runs_pure h₁.weaken
  exact h₁.pass passes_advance fun _ s₂ h₂ => runs_pure h₂.weaken

theorem runs_caseBody {value : List Node} (h : Stage m b value none s) :
    Runs (caseBody go m.current.span.start value) s fun n s' => Stage m true [n] none s' := by
  refine h.weaken.pass (adds_expect _) fun _ s₁ h₁ => ?_
  exact h₁.addAll (adds_caseStatements hgo) fun statements s₂ h₂ => runs_build h₂ (by decide)

theorem adds_cases : Adds (cases go) false id := by
  refine adds_gather (adds_of_runs fun s h => runs_look (runs_ite (fun _ => runs_pure h) fun _ => ?_))
  refine runs_here (runs_ite (fun _ => ?_) fun _ => runs_ite (fun _ => ?_) fun _ => ?_)
  · refine h.pass passes_advance fun _ s₁ h₁ => h₁.addAll (adds_expression hgo) fun value s₂ h₂ => ?_
    exact (runs_caseBody hgo h₂).bind fun n s₃ h₃ => runs_pure h₃.weaken
  · refine h.pass passes_advance fun _ s₁ h₁ => ?_
    exact (runs_caseBody hgo h₁).bind fun n s₂ h₂ => runs_pure h₂.weaken
  · refine h.pass (adds_report _ (by decide)) fun _ s₁ h₁ => ?_
    exact h₁.pass passes_advance fun _ s₂ h₂ => runs_pure h₂.weaken

theorem adds_switch : Adds (switch go) true fun n => [n] := by
  refine adds_of_runs fun s h => runs_here (h.pass passes_advance fun _ s₁ h₁ => ?_)
  refine h₁.addAll (adds_condition hgo) fun value s₂ h₂ => h₂.pass (adds_expect _) fun _ s₃ h₃ => ?_
  refine h₃.addAll (adds_cases hgo) fun clauses s₄ h₄ => ?_
  exact h₄.pass (adds_expect _) fun _ s₅ h₅ => runs_build h₅ (by decide)

theorem adds_catchClause : Adds (catchClause go) false id := by
  refine adds_of_runs fun s h => runs_look (runs_ite (fun _ => runs_here ?_) fun _ => runs_pure h)
  refine h.pass passes_advance fun _ s₁ h₁ => h₁.addAll adds_caught fun value s₂ h₂ => ?_
  refine h₂.addAll (adds_block hgo) fun body s₃ h₃ => ?_
  have hkind : Kind.catchClause ≠ .unknown := by decide
  exact (runs_build h₃ hkind).bind fun n s₄ h₄ => runs_pure h₄.weaken

theorem adds_trying : Adds (trying go) true fun n => [n] := by
  refine adds_of_runs fun s h => runs_here (h.pass passes_advance fun _ s₁ h₁ => ?_)
  refine h₁.addAll (adds_block hgo) fun body s₂ h₂ => ?_
  refine h₂.addAll (adds_catchClause hgo) fun clause s₃ h₃ => ?_
  have hrest (last : List Node) (s₄ : State) (h₄ : Stage s true (body :: clause ++ last) none s₄) :
      Runs (build .tryStatement s.current.span.start (body :: clause ++ last)) s₄
        fun n s' => Stage s true [n] none s' := runs_build h₄ (by decide)
  refine h₃.ifAcceptWord (fun s₄ h₄ => ?_) ?_
  · refine h₄.addAll (adds_block hgo) fun last s₅ h₅ => ?_
    exact Runs.bind (P := fun last => Stage s true (body :: clause ++ last) none) (runs_pure h₅) hrest
  · refine Runs.bind (P := fun last => Stage s true (body :: clause ++ last) none) (runs_pure ?_) hrest
    rwa [List.append_nil]

theorem adds_throwing : Adds (throwing go) true fun n => [n] := by
  refine adds_of_runs fun s h => runs_here (h.pass passes_advance fun _ s₁ h₁ => ?_)
  refine h₁.addAll (adds_expression hgo) fun value s₂ h₂ => ?_
  exact h₂.pass (passes_optional _) fun _ s₃ h₃ => runs_build h₃ (by decide)

theorem adds_statement : Adds (statement go) true fun n => [n] := by
  intro s hs
  have h := Stage.start s hs
  have hend : statementForm s ≠ .expression → s.current.isEnd = false := isEnd_of_statementForm
  have hfunction (s₁ : State) (h₁ : Stage s false [] none s₁) :
      Runs (function go .functionDeclaration) s₁ fun n s' => Stage s true [n] none s' :=
    (adds_function hgo (by decide) s₁ h₁.last).imp fun _ _ h₂ => h₁.trans h₂
  have hclass (s₁ : State) (h₁ : Stage s false [] none s₁) :
      Runs (classBody go []) s₁ fun n s' => Stage s true [n] none s' :=
    runs_classBody hgo h₁ fun _ hd => absurd hd List.not_mem_nil
  refine runs_here (runs_look ?_)
  cases hform : statementForm s with
  | block => exact adds_block hgo s hs
  | empty => exact runs_tokenNode h (hend (by simp [hform])) (by decide)
  | decorated => exact runs_decoratedStatement hgo hs (isAt_of_form_decorated hform)
  | importClause => exact runs_importClause hs (hend (by simp [hform]))
  | exportClause => exact runs_exportClause hgo hs (hend (by simp [hform]))
  | declared =>
    exact h.pass passes_advance fun _ s₁ h₁ =>
      (hgo .statement s₁ h₁.last).imp fun _ _ h₂ => h₁.trans h₂
  | namespaceBody => exact runs_namespaceBody hgo hs (hend (by simp [hform]))
  | constEnum =>
    exact h.token (hend (by simp [hform])) fun s₁ h₁ _ =>
      (runs_enumeration h₁.last).imp fun _ _ h₂ => h₁.trans h₂
  | enumeration =>
    have hne := h.rest_ne_nil (hend (by simp [hform]))
    refine (runs_enumeration hs).imp fun n s' h' => ?_
    rwa [List.isEmpty_eq_false_iff.mpr hne] at h'
  | «variables» =>
    refine (runs_variableStatement hgo hs (hend (by simp [hform]))).bind fun n s₁ h₁ => ?_
    exact h₁.pass (passes_optional _) fun _ s₂ h₂ => runs_pure h₂
  | function => exact hfunction s h
  | asyncFunction => exact h.pass passes_advance fun _ s₁ h₁ => hfunction s₁ h₁
  | classDeclaration => exact hclass s h
  | abstractClass => exact h.pass passes_advance fun _ s₁ h₁ => hclass s₁ h₁
  | interface => exact runs_interface hs hform
  | typeAlias => exact runs_typeAlias hs hform
  | returning => exact runs_returning hgo hs (hend (by simp [hform]))
  | branch => exact adds_branch hgo s hs
  | forLoop => exact adds_forLoop hgo s hs
  | whileLoop => exact adds_whileLoop hgo s hs
  | doLoop => exact adds_doLoop hgo s hs
  | switch => exact adds_switch hgo s hs
  | trying => exact adds_trying hgo s hs
  | throwing => exact adds_throwing hgo s hs
  | jump => exact runs_jump hs (hend (by simp [hform]))
  | labelled =>
    refine h.pass passes_advance fun _ s₁ h₁ => h₁.pass passes_advance fun _ s₂ h₂ => ?_
    exact (hgo .statement s₂ h₂.last).imp fun _ _ h₃ => h₂.trans h₃
  | expression => exact runs_expressionStatement hgo h

end

theorem builds_rule (fuel : Nat) : Builds (rule fuel) := by
  induction fuel with
  | zero =>
    intro r s _ depth n s' hrun
    cases hrun
  | succ fuel ih =>
    intro r
    cases r with
    | statement => exact adds_nested (adds_statement ih)
    | assignment => exact adds_nested (adds_assignment ih)
    | binary above => exact adds_nested (adds_binary ih above)
    | unary => exact adds_nested (adds_unary ih)
    | construction => exact adds_nested (adds_construction ih)
    | access => exact adds_access ih

theorem adds_statements {go : Recur} (hgo : Builds go) : Adds (statements go) false id := by
  refine adds_gather (adds_of_runs fun s h => ?_)
  exact runs_look (runs_ite (fun _ => runs_pure h) fun _ => runs_statementTurn hgo h)

end Grammar

namespace Parsed

open Grammar

/-- The tree of a source is a root over the nodes that the grammar makes on its tokens. -/
theorem ofSource_made (source : List Char) : ∃ nodes s,
    Makes (start source) nodes s ∧
    (ofSource source).faults = (tokenize source).faults ++ s.faults.reverse ∧
    (ofSource source).root =
      ⟨s.built, .sourceFile, ⟨0, byteLength source⟩, none, none, nodes⟩ := by
  obtain ⟨root, s, hrun, -⟩ := exists_run source
  rw [ofSource_of_run hrun]
  have hprogram : Runs (program (rule (fuelFor source)) (byteLength source)) (start source)
      fun root s' => ∃ nodes s, Makes (start source) nodes s ∧ s'.faults = s.faults ∧
        root = ⟨s.built, .sourceFile, ⟨0, byteLength source⟩, none, none, nodes⟩ := by
    refine (adds_statements (builds_rule _) _ (isEnd_getLastD_tokenize source)).bind ?_
    intro nodes s h depth root s' hrun
    obtain ⟨rfl, rfl⟩ := Prod.mk.inj (Option.some.inj hrun)
    exact ⟨nodes, s, h.makes, rfl, rfl⟩
  obtain ⟨nodes, s₁, hmakes, hfaults, hroot⟩ := hprogram 0 root s hrun
  exact ⟨nodes, s₁, hmakes, by rw [hfaults], hroot⟩

end Parsed

end Subscriptions
