import Subscriptions.Proofs.Making.Members

namespace Subscriptions.Grammar

variable {go : Recur} {m s : State} {b : Bool} {x : Option Name} {kind : Kind} {object : Node}

theorem runs_missingExpression (h : Stage m b [] none s) :
    Runs (missingExpression m.current.span.start) s fun n s' => Stage m true [n] none s' := by
  refine Runs.bind (runs_update (P := fun _ s' => ∃ found,
    s' = s.report (.expected .expression found s.current.span)) ⟨_, rfl⟩) ?_
  rintro _ _ ⟨found, rfl⟩
  exact runs_buildHollow h rfl rfl (.start _)

/-- A literal, or another expression of one token. -/
theorem runs_tokenNode (h : Stage m b [] none s) (hs : s.current.isEnd = false)
    (hkind : kind ≠ .unknown) : Runs (do advance; build kind m.current.span.start []) s
      fun n s' => Stage m true [n] none s' :=
  h.token hs fun _ h₁ _ => runs_build h₁ hkind

theorem passes_castType : Passes castType := by
  refine adds_of_runs fun s h => h.ifAcceptWord (fun s₁ h₁ => runs_pure h₁.weaken) ?_
  exact passes_typeUpTo _ s h.last

/-- A member of what was read before. -/
theorem runs_propertyAccess {f : Node → Parse (Node × Bool)} (h : Stage m true [object] none s)
    (hword : s.current.isWord = true)
    (hf : ∀ n s', Stage m true [n] none s' → Runs (f n) s' fun r s' => Stage m true [r.1] none s') :
    Runs (do
      let name ← takeName
      f (← buildNamed .propertyAccess m.current.span.start (some name) none [object])) s
      fun r s' => Stage m true [r.1] none s' :=
  h.takeName (h.rest_ne_nil (isEnd_of_isWord hword)) fun name s₁ h₁ =>
    (runs_buildNamed h₁ (by decide)).bind hf

variable (hgo : Builds go)

include hgo

theorem adds_expression : Adds (expression go) true fun n => [n] := by
  refine adds_of_runs fun s h => runs_here (h.addAll (hgo .assignment) fun first s₁ h₁ => ?_)
  refine runs_look (runs_ite (fun _ => ?_) fun _ => runs_pure h₁)
  refine h₁.addAll (adds_gather (adds_of_runs fun s h => ?_)) fun others s₂ h₂ =>
    runs_build h₂ (by decide)
  refine h.ifAccept (fun s₁ h₁ => ?_) fun _ => runs_pure h
  exact h₁.addAll (hgo .assignment) fun n s₂ h₂ => runs_pure h₂.weaken

theorem adds_spreadOrAssignment : Adds (spreadOrAssignment go) true fun n => [n] := by
  refine adds_of_runs fun s h => runs_look (runs_ite (fun _ => runs_here ?_) fun _ => ?_)
  · refine h.pass passes_advance fun _ s₁ h₁ => ?_
    exact h₁.addAll (hgo .assignment) fun value s₂ h₂ => runs_build h₂ (by decide)
  · exact hgo .assignment s h.last

theorem adds_arguments : Adds (arguments go) true id := by
  refine adds_of_runs fun s h => h.pass (adds_expect _) fun _ s₁ h₁ => ?_
  refine h₁.addAll (adds_gather (adds_of_runs fun s h => ?_)) fun nodes s₂ h₂ =>
    h₂.pass (adds_expect _) fun _ s₃ h₃ => runs_pure h₃
  refine runs_look (runs_ite (fun _ => runs_pure h) fun _ => ?_)
  refine h.addAll (adds_spreadOrAssignment hgo) fun node s₁ h₁ => ?_
  exact h₁.pass (passes_accept _) fun more s₂ h₂ => runs_pure h₂.weaken

theorem runs_elementAccess (h : Stage m true [object] none s) :
    Runs (elementAccess go m.current.span.start object) s fun n s' => Stage m true [n] none s' := by
  refine h.pass (adds_expect _) fun _ s₁ h₁ => ?_
  refine h₁.addAll (adds_expression hgo) fun index s₂ h₂ => ?_
  exact h₂.pass (adds_expect _) fun _ s₃ h₃ => runs_build h₃ (by decide)

theorem runs_arrow (h : Stage m b [] none s) :
    Runs (arrow go m.current.span.start) s fun n s' => Stage m true [n] none s' := by
  have hrest (params : List Node) (s₁ : State) (h₁ : Stage m true params none s₁) : Runs (do
      let returned ← annotation ["=>"]
      expect "=>"
      let body ← if (← look).isAt "\x7b" then block go else go .assignment
      buildNamed .arrowFunction m.current.span.start none returned (params ++ [body])) s₁
      fun n s' => Stage m true [n] none s' := by
    refine h₁.pass (passes_annotated _) fun returned s₂ h₂ => ?_
    refine h₂.pass (adds_expect _) fun _ s₃ h₃ => runs_look (runs_ite (fun _ => ?_) fun _ => ?_)
    · exact h₃.addAll (adds_block hgo) fun body s₄ h₄ => runs_buildNamed h₄ (by decide)
    · exact h₃.addAll (hgo .assignment) fun body s₄ h₄ => runs_buildNamed h₄ (by decide)
  refine runs_look (runs_ite (fun hword => ?_) fun _ => ?_)
  · have hstart := Stage.start s h.last
    have hne := h.rest_ne_nil (isEnd_of_isWord hword)
    refine runs_here (hstart.takeName hne fun name s₁ h₁ => ?_)
    refine (runs_buildNamed h₁ (by decide)).bind fun param s₂ h₂ => ?_
    exact Runs.bind (P := fun params => Stage m true params none)
      (runs_pure (h.weaken.trans h₂)) hrest
  · exact h.weaken.addAll (adds_parameters hgo) fun params s₁ h₁ => hrest params s₁ h₁

theorem adds_arrayLiteral : Adds (arrayLiteral go) true fun n => [n] := by
  refine adds_of_runs fun s h => runs_here (h.pass (adds_expect _) fun _ s₁ h₁ => ?_)
  refine h₁.addAll (adds_gather (adds_of_runs fun s h => ?_)) fun elements s₂ h₂ =>
    h₂.pass (adds_expect _) fun _ s₃ h₃ => runs_build h₃ (by decide)
  refine runs_look (runs_ite (fun _ => runs_pure h) fun _ => ?_)
  refine runs_ite (fun _ => h.pass passes_advance fun _ s₁ h₁ => runs_pure h₁) fun _ => ?_
  refine h.addAll (adds_spreadOrAssignment hgo) fun node s₁ h₁ => ?_
  exact h₁.pass (passes_accept _) fun more s₂ h₂ => runs_pure h₂.weaken

theorem runs_objectMethod (hkind : kind ≠ .unknown) (h : Stage m true [] x s) :
    Runs (objectMethod go kind m.current.span.start x) s fun n s' => Stage m true [n] none s' := by
  refine h.pass passes_skipAngles fun _ s₁ h₁ => ?_
  refine h₁.addAll (adds_parameters hgo) fun params s₂ h₂ => ?_
  refine h₂.pass (passes_annotated _) fun returned s₃ h₃ => ?_
  exact h₃.addAll (adds_block hgo) fun body s₄ h₄ => runs_buildNamed h₄ hkind

/-- The identifier that a shorthand member stands for is the name of the member once more. -/
theorem runs_shorthandMember {a : State} (h : Stage m false [] none a) (hx : NamedFrom a x s) :
    Runs (shorthandMember go m.current.span.start x) s fun n s' => Stage m true [n] none s' := by
  have hnamed := h.transNamed hx.1
  have hrest (value : List Node) (s₁ : State) (h₁ : Stage m true value x s₁) : Runs (do
      let default ← initializer go
      buildNamed .propertyAssignment m.current.span.start x none (value ++ default)) s₁
      fun n s' => Stage m true [n] none s' :=
    h₁.addAll (adds_initializer hgo) fun default s₂ h₂ => runs_buildNamed h₂ (by decide)
  cases x with
  | none => exact hrest [] s hnamed
  | some y =>
    obtain ⟨hstage, hspan⟩ := hx
    obtain ⟨hstart, hstop⟩ := hspan y rfl
    let node : Node := ⟨s.built, .identifier, y.span, some y, none, []⟩
    have hmade : Made a s [] [] node :=
      ⟨rfl, hstart, hstop.imp_right (⟨·, hstage.moved rfl⟩), nofun,
        fun z hz => .inl (hstage.named z hz), .inl (hstage.moved rfl), nofun⟩
    have hmakes : Makes m [node] (s.alloc node) :=
      @Makes.node m a s [] [] [] node h.makes hstage.makes hmade
    refine Runs.bind (P := fun node s' => Stage m true [node] (some y) s') ?_ fun node s₁ h₁ =>
      hrest [node] s₁ h₁
    intro depth n s' hrun
    obtain ⟨rfl, rfl⟩ := Prod.mk.inj (Option.some.inj hrun)
    exact ⟨hmakes, hnamed.last, hnamed.moved, hnamed.named⟩

theorem adds_objectMember : Adds (objectMember go) true fun n => [n] := by
  refine adds_of_runs fun s h => runs_look (runs_ite (fun _ => ?_) fun _ => runs_here ?_)
  · exact adds_spreadOrAssignment hgo s h.last
  refine Runs.bind (P := fun kind s' => kind ≠ .unknown ∧ Stage s false [] none s') ?_ ?_
  · refine runs_look (runs_ite (fun _ => ?_) fun _ => runs_pure ⟨nofun, h⟩)
    refine h.pass passes_advance fun _ s₁ h₁ => runs_pure ⟨?_, h₁⟩
    split <;> exact nofun
  rintro kind s₁ ⟨hkind, h₁⟩
  refine h₁.pass (passes_optional _) fun _ s₂ h₂ => ?_
  refine (runs_memberName h₂.last).bind fun name s₃ h₃ => ?_
  have hnamed : Stage s true [] name s₃ := h₂.transNamed h₃.1
  refine runs_look (runs_ite (fun _ => ?_) fun _ => runs_ite (fun _ => ?_) fun _ => ?_)
  · exact runs_objectMethod hgo hkind hnamed
  · refine hnamed.pass passes_advance fun _ s₄ h₄ => ?_
    exact h₄.addAll (hgo .assignment) fun value s₅ h₅ => runs_buildNamed h₅ (by decide)
  · exact runs_shorthandMember hgo h₂ h₃

theorem adds_objectLiteral : Adds (objectLiteral go) true fun n => [n] := by
  refine adds_of_runs fun s h => runs_here (h.pass (adds_expect _) fun _ s₁ h₁ => ?_)
  refine h₁.addAll (adds_gather (adds_of_runs fun s h => ?_)) fun members s₂ h₂ =>
    h₂.pass (adds_expect _) fun _ s₃ h₃ => runs_build h₃ (by decide)
  refine runs_look (runs_ite (fun _ => runs_pure h) fun _ => ?_)
  refine h.addAll (adds_objectMember hgo) fun node s₁ h₁ => ?_
  exact h₁.pass (passes_accept _) fun more s₂ h₂ => runs_pure h₂.weaken

theorem runs_template (hs : s.last.isEnd = true) (hend : s.current.isEnd = false) :
    Runs (template go) s fun n s' => Stage s true [n] none s' := by
  refine runs_here ((Stage.start s hs).token hend fun s₁ h₁ _ => ?_)
  refine h₁.addAll (adds_gather (adds_of_runs fun s h => ?_)) fun substitutions s₂ h₂ =>
    runs_build h₂ (by decide)
  refine h.addAll (adds_expression hgo) fun node s₁ h₁ => runs_look ?_
  split
  · exact h₁.pass passes_advance fun _ s₂ h₂ => runs_pure h₂.weaken
  · exact h₁.pass passes_advance fun _ s₂ h₂ => runs_pure h₂.weaken
  · exact h₁.pass (adds_report _ (by decide)) fun _ s₂ h₂ => runs_pure h₂.weaken

theorem runs_wordPrimary (hs : s.last.isEnd = true) (hend : s.current.isEnd = false) :
    Runs (wordPrimary go) s fun n s' => Stage s true [n] none s' := by
  have h := Stage.start s hs
  refine runs_here (runs_look ?_)
  split
  · exact adds_function hgo (by decide) s hs
  · exact h.pass passes_advance fun _ s₁ h₁ =>
      (adds_function hgo (by decide) s₁ h₁.last).imp fun _ _ h₂ => h₁.trans h₂
  · exact runs_classBody hgo h (fun _ hd => absurd hd List.not_mem_nil)
  · exact h.pass passes_advance fun _ s₁ h₁ => runs_arrow hgo h₁
  · exact runs_tokenNode h hend (by decide)
  · exact runs_tokenNode h hend (by decide)
  · exact runs_tokenNode h hend (by decide)
  · exact runs_arrow hgo h
  · exact h.takeName (h.rest_ne_nil hend) fun name s₁ h₁ => runs_buildNamed h₁ (by decide)

theorem runs_punctPrimary (h : Stage s false [] none s) :
    Runs (punctPrimary go s.current.span.start) s fun n s' => Stage s true [n] none s' := by
  refine runs_look (runs_ite (fun _ => runs_ite (fun _ => ?_) fun _ => ?_) fun _ => ?_)
  · exact runs_arrow hgo h
  · refine h.pass passes_advance fun _ s₁ h₁ => ?_
    refine h₁.addAll (adds_expression hgo) fun inner s₂ h₂ => ?_
    exact h₂.pass (adds_expect _) fun _ s₃ h₃ => runs_build h₃ (by decide)
  refine runs_ite (fun _ => adds_arrayLiteral hgo s h.last) fun _ => ?_
  refine runs_ite (fun _ => adds_objectLiteral hgo s h.last) fun _ => ?_
  refine runs_ite (fun _ => ?_) fun _ => runs_ite (fun _ => runs_missingExpression h) fun _ => ?_
  · refine h.pass passes_skipAngles fun _ s₁ h₁ => runs_look (runs_ite (fun _ => ?_) fun _ => ?_)
    · exact runs_arrow hgo h₁
    · exact runs_missingExpression h₁
  · refine Runs.bind (runs_update (P := fun _ s' => ∃ found,
      s' = s.report (.expected .expression found s.current.span)) ⟨_, rfl⟩) ?_
    rintro _ _ ⟨found, rfl⟩
    refine Runs.bind (runs_update (P := fun _ s' =>
      Makes (s.report (.expected .expression found s.current.span)) [] s')
      ((Makes.start _).read _ (take_append_drop_one _))) fun _ s' hs' => ?_
    exact runs_buildHollow h rfl rfl hs'

theorem adds_primary : Adds (primary go) true fun n => [n] := by
  refine adds_of_runs fun s h => runs_here (runs_look ?_)
  split
  · rename_i hkind
    exact runs_wordPrimary hgo h.last (isEnd_of_kind hkind (by decide))
  · rename_i hkind
    exact runs_tokenNode h (isEnd_of_kind hkind (by decide)) (by decide)
  · rename_i hkind
    exact runs_tokenNode h (isEnd_of_kind hkind (by decide)) (by decide)
  · rename_i hkind
    exact runs_tokenNode h (isEnd_of_kind hkind (by decide)) (by decide)
  · rename_i hkind
    exact runs_tokenNode h (isEnd_of_kind hkind (by decide)) (by decide)
  · rename_i hkind
    exact runs_template hgo h.last (isEnd_of_kind hkind (by decide))
  · exact runs_punctPrimary hgo h
  · exact runs_missingExpression h
  · exact runs_missingExpression h
  · exact runs_missingExpression h

theorem runs_calleeStep (h : Stage m true [object] none s) :
    Runs (calleeStep go m.current.span.start object) s fun r s' => Stage m true [r.1] none s' := by
  refine runs_look (runs_ite (fun _ => ?_) fun _ => runs_ite (fun _ => ?_) fun _ => runs_pure h)
  · refine h.pass passes_advance fun _ s₁ h₁ => runs_look (runs_ite (fun hword => ?_) fun _ => ?_)
    · exact runs_propertyAccess h₁ hword fun n s₂ h₂ => runs_pure h₂
    · exact h₁.pass (adds_report _ (by decide)) fun _ s₂ h₂ => runs_pure h₂
  · exact (runs_elementAccess hgo h).bind fun n s₁ h₁ => runs_pure h₁

theorem adds_construction : Adds (construction go) true fun n => [n] := by
  refine adds_of_runs fun s h => runs_here (h.pass passes_advance fun _ s₁ h₁ => ?_)
  refine h₁.ifAccept (fun s₂ h₂ => ?_) fun _ => runs_here ?_
  · -- the name behind the dot is taken whatever it is, at the end of the file too
    by_cases hne : s₂.rest = []
    · refine Runs.bind (P := fun y s₃ => Stage s true [] none s₃ ∧ s₃.rest = [] ∧
        y = ⟨s₃.last.text, s₃.last.span⟩) ?_ ?_
      · refine runs_look (Runs.bind (runs_update (P := fun _ s₃ => Stage s true [] none s₃ ∧
          s₃.rest = [] ∧ s₃.last = s₂.last) ⟨h₂.advanced, by simp [State.read, hne], rfl⟩) ?_)
        rintro _ s₃ ⟨h₃, hrest, hlast⟩
        refine runs_pure ⟨h₃, hrest, ?_⟩
        rw [State.current, hne, hlast]
        rfl
      · rintro name s₃ ⟨h₃, hrest, hname⟩ depth n s' hrun
        obtain ⟨rfl, rfl⟩ := Prod.mk.inj (Option.some.inj hrun)
        refine ⟨h₃.makes.made ?_, h₃.last, h₃.moved, fun _ hy => absurd hy (Option.not_mem_none _)⟩
        refine ⟨rfl, rfl, .inl rfl, fun _ hd => absurd hd List.not_mem_nil, ?_, .inl (h₃.moved rfl),
          fun hkind => ?_⟩
        · rintro _ ⟨⟩
          exact .inr ⟨rfl, hrest, hname⟩
        · cases hkind
    · exact h₂.takeName hne fun name s₃ h₃ => runs_buildNamed h₃ (by decide)
  have hrest (first : Node) (s₂ : State) (h₂ : Stage s₁ true [first] none s₂) : Runs (do
      let callee ← climb (calleeStep go s₁.current.span.start) first
      skipAngles
      let args ← if (← look).isAt "(" then arguments go else pure []
      build .construction s.current.span.start (callee :: args)) s₂
      fun n s' => Stage s true [n] none s' := by
    refine (runs_climb (fun n s h => runs_calleeStep hgo h) h₂).bind fun callee s₃ h₃ => ?_
    have hcallee : Stage s true [callee] none s₃ := h₁.trans h₃
    refine hcallee.pass passes_skipAngles fun _ s₄ h₄ => runs_look (runs_ite (fun _ => ?_) fun _ => ?_)
    · exact h₄.addAll (adds_arguments hgo) fun args s₅ h₅ => runs_build h₅ (by decide)
    · exact runs_build h₄ (by decide)
  have hstart := Stage.start s₁ h₁.last
  refine runs_look (runs_ite (fun _ => ?_) fun _ => ?_)
  · exact hstart.addAll (hgo .construction) fun first s₂ h₂ => hrest first s₂ h₂
  · exact hstart.addAll (adds_primary hgo) fun first s₂ h₂ => hrest first s₂ h₂

theorem runs_callOf (h : Stage m true [object] none s) :
    Runs (callOf go m.current.span.start object) s fun n s' => Stage m true [n] none s' :=
  h.addAll (adds_arguments hgo) fun _ _ h₁ => runs_build h₁ (by decide)

theorem runs_memberStep (h : Stage m true [object] none s) :
    Runs (memberStep go m.current.span.start object) s fun r s' => Stage m true [r.1] none s' := by
  refine h.pass passes_advance fun _ s₁ h₁ => runs_look (runs_ite (fun _ => ?_) fun _ => ?_)
  · exact (runs_callOf hgo h₁).bind fun n s₂ h₂ => runs_pure h₂
  refine runs_ite (fun _ => ?_) fun _ => runs_ite (fun hword => ?_) fun _ => ?_
  · exact (runs_elementAccess hgo h₁).bind fun n s₂ h₂ => runs_pure h₂
  · exact runs_propertyAccess h₁ hword fun n s₂ h₂ => runs_pure h₂
  · exact h₁.pass (adds_report _ (by decide)) fun _ s₂ h₂ => runs_pure h₂

theorem runs_accessStep (h : Stage m true [object] none s) :
    Runs (accessStep go m.current.span.start object) s fun r s' => Stage m true [r.1] none s' := by
  have hcall (s₁ : State) (h₁ : Stage m true [object] none s₁) : Runs
      (do return (← callOf go m.current.span.start object, true)) s₁
      fun r s' => Stage m true [r.1] none s' :=
    (runs_callOf hgo h₁).bind fun n s₂ h₂ => runs_pure h₂
  refine runs_look (runs_ite (fun _ => runs_memberStep hgo h) fun _ =>
    runs_ite (fun _ => ?_) fun _ => ?_)
  · exact (runs_elementAccess hgo h).bind fun n s₁ h₁ => runs_pure h₁
  refine runs_ite (fun _ => hcall s h) fun _ => runs_ite (fun _ => ?_) fun _ => ?_
  · exact h.pass passes_skipAngles fun _ s₁ h₁ => hcall s₁ h₁
  refine runs_ite (fun _ => ?_) fun _ => runs_ite (fun _ => ?_) fun _ => runs_pure h
  · refine h.addAll (adds_primary hgo) fun template s₁ h₁ => ?_
    have hkind : Kind.call ≠ .unknown := nofun
    exact (runs_build h₁ hkind).bind fun n s₂ h₂ => runs_pure h₂
  · exact h.pass passes_advance fun _ s₁ h₁ => runs_pure h₁

theorem adds_access : Adds (access go) true fun n => [n] := by
  have hclimb {s : State} (first : Node) (s₁ : State) (h₁ : Stage s true [first] none s₁) :
      Runs (climb (accessStep go s.current.span.start) first) s₁
        fun n s' => Stage s true [n] none s' :=
    runs_climb (fun n s h => runs_accessStep hgo h) h₁
  refine adds_of_runs fun s h => runs_here (runs_look (runs_ite (fun _ => ?_) fun _ => ?_))
  · exact h.addAll (hgo .construction) hclimb
  · exact h.addAll (adds_primary hgo) hclimb

theorem adds_unary : Adds (unary go) true fun n => [n] := by
  refine adds_of_runs fun s h => runs_here (runs_look (runs_ite (fun _ => ?_) fun _ => ?_))
  · refine h.pass passes_advance fun _ s₁ h₁ => ?_
    exact h₁.addAll (hgo .unary) fun operand s₂ h₂ => runs_build h₂ (by decide)
  · refine h.addAll (hgo .access) fun expression s₁ h₁ => runs_look ?_
    refine runs_ite (fun _ => ?_) fun _ => runs_pure h₁
    exact h₁.pass passes_advance fun _ s₂ h₂ => runs_build h₂ (by decide)

theorem runs_binaryStep (above : Nat) (h : Stage m true [object] none s) :
    Runs (binaryStep go above m.current.span.start object) s
      fun r s' => Stage m true [r.1] none s' := by
  have hnext {n : Node} {s₁ : State} (h₁ : Stage m true [n] none s₁) :
      Runs (pure (n, true)) s₁ fun r s' => Stage m true [r.1] none s' := runs_pure h₁
  refine runs_look ?_
  dsimp only
  split
  · exact runs_pure h
  · refine h.pass passes_advance fun _ s₁ h₁ => runs_ite (fun _ => ?_) fun _ => ?_
    · refine h₁.pass passes_castType fun declared s₂ h₂ => ?_
      exact (runs_buildNamed h₂ (by decide)).bind fun n s₃ h₃ => hnext h₃
    · refine h₁.addAll (hgo (.binary _)) fun right s₂ h₂ => ?_
      have hkind : Kind.binary ≠ .unknown := nofun
      exact (runs_build h₂ hkind).bind fun n s₃ h₃ => hnext h₃

theorem adds_binary (above : Nat) : Adds (binary go above) true fun n => [n] := by
  refine adds_of_runs fun s h => runs_here (h.addAll (hgo .unary) fun first s₁ h₁ => ?_)
  exact runs_climb (fun n s h => runs_binaryStep hgo above h) h₁

theorem adds_conditional : Adds (conditional go) true fun n => [n] := by
  refine adds_of_runs fun s h => runs_here (h.addAll (hgo (.binary 0)) fun condition s₁ h₁ => ?_)
  refine h₁.ifAccept (fun s₂ h₂ => ?_) fun _ => runs_pure h₁
  refine h₂.addAll (hgo .assignment) fun whenTrue s₃ h₃ => ?_
  refine h₃.pass (adds_expect _) fun _ s₄ h₄ => ?_
  exact h₄.addAll (hgo .assignment) fun whenFalse s₅ h₅ => runs_build h₅ (by decide)

theorem adds_assignment : Adds (assignment go) true fun n => [n] := by
  refine adds_of_runs fun s h => runs_here (runs_look (runs_ite (fun hyield => ?_) fun _ => ?_))
  · refine h.token (isEnd_of_isTheWord hyield) fun s₁ h₁ _ => ?_
    refine h₁.pass (passes_optional _) fun _ s₂ h₂ => runs_look (runs_ite (fun _ => ?_) fun _ => ?_)
    · exact runs_build h₂ (by decide)
    · exact h₂.addAll (hgo .assignment) fun value s₃ h₃ => runs_build h₃ (by decide)
  · refine h.addAll (adds_conditional hgo) fun target s₁ h₁ => runs_look ?_
    refine runs_ite (fun _ => ?_) fun _ => runs_pure h₁
    refine h₁.pass passes_advance fun _ s₂ h₂ => ?_
    exact h₂.addAll (hgo .assignment) fun value s₃ h₃ => runs_build h₃ (by decide)

end Subscriptions.Grammar
