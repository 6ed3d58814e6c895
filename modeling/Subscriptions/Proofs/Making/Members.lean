import Subscriptions.Proofs.Making.Steps

namespace Subscriptions.Grammar

variable {go : Recur} {m s : State} {b : Bool} {x : Option Name} {kind : Kind}

def NamedFrom (s : State) (x : Option Name) (s' : State) : Prop :=
  Stage s true [] x s' ∧ ∀ y ∈ x, y.span.start = s.current.span.start ∧
    (y.span.stop = max s'.readTo y.span.start ∨ y.span.stop = s'.readTo)

theorem readTo_token (hs : s.rest ≠ []) :
    (s.read (s.rest.take 1, s.rest.drop 1)).readTo = s.current.span.stop := by
  obtain ⟨t, ts, hrest⟩ := List.exists_cons_of_ne_nil hs
  simp [State.read, State.current, hrest]

/-- A computed name goes from its opening bracket to the last token that is skipped with it. -/
theorem exists_balanced (hat : s.isAt "[" = true) (hne : s.rest ≠ []) :
    ∃ us, (balanced 0 s.rest).1 = s.current :: us := by
  obtain ⟨t, ts, hrest⟩ := List.exists_cons_of_ne_nil hne
  rw [State.isAt, State.current, hrest, List.headD_cons, Token.isPunct, Bool.and_eq_true,
    beq_iff_eq, beq_iff_eq] at hat
  have hopen : t.isPunctOf openers = true := by
    rw [Token.isPunctOf, hat.1, hat.2]
    decide
  rw [State.current, hrest, balanced, if_pos hopen]
  exact ⟨_, rfl⟩

theorem runs_memberName (hs : s.last.isEnd = true) : Runs memberName s (NamedFrom s) := by
  have h := Stage.start s hs
  refine runs_look (runs_ite (fun hkind => ?_) fun _ => runs_ite (fun hat => ?_) fun _ => ?_)
  · have hend : s.current.isEnd = false := by
      simp only [Bool.or_eq_true, beq_iff_eq] at hkind
      rcases hkind with (hkind | hkind) | hkind
      · exact isEnd_of_isWord hkind
      · exact isEnd_of_kind hkind (by decide)
      · exact isEnd_of_kind hkind (by decide)
    refine Runs.bind (runs_update (P := fun _ s' =>
      s' = s.read (s.rest.take 1, s.rest.drop 1)) rfl) ?_
    rintro _ _ rfl
    refine runs_pure ⟨h.named_of_ne_nil (h.rest_ne_nil hend) _, ?_⟩
    rintro _ ⟨⟩
    exact ⟨rfl, .inr (readTo_token (h.rest_ne_nil hend)).symm⟩
  · have hend : s.current.isEnd = false := isEnd_of_isPunct hat
    obtain ⟨us, hus⟩ := exists_balanced hat (h.rest_ne_nil hend)
    have hcut := balanced_append s.rest 0
    have hread := h.read _ hcut
    obtain ⟨before, u, hlast⟩ : ∃ before u, (balanced 0 s.rest).1 = before ++ [u] :=
      ⟨_, _, (List.dropLast_concat_getLast (by rw [hus]; exact List.cons_ne_nil _ _)).symm⟩
    refine runs_here (Runs.bind (runs_skip (P := fun _ s' => s' = s.read (balanced 0 s.rest)) rfl) ?_)
    rintro tokens _ rfl
    refine runs_look (runs_pure ⟨⟨hread.makes, hread.last, fun _ => ?_, ?_⟩, ?_⟩)
    · have hlength := congrArg List.length hcut
      rw [hus, List.length_append, List.length_cons] at hlength
      refine .inl ?_
      simp only [State.read]
      omega
    · rintro _ ⟨⟩
      refine ⟨_, hcut.symm, s.current, by rw [hus]; exact List.mem_cons_self, u,
        by rw [hlast]; exact List.mem_concat_self, rfl, ?_⟩
      simp [State.read, hlast]
    · rintro _ ⟨⟩
      exact ⟨rfl, .inl rfl⟩
  · exact h.pass (adds_report _ (by decide)) fun _ s' h' =>
      runs_pure ⟨h', fun _ hy => absurd hy (Option.not_mem_none _)⟩

theorem names_memberName : Names memberName := fun _ hs => (runs_memberName hs).imp fun _ _ h => h.1

/-- A word is a name; a pattern is skipped, and anything else is a fault. -/
theorem runs_skipPattern (h : Stage m b [] none s) (hne : s.rest ≠ []) :
    Runs (do skipBalanced; return (none : Option Name)) s fun x s' => Stage m true [] x s' := by
  have hlt : (balanced 0 s.rest).2.length < s.rest.length := by
    obtain ⟨t, ts, hrest⟩ := List.exists_cons_of_ne_nil hne
    rw [hrest, balanced]
    have hsuffix (depth : Nat) := (balanced_suffix depth ts).length_le
    split
    · exact Nat.lt_succ_of_le (hsuffix _)
    · split
      · split
        · exact Nat.lt_succ_self _
        · exact Nat.lt_succ_of_le (hsuffix _)
      · exact Nat.lt_succ_of_le (hsuffix _)
  have hread := h.read _ (balanced_append s.rest 0)
  have hskipped : Runs skipBalanced s fun _ s' => Stage m true [] none s' := by
    refine Runs.bind (runs_skip (P := fun _ s' => Stage m true [] none s') ?_) fun _ _ h' =>
      runs_pure h'
    exact ⟨hread.makes, hread.last, fun _ => h.makes.moved_of_moved (.inl hlt),
      fun _ hy => absurd hy (Option.not_mem_none _)⟩
  exact hskipped.bind fun _ s' h' => runs_pure h'

theorem names_parameterName : Names parameterName := by
  intro s hs
  have h := Stage.start s hs
  refine runs_look (runs_ite (fun hword => ?_) fun _ => runs_ite (fun hat => ?_) fun _ => ?_)
  · exact h.takeName (h.rest_ne_nil (isEnd_of_isWord hword)) fun y s' h' => runs_pure h'
  · rw [Bool.or_eq_true] at hat
    exact runs_skipPattern h (h.rest_ne_nil (hat.elim isEnd_of_isPunct isEnd_of_isPunct))
  · refine h.pass (adds_report _ (by decide)) fun _ s₁ h₁ => runs_ite (fun _ => ?_) fun _ => runs_pure h₁
    exact h₁.pass passes_advance fun _ s₂ h₂ => runs_pure h₂

def decoratorTurn (go : Recur) : Parse (List Node × Bool) := do
  if (← look).isAt "@" then
    let start ← here
    advance
    let expression ← go .access
    return ([← build .decorator start [expression]], true)
  else return ([], false)

/-- Decorators, and at least one of them behind an at sign. -/
structure Decorates (s : State) (ns : List Node) (s' : State) : Prop where
  stage : Stage s false ns none s'
  kinds : ∀ d ∈ ns, d.kind = .decorator
  ne_nil : s.isAt "@" = true → ns ≠ []

variable (hgo : Builds go)

include hgo

theorem runs_decoratorTurn (hs : s.last.isEnd = true) :
    Runs (decoratorTurn go) s fun r => Decorates s r.1 := by
  have h := Stage.start s hs
  refine runs_look (runs_ite (fun hat => runs_here ?_) fun hat => ?_)
  · refine h.token (isEnd_of_isPunct hat) fun s₁ h₁ _ => ?_
    refine h₁.addAll (hgo .access) fun expression s₂ h₂ => ?_
    have hkind : Kind.decorator ≠ .unknown := nofun
    have hbuilt : Runs (build .decorator s.current.span.start [expression]) s₂ fun n s' =>
        Stage s true [n] none s' ∧ n.kind = .decorator := by
      intro depth n s' hrun
      refine ⟨runs_build h₂ hkind depth n s' hrun, ?_⟩
      obtain ⟨rfl, -⟩ := Prod.mk.inj (Option.some.inj hrun)
      rfl
    refine hbuilt.bind fun n s₃ h₃ => runs_pure ⟨h₃.1.weaken, ?_, fun _ => List.cons_ne_nil _ _⟩
    exact List.forall_mem_singleton.mpr h₃.2
  · exact runs_pure ⟨h, fun _ hd => absurd hd List.not_mem_nil, fun hat' => absurd hat' hat⟩

theorem runs_decorators (hs : s.last.isEnd = true) :
    Runs (decorators go) s fun ns => Decorates s ns := by
  have hturns (fuel : Nat) : ∀ s, s.last.isEnd = true →
      Runs (turns fuel (decoratorTurn go)) s fun ns => Decorates s ns := by
    induction fuel with
    | zero =>
      intro s _ depth a s' hrun
      cases hrun
    | succ fuel ih =>
      intro s hs
      refine (runs_decoratorTurn hgo hs).bind ?_
      rintro ⟨ns, more⟩ s₁ h₁
      refine runs_ite (fun _ => ?_) fun _ => runs_pure h₁
      refine (ih s₁ h₁.stage.last).bind fun ms s₂ h₂ => runs_pure ⟨h₁.stage.trans h₂.stage, ?_, ?_⟩
      · exact List.forall_mem_append.mpr ⟨h₁.kinds, h₂.kinds⟩
      · exact fun hat => List.append_ne_nil_of_left_ne_nil (h₁.ne_nil hat) _
  exact runs_look (hturns _ s hs)

theorem adds_decorators : Adds (decorators go) false id :=
  fun _ hs => (runs_decorators hgo hs).imp fun _ _ h => h.stage

theorem adds_initializer : Adds (initializer go) false id := by
  refine adds_of_runs fun s h => h.ifAccept (fun s₁ h₁ => ?_) fun _ => runs_pure h
  exact h₁.addAll (hgo .assignment) fun n s₂ h₂ => runs_pure h₂.weaken

theorem adds_parameter : Adds (parameter go) true fun n => [n] := by
  refine adds_of_runs fun s h => runs_here ?_
  refine h.addAll (adds_decorators hgo) fun decorations s₁ h₁ => runs_look ?_
  refine h₁.pass (passes_advanceBy _) fun _ s₂ h₂ => ?_
  refine h₂.pass (passes_optional _) fun _ s₃ h₃ => ?_
  refine h₃.name names_parameterName fun name s₄ h₄ => ?_
  refine h₄.pass (passes_optional _) fun _ s₅ h₅ => ?_
  refine h₅.pass (passes_annotated _) fun declared s₆ h₆ => ?_
  refine h₆.addAll (adds_initializer hgo) fun value s₇ h₇ => ?_
  refine runs_buildNamed h₇ ?_
  split <;> exact nofun

theorem adds_parameters : Adds (parameters go) true id := by
  refine adds_of_runs fun s h => h.ifAccept (fun s₁ h₁ => ?_) fun _ => ?_
  · refine h₁.addAll (adds_gather (adds_of_runs fun s h => ?_)) fun nodes s₂ h₂ =>
      h₂.pass (adds_expect _) fun _ s₃ h₃ => runs_pure h₃
    refine runs_look (runs_ite (fun _ => runs_pure h) fun _ => ?_)
    refine h.addAll (adds_parameter hgo) fun node s₁ h₁ => ?_
    exact h₁.pass (passes_accept _) fun more s₂ h₂ => runs_pure h₂.weaken
  · exact h.pass (adds_report _ (by decide)) fun _ s₁ h₁ => runs_pure h₁

/-- A turn of a loop over statements. -/
theorem runs_statementTurn (h : Stage m false [] none s) :
    Runs (do
      let (node, progress) ← moved (go .statement)
      if !progress then
        report .statement
        advance
      return ([node], true)) s fun r s' => Stage m false r.1 none s' := by
  refine h.addAll (adds_moved (hgo .statement)) ?_
  rintro ⟨node, progress⟩ s₁ h₁
  refine runs_ite (fun _ => ?_) fun _ => runs_pure h₁.weaken
  refine h₁.pass (adds_report _ (by decide)) fun _ s₂ h₂ => ?_
  exact h₂.pass passes_advance fun _ s₃ h₃ => runs_pure h₃.weaken

theorem adds_statementsToBrace : Adds (statementsToBrace go) false id := by
  refine adds_gather (adds_of_runs fun s h => ?_)
  exact runs_look (runs_ite (fun _ => runs_pure h) fun _ => runs_statementTurn hgo h)

theorem adds_block : Adds (block go) true fun n => [n] := by
  refine adds_of_runs fun s h => runs_here ?_
  refine h.pass (adds_expect _) fun _ s₁ h₁ => ?_
  refine h₁.addAll (adds_statementsToBrace hgo) fun statements s₂ h₂ => ?_
  exact h₂.pass (adds_expect _) fun _ s₃ h₃ => runs_build h₃ (by decide)

theorem adds_bodyOrSemicolon : Adds (bodyOrSemicolon go) false id := by
  refine adds_of_runs fun s h => runs_look (runs_ite (fun _ => ?_) fun _ => ?_)
  · exact h.addAll (adds_block hgo) fun body s₁ h₁ => runs_pure h₁.weaken
  · exact h.pass (passes_optional _) fun _ s₁ h₁ => runs_pure h₁

theorem adds_function (hkind : kind ≠ .unknown) : Adds (function go kind) true fun n => [n] := by
  refine adds_of_runs fun s h => runs_here ?_
  refine h.pass passes_advance fun _ s₁ h₁ => ?_
  refine h₁.pass (passes_optional _) fun _ s₂ h₂ => ?_
  refine h₂.takeNameIfWord fun name s₃ h₃ => ?_
  refine h₃.pass passes_skipAngles fun _ s₄ h₄ => ?_
  refine h₄.addAll (adds_parameters hgo) fun params s₅ h₅ => ?_
  refine h₅.pass (passes_annotated _) fun returned s₆ h₆ => ?_
  refine h₆.addAll (adds_bodyOrSemicolon hgo) fun body s₇ h₇ => ?_
  exact runs_buildNamed h₇ hkind

theorem runs_constructorMember (h : Stage m b [] none s) :
    Runs (constructorMember go m.current.span.start) s fun n s' => Stage m true [n] none s' := by
  refine h.weaken.pass passes_advance fun _ s₁ h₁ => ?_
  refine h₁.addAll (adds_parameters hgo) fun params s₂ h₂ => ?_
  exact h₂.addAll (adds_bodyOrSemicolon hgo) fun body s₃ h₃ => runs_build h₃ (by decide)

theorem runs_methodMember (hkind : kind ≠ .unknown) (h : Stage m true [] x s) :
    Runs (methodMember go kind m.current.span.start x) s fun n s' => Stage m true [n] none s' := by
  refine h.pass passes_skipAngles fun _ s₁ h₁ => ?_
  refine h₁.addAll (adds_parameters hgo) fun params s₂ h₂ => ?_
  refine h₂.pass (passes_annotated _) fun returned s₃ h₃ => ?_
  exact h₃.addAll (adds_bodyOrSemicolon hgo) fun body s₄ h₄ => runs_buildNamed h₄ hkind

theorem runs_propertyMember (h : Stage m true [] x s) :
    Runs (propertyMember go m.current.span.start x) s fun n s' => Stage m true [n] none s' := by
  refine h.pass (passes_annotated _) fun declared s₁ h₁ => ?_
  refine h₁.addAll (adds_initializer hgo) fun value s₂ h₂ => ?_
  exact h₂.pass (passes_optional _) fun _ s₃ h₃ => runs_buildNamed h₃ (by decide)

theorem adds_undecoratedMember : Adds (undecoratedMember go) true fun n => [n] := by
  refine adds_of_runs fun s h => runs_here (runs_look (runs_ite (fun _ => ?_) fun _ => ?_))
  · exact h.pass passes_advance fun _ s₁ h₁ => (adds_block hgo s₁ h₁.last).imp fun _ _ h₂ => h₁.trans h₂
  refine h.pass (passes_advanceBy _) fun _ s₁ h₁ => ?_
  refine Runs.bind (P := fun kind s' => kind ≠ .unknown ∧ Stage s false [] none s') ?_ ?_
  · refine runs_look (runs_ite (fun _ => ?_) fun _ => runs_pure ⟨nofun, h₁⟩)
    refine h₁.pass passes_advance fun _ s₂ h₂ => runs_pure ⟨?_, h₂⟩
    split <;> exact nofun
  rintro kind s₂ ⟨hkind, h₂⟩
  refine h₂.pass (passes_optional _) fun _ s₃ h₃ => runs_look (runs_ite (fun _ => ?_) fun _ => ?_)
  · exact runs_constructorMember hgo h₃
  refine h₃.name names_memberName fun name s₄ h₄ => ?_
  refine h₄.pass (passes_optional _) fun _ s₅ h₅ => ?_
  refine h₅.pass (passes_optional _) fun _ s₆ h₆ => runs_look (runs_ite (fun _ => ?_) fun _ => ?_)
  · exact runs_methodMember hgo hkind h₆
  · exact runs_propertyMember hgo h₆

theorem adds_classMembers : Adds (classMembers go) false id := by
  refine adds_gather (adds_of_runs fun s h => runs_look (runs_ite (fun _ => runs_pure h) fun _ => ?_))
  refine runs_ite (fun _ => h.pass passes_advance fun _ s₁ h₁ => runs_pure h₁) fun _ => ?_
  refine h.addAll (adds_decorators hgo) fun decorations s₁ h₁ => ?_
  refine h₁.addAll (adds_undecoratedMember hgo) fun member s₂ h₂ => runs_look ?_
  refine runs_ite (fun _ => ?_) fun _ => runs_pure h₂.weaken
  refine h₂.pass (adds_report _ (by decide)) fun _ s₃ h₃ => ?_
  exact h₃.pass passes_advance fun _ s₄ h₄ => runs_pure h₄.weaken

theorem adds_heritage : Adds (heritage go) false id := by
  refine adds_of_runs fun s h => h.ifAcceptWord (fun s₁ h₁ => ?_) (runs_pure h)
  refine h₁.addAll (hgo .access) fun base s₂ h₂ => ?_
  exact h₂.pass passes_skipAngles fun _ s₃ h₃ => runs_pure h₃.weaken

/-- A class takes in the decorators that were read before it. -/
theorem runs_classBody {a : State} {decorations : List Node} (h : Stage a b decorations none s)
    (hkinds : ∀ d ∈ decorations, d.kind = .decorator) :
    Runs (classBody go decorations) s fun n s' => Stage a true [n] none s' := by
  have hrest (s₁ : State) (name : Option Name) (h₁ : Stage s false [] name s₁) : Runs (do
      skipAngles
      let base ← heritage go
      if ← acceptWord "implements" then
        let _ ← typeUpTo ["\x7b"]
      expect "\x7b"
      let members ← classMembers go
      expect "\x7d"
      buildNamed .classDeclaration s.current.span.start name none (decorations ++ base ++ members))
      s₁ fun n s' => Stage a true [n] none s' := by
    have hbody (base : List Node) (s₂ : State) (h₂ : Stage s false base name s₂) : Runs (do
        expect "\x7b"
        let members ← classMembers go
        expect "\x7d"
        buildNamed .classDeclaration s.current.span.start name none (decorations ++ base ++ members))
        s₂ fun n s' => Stage a true [n] none s' := by
      refine h₂.pass (adds_expect _) fun _ s₃ h₃ => ?_
      refine h₃.addAll (adds_classMembers hgo) fun members s₄ h₄ => ?_
      refine h₄.pass (adds_expect _) fun _ s₅ h₅ depth n s' hrun => ?_
      obtain ⟨rfl, rfl⟩ := Prod.mk.inj (Option.some.inj hrun)
      have hmoved := h₅.moved rfl
      refine ⟨?_, h₅.last, fun _ => h.makes.moved_of_moved hmoved, nofun⟩
      refine @Makes.node a s s₅ [] decorations (base ++ members) _ h.makes h₅.makes ?_
      exact ⟨List.append_assoc _ _ _, rfl, .inl rfl, fun d hd => ⟨rfl, hkinds d hd⟩,
        fun y hy => .inl (h₅.named y hy), .inl hmoved, nofun⟩
    refine h₁.pass passes_skipAngles fun _ s₂ h₂ => ?_
    refine h₂.addAll (adds_heritage hgo) fun base s₃ h₃ => ?_
    refine h₃.ifAcceptWord (fun s₄ h₄ => ?_) (hbody base s₃ h₃)
    exact h₄.weaken.pass (passes_typeUpTo _) fun _ s₅ h₅ => hbody base s₅ h₅
  have hstart := Stage.start s h.last
  refine runs_here (hstart.pass passes_advance fun _ s₁ h₁ =>
    runs_look (runs_ite (fun _ => ?_) fun _ => ?_))
  · exact hrest s₁ none h₁
  · exact h₁.takeNameIfWord fun name s₂ h₂ => hrest s₂ name h₂

end Subscriptions.Grammar
