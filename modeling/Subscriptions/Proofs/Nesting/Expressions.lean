import Subscriptions.Proofs.Nesting.Members

namespace Subscriptions.Grammar

/-- What the rules give inside, where an access and a class are among what they give. -/
structure Loose (b depth : Nat) (go : Recur) : Prop where
  leaves : Leaves b depth go
  access : Gives depth (go .access) (Term b)
  classBody : Gives depth (classBody go []) (Term b)

variable {b depth start : Nat} {go : Recur} {object : Node}

theorem Leaves.loosen (h : Leaves b depth go) : Loose (b + 1) depth go :=
  ⟨h.mono (Nat.le_succ b), h.access, gives_classBody h forall_mem_nil⟩

theorem forall_mem_pair {x y : Node} (hx : Fits b x) (hy : Fits b y) : ∀ n ∈ [x, y], Fits b n :=
  List.forall_mem_cons.mpr ⟨hx, forall_mem_single hy⟩

theorem gives_missingExpression : Gives depth (missingExpression start) (Term b) :=
  .skip fun _ => gives_term nofun rfl forall_mem_nil

theorem gives_expression (h : Leaves b depth go) : Gives depth (expression go) (Term b) := by
  refine .skip fun start => h.assignment.bind fun first hfirst => .skip fun s => ?_
  refine .ite ?_ (gives_pure hfirst)
  refine Gives.bind (gives_gather (b := b) ?_) fun others hothers => ?_
  · refine .skip fun more => .ite ?_ (gives_pure forall_mem_nil)
    exact h.assignment.bind fun node hnode => gives_pure (forall_mem_single hnode.fits)
  · exact gives_term nofun rfl (List.forall_mem_cons.mpr ⟨hfirst.fits, hothers⟩)

theorem gives_spreadOrAssignment (h : Leaves b depth go) :
    Gives depth (spreadOrAssignment go) (Term b) := by
  refine .skip fun s => .ite ?_ h.assignment
  refine .skip fun start => .skip fun _ => h.assignment.bind fun value hvalue => ?_
  exact gives_term nofun rfl (forall_mem_single hvalue.fits)

theorem gives_arguments (h : Leaves b depth go) :
    Gives depth (arguments go) fun ns => ∀ n ∈ ns, Fits b n := by
  refine .skip fun _ => Gives.bind (gives_gather ?_) fun nodes hnodes => .skip fun _ =>
    gives_pure hnodes
  refine .skip fun s => .ite (gives_pure forall_mem_nil) ?_
  refine (gives_spreadOrAssignment h).bind fun node hnode => .skip fun more => ?_
  exact gives_pure (forall_mem_single hnode.fits)

theorem gives_elementAccess (h : Leaves b depth go) (hobject : Fits b object) :
    Gives depth (elementAccess go start object) (Term b) := by
  refine .skip fun _ => (gives_expression h).bind fun index hindex => .skip fun _ => ?_
  exact gives_term nofun rfl (forall_mem_pair hobject hindex.fits)

theorem gives_arrow (h : Leaves b depth go) : Gives depth (arrow go start) (Term b) := by
  have hrest (params : List Node) (hparams : ∀ n ∈ params, Fits b n) : Gives depth (do
      let returned ← annotation ["=>"]
      expect "=>"
      let body ← if (← look).isAt "\x7b" then block go else go .assignment
      buildNamed .arrowFunction start none returned (params ++ [body])) (Term b) := by
    refine .skip fun returned => .skip fun _ => .skip fun s => ?_
    have hbody (body : Node) (hfits : Fits b body) :
        Gives depth (buildNamed .arrowFunction start none returned (params ++ [body])) (Term b) :=
      gives_term nofun rfl (List.forall_mem_append.mpr ⟨hparams, forall_mem_single hfits⟩)
    refine .ite ?_ ?_
    · exact (gives_block h).bind fun body hexcess => hbody body (fits_of_excess_le hexcess)
    · exact h.assignment.bind fun body hterm => hbody body hterm.fits
  refine .skip fun s => .ite ?_ ((gives_parameters h).bind hrest)
  refine .skip fun paramStart => .skip fun name => ?_
  have hparam : Gives depth (buildNamed .parameter paramStart (some name) none []) (Fits b) :=
    gives_node nofun forall_mem_nil
  exact hparam.bind fun param hfits => hrest [param] (forall_mem_single hfits)

theorem gives_arrayLiteral (h : Leaves b depth go) : Gives depth (arrayLiteral go) (Term b) := by
  refine .skip fun start => .skip fun _ => Gives.bind (gives_gather ?_) fun nodes hnodes =>
    .skip fun _ => gives_term nofun rfl hnodes
  refine .skip fun s => .ite (gives_pure forall_mem_nil) ?_
  refine .ite (.skip fun _ => gives_pure forall_mem_nil) ?_
  refine (gives_spreadOrAssignment h).bind fun node hnode => .skip fun more => ?_
  exact gives_pure (forall_mem_single hnode.fits)

theorem gives_objectMethod (h : Leaves b depth go) {kind : Kind} (hkind : kind ≠ .classDeclaration)
    (name : Option Name) : Gives depth (objectMethod go kind start name) (Fits b) := by
  refine .skip fun _ => (gives_parameters h).bind fun params hparams => .skip fun returned => ?_
  refine (gives_block h).bind fun body hbody => gives_node hkind ?_
  exact List.forall_mem_append.mpr ⟨hparams, forall_mem_single (fits_of_excess_le hbody)⟩

theorem gives_shorthandMember (h : Leaves b depth go) (name : Option Name) :
    Gives depth (shorthandMember go start name) (Fits b) := by
  have hrest (value : List Node) (hvalue : ∀ n ∈ value, Fits b n) : Gives depth (do
      let default ← initializer go
      buildNamed .propertyAssignment start name none (value ++ default)) (Fits b) := by
    refine (gives_initializer h).bind fun default hdefault => ?_
    exact gives_node nofun (List.forall_mem_append.mpr ⟨hvalue, hdefault⟩)
  cases name with
  | none => exact hrest [] forall_mem_nil
  | some name =>
    refine Gives.bind (P := Fits b) ?_ fun node hnode => hrest [node] (forall_mem_single hnode)
    intro s a s' hrun
    obtain ⟨rfl, -⟩ := Prod.mk.inj (Option.some.inj hrun)
    exact fits_of_excess_le (Nat.zero_le b)

theorem gives_objectMember (h : Leaves b depth go) : Gives depth (objectMember go) (Fits b) := by
  refine .skip fun s => .ite ((gives_spreadOrAssignment h).imp fun _ hn => hn.fits) ?_
  refine .skip fun start => Gives.bind (P := (· ≠ .classDeclaration)) ?_ fun kind hkind => ?_
  · refine .skip fun s => .ite (.skip fun _ => ?_) (gives_pure nofun)
    apply gives_pure
    split <;> exact nofun
  refine .skip fun _ => .skip fun name => .skip fun s => ?_
  refine .ite (gives_objectMethod h hkind name) (.ite (.skip fun _ => ?_) ?_)
  · refine h.assignment.bind fun value hvalue => ?_
    exact gives_node nofun (forall_mem_single hvalue.fits)
  · exact gives_shorthandMember h name

theorem gives_objectLiteral (h : Leaves b depth go) : Gives depth (objectLiteral go) (Term b) := by
  refine .skip fun start => .skip fun _ => Gives.bind (gives_gather ?_) fun members hmembers =>
    .skip fun _ => gives_term nofun rfl hmembers
  refine .skip fun s => .ite (gives_pure forall_mem_nil) ?_
  refine (gives_objectMember h).bind fun node hnode => .skip fun more => ?_
  exact gives_pure (forall_mem_single hnode)

theorem gives_template (h : Leaves b depth go) : Gives depth (template go) (Term b) := by
  refine .skip fun start => .skip fun _ => Gives.bind (gives_gather ?_) fun nodes hnodes =>
    gives_term nofun rfl hnodes
  refine (gives_expression h).bind fun node hnode => .skip fun s => ?_
  have hnow : ∀ n ∈ [node], Fits b n := forall_mem_single hnode.fits
  split
  · exact .skip fun _ => gives_pure hnow
  · exact .skip fun _ => gives_pure hnow
  · exact .skip fun _ => gives_pure hnow

theorem gives_wordPrimary (h : Loose b depth go) : Gives depth (wordPrimary go) (Term b) := by
  have hleaf (kind : Kind) (start : Nat) (name : Option Name) (hkind : kind ≠ .classDeclaration)
      (hmember : kind.isMember = false) :
      Gives depth (buildNamed kind start name none []) (Term b) :=
    gives_term hkind hmember forall_mem_nil
  refine .skip fun start => .skip fun s => ?_
  split
  · exact gives_function h.leaves nofun rfl
  · exact .skip fun _ => gives_function h.leaves nofun rfl
  · exact h.classBody
  · exact .skip fun _ => gives_arrow h.leaves
  · exact .skip fun _ => hleaf _ start none nofun rfl
  · exact .skip fun _ => hleaf _ start none nofun rfl
  · exact .skip fun _ => hleaf _ start none nofun rfl
  · exact gives_arrow h.leaves
  · exact .skip fun name => hleaf _ start (some name) nofun rfl

theorem gives_punctPrimary (h : Leaves b depth go) : Gives depth (punctPrimary go start) (Term b) := by
  have hparenthesized : Gives depth (parenthesized go start) (Term b) := by
    refine .skip fun _ => (gives_expression h).bind fun inner hinner => .skip fun _ => ?_
    exact gives_term nofun rfl (forall_mem_single hinner.fits)
  have hgeneric : Gives depth (genericArrow go start) (Term b) :=
    .skip fun _ => .skip fun s => .ite (gives_arrow h) gives_missingExpression
  refine .skip fun s => .ite (.ite (gives_arrow h) hparenthesized) ?_
  refine .ite (gives_arrayLiteral h) (.ite (gives_objectLiteral h) (.ite hgeneric ?_))
  refine .ite gives_missingExpression (.skip fun _ => .skip fun _ => ?_)
  exact gives_term nofun rfl forall_mem_nil

theorem gives_primary (h : Loose b depth go) : Gives depth (primary go) (Term b) := by
  have hleaf (kind : Kind) (start : Nat) (hkind : kind ≠ .classDeclaration)
      (hmember : kind.isMember = false) : Gives depth (build kind start []) (Term b) :=
    gives_term hkind hmember forall_mem_nil
  refine .skip fun start => .skip fun s => ?_
  split
  · exact gives_wordPrimary h
  · exact .skip fun _ => hleaf _ start nofun rfl
  · exact .skip fun _ => hleaf _ start nofun rfl
  · exact .skip fun _ => hleaf _ start nofun rfl
  · exact .skip fun _ => hleaf _ start nofun rfl
  · exact gives_template h.leaves
  · exact gives_punctPrimary h.leaves
  · exact gives_missingExpression
  · exact gives_missingExpression
  · exact gives_missingExpression

theorem gives_calleeStep (h : Leaves b depth go) (hobject : Term b object) :
    Gives depth (calleeStep go start object) fun r => Term b r.1 := by
  refine .skip fun s => .ite (.skip fun _ => .skip fun s => .ite ?_ ?_) (.ite ?_ ?_)
  · refine .skip fun name => Gives.bind (P := Term b) ?_ fun node hnode => gives_pure hnode
    exact gives_term nofun rfl (forall_mem_single hobject.fits)
  · exact .skip fun _ => gives_pure hobject
  · exact (gives_elementAccess h hobject.fits).bind fun node hnode => gives_pure hnode
  · exact gives_pure hobject

theorem gives_construction (h : Loose b depth go) : Gives depth (construction go) (Term b) := by
  refine .skip fun start => .skip fun _ => .skip fun dot => .ite ?_ (.skip fun calleeStart => ?_)
  · exact .skip fun name => gives_term nofun rfl forall_mem_nil
  have hrest (first : Node) (hfirst : Term b first) : Gives depth (do
      let callee ← climb (calleeStep go calleeStart) first
      skipAngles
      let args ← if (← look).isAt "(" then arguments go else pure []
      build .construction start (callee :: args)) (Term b) := by
    refine Gives.bind (gives_climb (fun n hn => gives_calleeStep h.leaves hn) hfirst) ?_
    intro callee hcallee
    refine .skip fun _ => .skip fun s => .ite ?_ ?_
    · refine (gives_arguments h.leaves).bind fun args hargs => ?_
      exact gives_term nofun rfl (List.forall_mem_cons.mpr ⟨hcallee.fits, hargs⟩)
    · exact gives_term nofun rfl (forall_mem_single hcallee.fits)
  refine .skip fun s => .ite ?_ ((gives_primary h).bind hrest)
  exact (h.leaves.term .construction nofun nofun).bind hrest

theorem gives_callOf (h : Leaves b depth go) (hobject : Fits b object) :
    Gives depth (callOf go start object) (Term b) := by
  refine (gives_arguments h).bind fun args hargs => ?_
  exact gives_term nofun rfl (List.forall_mem_cons.mpr ⟨hobject, hargs⟩)

theorem gives_memberStep (h : Leaves b depth go) (hobject : Term b object) :
    Gives depth (memberStep go start object) fun r => Term b r.1 := by
  refine .skip fun _ => .skip fun s => .ite ?_ (.ite ?_ (.ite ?_ ?_))
  · exact (gives_callOf h hobject.fits).bind fun node hnode => gives_pure hnode
  · exact (gives_elementAccess h hobject.fits).bind fun node hnode => gives_pure hnode
  · refine .skip fun name => Gives.bind (P := Term b) ?_ fun node hnode => gives_pure hnode
    exact gives_term nofun rfl (forall_mem_single hobject.fits)
  · exact .skip fun _ => gives_pure hobject

theorem gives_accessStep (h : Loose b depth go) (hobject : Term b object) :
    Gives depth (accessStep go start object) fun r => Term b r.1 := by
  have hcall : Gives depth (do return (← callOf go start object, true)) fun r => Term b r.1 :=
    (gives_callOf h.leaves hobject.fits).bind fun node hnode => gives_pure hnode
  refine .skip fun s => .ite (gives_memberStep h.leaves hobject) (.ite ?_ (.ite hcall ?_))
  · exact (gives_elementAccess h.leaves hobject.fits).bind fun node hnode => gives_pure hnode
  refine .ite (.skip fun _ => hcall) (.ite ?_ (.ite ?_ (gives_pure hobject)))
  · refine (gives_primary h).bind fun template htemplate => ?_
    refine Gives.bind (P := Term b) ?_ fun node hnode => gives_pure hnode
    exact gives_term nofun rfl (forall_mem_pair hobject.fits htemplate.fits)
  · exact .skip fun _ => gives_pure hobject

theorem gives_access (h : Loose b depth go) : Gives depth (access go) (Term b) := by
  have hclimb (start : Nat) (first : Node) (hfirst : Term b first) :
      Gives depth (climb (accessStep go start) first) (Term b) :=
    gives_climb (fun n hn => gives_accessStep h hn) hfirst
  refine .skip fun start => .skip fun s => .ite ?_ ((gives_primary h).bind (hclimb start))
  exact (h.leaves.term .construction nofun nofun).bind (hclimb start)

theorem gives_unary (h : Loose b depth go) : Gives depth (unary go) (Term b) := by
  refine .skip fun start => .skip fun s => .ite (.skip fun _ => ?_) ?_
  · refine (h.leaves.term .unary nofun nofun).bind fun operand hoperand => ?_
    exact gives_term nofun rfl (forall_mem_single hoperand.fits)
  · refine h.access.bind fun expression hexpression => .skip fun s => ?_
    refine .ite (.skip fun _ => ?_) (gives_pure hexpression)
    exact gives_term nofun rfl (forall_mem_single hexpression.fits)

theorem gives_binaryStep (h : Leaves b depth go) (above : Nat) (hleft : Term b object) :
    Gives depth (binaryStep go above start object) fun r => Term b r.1 := by
  refine .skip fun s => ?_
  dsimp only
  split
  · exact gives_pure hleft
  · refine .skip fun _ => .ite (.skip fun declared => ?_) ?_
    · refine Gives.bind (P := Term b) ?_ fun node hnode => gives_pure hnode
      exact gives_term nofun rfl (forall_mem_single hleft.fits)
    · refine (h.term (.binary _) nofun nofun).bind fun right hright => ?_
      refine Gives.bind (P := Term b) ?_ fun node hnode => gives_pure hnode
      exact gives_term nofun rfl (forall_mem_pair hleft.fits hright.fits)

theorem gives_binary (h : Leaves b depth go) (above : Nat) :
    Gives depth (binary go above) (Term b) := by
  refine .skip fun start => (h.term .unary nofun nofun).bind fun first hfirst => ?_
  exact gives_climb (fun n hn => gives_binaryStep h above hn) hfirst

theorem gives_conditional (h : Leaves b depth go) : Gives depth (conditional go) (Term b) := by
  refine .skip fun start => (h.term (.binary 0) nofun nofun).bind fun condition hcondition => ?_
  refine .skip fun more => .ite ?_ (gives_pure hcondition)
  refine h.assignment.bind fun whenTrue htrue => .skip fun _ => ?_
  refine h.assignment.bind fun whenFalse hfalse => gives_term nofun rfl ?_
  exact List.forall_mem_cons.mpr ⟨hcondition.fits, forall_mem_pair htrue.fits hfalse.fits⟩

theorem gives_assignment (h : Leaves b depth go) : Gives depth (assignment go) (Term b) := by
  have hyielded (start : Nat) : Gives depth (yielded go start) (Term b) := by
    refine .skip fun _ => .skip fun _ => .skip fun s => .ite ?_ ?_
    · exact gives_term nofun rfl forall_mem_nil
    · refine h.assignment.bind fun value hvalue => ?_
      exact gives_term nofun rfl (forall_mem_single hvalue.fits)
  refine .skip fun start => .skip fun s => .ite (hyielded start) ?_
  refine (gives_conditional h).bind fun target htarget => .skip fun s => ?_
  refine .ite (.skip fun _ => ?_) (gives_pure htarget)
  refine h.assignment.bind fun value hvalue => ?_
  exact gives_term nofun rfl (forall_mem_pair htarget.fits hvalue.fits)

end Subscriptions.Grammar
