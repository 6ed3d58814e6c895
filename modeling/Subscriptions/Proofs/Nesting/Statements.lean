import Subscriptions.Proofs.Nesting.Expressions

namespace Subscriptions.Grammar

variable {b depth start : Nat} {go : Recur}

theorem gives_leaf {kind : Kind} {name : Option Name} {declared : Option String}
    (hkind : kind ≠ .classDeclaration) :
    Gives depth (buildNamed kind start name declared []) (·.excess ≤ b) :=
  gives_build hkind forall_mem_nil

theorem gives_variableStatement (h : Leaves b depth go) :
    Gives depth (variableStatement go) (·.excess ≤ b) := by
  have hdeclaration : Gives depth (variableDeclaration go) (Fits b) := by
    refine .skip fun start => .skip fun name => .skip fun _ => .skip fun declared => ?_
    exact (gives_initializer h).bind fun value hvalue => gives_node nofun hvalue
  refine .skip fun start => .skip fun _ => Gives.bind (gives_gather (b := b) ?_) ?_
  · refine hdeclaration.bind fun node hnode => .skip fun more => ?_
    exact gives_pure (forall_mem_single hnode)
  · exact fun declarations hdeclarations => gives_build nofun hdeclarations

theorem gives_expressionStatement (h : Leaves b depth go) :
    Gives depth (expressionStatement go start) (·.excess ≤ b) := by
  refine (gives_expression h).bind fun value hvalue => .skip fun _ => ?_
  exact gives_build nofun (forall_mem_single hvalue.fits)

theorem gives_exportClause (h : Leaves b depth go) :
    Gives depth (exportClause go) (·.excess ≤ b) := by
  refine .skip fun start => .skip fun s => .skip fun _ => .skip fun s => .ite ?_ (.ite ?_ ?_)
  · exact .skip fun _ => gives_leaf nofun
  · exact .skip fun _ => gives_expressionStatement h
  · exact .skip fun _ => h.statement

theorem gives_namespaceBody (h : Leaves b depth go) :
    Gives depth (namespaceBody go) (·.excess ≤ b) := by
  refine .skip fun _ => .skip fun _ => .skip fun s => .ite (gives_block h) ?_
  exact .skip fun start => .skip fun _ => gives_leaf nofun

/-- The decorators before a class are its own, so they are read before the class spends a level. -/
theorem gives_decoratedStatement (h : Leaves b depth go) :
    Gives depth (decoratedStatement go) (·.excess ≤ b + 1) := by
  refine .skip fun start => (gives_decorators h).bind fun decorations hdecorations => ?_
  refine .skip fun _ => .skip fun _ => .skip fun _ => .skip fun s => .ite ?_ ?_
  · exact (gives_classBody h hdecorations).imp fun _ hn => hn.excess_le
  · refine h.statement.bind fun statement hstatement => gives_build nofun ?_
    refine List.forall_mem_append.mpr ⟨fun n hn => ?_, forall_mem_single ?_⟩
    · exact (hdecorations n hn).mono (Nat.le_succ b)
    · exact fits_of_excess_le (Nat.le_succ_of_le hstatement)

theorem gives_returning (h : Leaves b depth go) : Gives depth (returning go) (·.excess ≤ b) := by
  have hrest (start : Nat) (value : List Node) (hvalue : ∀ n ∈ value, Fits b n) : Gives depth (do
      optional ";"
      build .returnStatement start value) (·.excess ≤ b) :=
    .skip fun _ => gives_build nofun hvalue
  refine .skip fun start => .skip fun _ => .skip fun s => .ite (hrest start [] forall_mem_nil) ?_
  refine (gives_expression h).bind fun value hvalue => ?_
  exact hrest start [value] (forall_mem_single hvalue.fits)

theorem gives_condition (h : Leaves b depth go) : Gives depth (condition go) (Term b) :=
  .skip fun _ => (gives_expression h).bind fun _ hvalue => .skip fun _ => gives_pure hvalue

theorem gives_branch (h : Leaves b depth go) : Gives depth (branch go) (·.excess ≤ b) := by
  refine .skip fun start => .skip fun _ => (gives_condition h).bind fun test htest => ?_
  refine h.statement.bind fun whenTrue htrue => .skip fun more => ?_
  have hpair : ∀ n ∈ [test, whenTrue], Fits b n := forall_mem_pair htest.fits (fits_of_excess_le htrue)
  refine .ite ?_ (gives_build nofun hpair)
  refine h.statement.bind fun whenFalse hfalse => gives_build nofun ?_
  have hlast : ∀ n ∈ [whenFalse], Fits b n := forall_mem_single (fits_of_excess_le hfalse)
  exact List.forall_mem_append.mpr ⟨hpair, hlast⟩

theorem gives_forLoop (h : Leaves b depth go) : Gives depth (forLoop go) (·.excess ≤ b) := by
  have hhead : Gives depth (forHead go) fun ns => ∀ n ∈ ns, Fits b n := by
    apply gives_gather
    refine .skip fun s => .ite (gives_pure forall_mem_nil) ?_
    refine .ite (.skip fun _ => gives_pure forall_mem_nil) (.ite ?_ ?_)
    · refine (gives_variableStatement h).bind fun node hnode => gives_pure ?_
      exact forall_mem_single (fits_of_excess_le hnode)
    · refine (gives_moved (gives_expression h)).bind fun r hnode => gives_pure ?_
      exact forall_mem_single hnode.fits
  refine .skip fun start => .skip fun _ => .skip fun _ => .skip fun _ => ?_
  refine hhead.bind fun head hhead => .skip fun _ => h.statement.bind fun body hbody => ?_
  have hlast : ∀ n ∈ [body], Fits b n := forall_mem_single (fits_of_excess_le hbody)
  exact gives_build nofun (List.forall_mem_append.mpr ⟨hhead, hlast⟩)

theorem gives_whileLoop (h : Leaves b depth go) : Gives depth (whileLoop go) (·.excess ≤ b) := by
  refine .skip fun start => .skip fun _ => (gives_condition h).bind fun test htest => ?_
  refine h.statement.bind fun body hbody => gives_build nofun ?_
  exact forall_mem_pair htest.fits (fits_of_excess_le hbody)

theorem gives_doLoop (h : Leaves b depth go) : Gives depth (doLoop go) (·.excess ≤ b) := by
  refine .skip fun start => .skip fun _ => h.statement.bind fun body hbody => .skip fun more => ?_
  have hrest (test : List Node) (htest : ∀ n ∈ test, Fits b n) : Gives depth (do
      optional ";"
      build .loopStatement start (body :: test)) (·.excess ≤ b) := by
    refine .skip fun _ => gives_build nofun ?_
    exact List.forall_mem_cons.mpr ⟨fits_of_excess_le hbody, htest⟩
  refine .ite ?_ (hrest [] forall_mem_nil)
  exact (gives_condition h).bind fun test htest => hrest [test] (forall_mem_single htest.fits)

theorem gives_caseBody (h : Leaves b depth go) {value : List Node} (hvalue : ∀ n ∈ value, Fits b n) :
    Gives depth (caseBody go start value) (Fits b) := by
  refine .skip fun _ => Gives.bind (gives_gather (b := b) ?_) fun statements hstatements => ?_
  · refine .skip fun s => .ite (gives_pure forall_mem_nil) ?_
    refine (gives_moved h.statement).bind ?_
    rintro ⟨node, progress⟩ hnode
    have hnow : ∀ n ∈ [node], Fits b n := forall_mem_single (fits_of_excess_le hnode)
    exact .ite (.skip fun _ => gives_pure hnow) (gives_pure hnow)
  · exact gives_node nofun (List.forall_mem_append.mpr ⟨hvalue, hstatements⟩)

theorem gives_switch (h : Leaves b depth go) : Gives depth (switch go) (·.excess ≤ b) := by
  have hcases : Gives depth (cases go) fun ns => ∀ n ∈ ns, Fits b n := by
    apply gives_gather
    refine .skip fun s => .ite (gives_pure forall_mem_nil) (.skip fun start => .ite ?_ (.ite ?_ ?_))
    · refine .skip fun _ => (gives_expression h).bind fun value hvalue => ?_
      refine (gives_caseBody h (forall_mem_single hvalue.fits)).bind fun node hnode => ?_
      exact gives_pure (forall_mem_single hnode)
    · refine .skip fun _ => (gives_caseBody h forall_mem_nil).bind fun node hnode => ?_
      exact gives_pure (forall_mem_single hnode)
    · exact .skip fun _ => .skip fun _ => gives_pure forall_mem_nil
  refine .skip fun start => .skip fun _ => (gives_condition h).bind fun value hvalue => ?_
  refine .skip fun _ => hcases.bind fun clauses hclauses => .skip fun _ => ?_
  exact gives_build nofun (List.forall_mem_cons.mpr ⟨hvalue.fits, hclauses⟩)

theorem gives_catchClause (h : Leaves b depth go) :
    Gives depth (catchClause go) fun ns => ∀ n ∈ ns, Fits b n := by
  have hcaught : Gives depth caught fun ns => ∀ n ∈ ns, Fits b n := by
    refine .skip fun more => .ite ?_ (gives_pure forall_mem_nil)
    refine .skip fun start => .skip fun name => .skip fun declared => ?_
    have hnode : Gives depth (buildNamed .parameter start name declared []) (Fits b) :=
      gives_node nofun forall_mem_nil
    exact hnode.bind fun node hfits => .skip fun _ => gives_pure (forall_mem_single hfits)
  refine .skip fun s => .ite ?_ (gives_pure forall_mem_nil)
  refine .skip fun start => .skip fun _ => hcaught.bind fun value hvalue => ?_
  refine (gives_block h).bind fun body hbody => ?_
  have hlast : ∀ n ∈ [body], Fits b n := forall_mem_single (fits_of_excess_le hbody)
  have hclause : Gives depth (build .catchClause start (value ++ [body])) (Fits b) :=
    gives_node nofun (List.forall_mem_append.mpr ⟨hvalue, hlast⟩)
  exact hclause.bind fun node hnode => gives_pure (forall_mem_single hnode)

theorem gives_trying (h : Leaves b depth go) : Gives depth (trying go) (·.excess ≤ b) := by
  refine .skip fun start => .skip fun _ => (gives_block h).bind fun body hbody => ?_
  refine (gives_catchClause h).bind fun clause hclause => .skip fun more => ?_
  have hfirst : ∀ n ∈ body :: clause, Fits b n :=
    List.forall_mem_cons.mpr ⟨fits_of_excess_le hbody, hclause⟩
  have hbuild (last : List Node) (hlast : ∀ n ∈ last, Fits b n) :
      Gives depth (build .tryStatement start (body :: clause ++ last)) (·.excess ≤ b) :=
    gives_build nofun (List.forall_mem_append.mpr ⟨hfirst, hlast⟩)
  refine .ite ?_ (hbuild [] forall_mem_nil)
  refine (gives_block h).bind fun last hlast => ?_
  exact hbuild [last] (forall_mem_single (fits_of_excess_le hlast))

theorem gives_throwing (h : Leaves b depth go) : Gives depth (throwing go) (·.excess ≤ b) := by
  refine .skip fun start => .skip fun _ => (gives_expression h).bind fun value hvalue => ?_
  exact .skip fun _ => gives_build nofun (forall_mem_single hvalue.fits)

theorem gives_statement (h : Leaves b depth go) : Gives depth (statement go) (·.excess ≤ b + 1) := by
  have hmore : Leaves (b + 1) depth go := h.mono (Nat.le_succ b)
  have hclass : Gives depth (classBody go []) (·.excess ≤ b + 1) :=
    (gives_classBody h forall_mem_nil).imp fun _ hn => hn.excess_le
  have hterm : Gives depth (function go .functionDeclaration) (Term (b + 1)) :=
    gives_function hmore nofun rfl
  have hfunction : Gives depth (function go .functionDeclaration) (·.excess ≤ b + 1) :=
    hterm.imp fun _ hn => hn.excess_le
  have henumeration : Gives depth enumeration (·.excess ≤ b + 1) :=
    .skip fun start => .skip fun _ => .skip fun name => .skip fun s =>
      .ite (.skip fun _ => gives_leaf nofun) (gives_leaf nofun)
  refine .skip fun start => .skip fun s => ?_
  split
  · exact gives_block hmore
  · exact .skip fun _ => gives_leaf nofun
  · exact gives_decoratedStatement h
  · exact .skip fun start => .skip fun s => .skip fun _ => .skip fun _ => gives_leaf nofun
  · exact gives_exportClause hmore
  · exact .skip fun _ => hmore.statement
  · exact gives_namespaceBody hmore
  · exact .skip fun _ => henumeration
  · exact henumeration
  · exact (gives_variableStatement hmore).bind fun node hnode => .skip fun _ => gives_pure hnode
  · exact hfunction
  · exact .skip fun _ => hfunction
  · exact hclass
  · exact .skip fun _ => hclass
  · exact .skip fun start => .skip fun _ => .skip fun name => .skip fun _ => .skip fun _ =>
      gives_leaf nofun
  · exact .skip fun start => .skip fun _ => .skip fun name => .skip fun _ => .skip fun _ =>
      .skip fun declared => .skip fun _ => gives_leaf nofun
  · exact gives_returning hmore
  · exact gives_branch hmore
  · exact gives_forLoop hmore
  · exact gives_whileLoop hmore
  · exact gives_doLoop hmore
  · exact gives_switch hmore
  · exact gives_trying hmore
  · exact gives_throwing hmore
  · exact .skip fun start => .skip fun _ => .skip fun s =>
      .ite (.skip fun _ => .skip fun _ => gives_leaf nofun) (.skip fun _ => gives_leaf nofun)
  · exact .skip fun _ => .skip fun _ => hmore.statement
  · exact gives_expressionStatement hmore

theorem gives_nested {p : Parse Node} {Q : Node → Prop}
    (hskip : ∀ start, Gives depth (build .unknown start []) Q)
    (h : depth < maxNesting → Gives (depth + 1) p Q) : Gives depth (nested p) Q := by
  intro s n s' hrun
  rw [nested] at hrun
  split at hrun
  · have hunknown : Gives depth skipTooDeep Q := .skip fun start => .skip fun _ => .skip fun _ =>
      hskip start
    exact hunknown s n s' hrun
  · rename_i hdepth
    exact h (Nat.lt_of_not_le hdepth) s n s' hrun

/-- At each depth the rules have the levels that are left there. -/
theorem leaves_rule (fuel : Nat) : ∀ depth, Leaves (maxNesting - depth) depth (rule fuel) := by
  induction fuel with
  | zero =>
    intro depth
    constructor
    · intro s n s' hrun
      cases hrun
    · intro r _ _ s n s' hrun
      cases hrun
    · intro s n s' hrun
      cases hrun
  | succ fuel ih =>
    intro depth
    have hterm (p : Parse Node) (h : ∀ c, Leaves c (depth + 1) (rule fuel) →
        Gives (depth + 1) p (Term (c + 1))) : Gives depth (nested p) (Term (maxNesting - depth)) := by
      refine gives_nested (fun start => gives_term nofun rfl forall_mem_nil) fun hdepth => ?_
      have hroom : maxNesting - (depth + 1) + 1 = maxNesting - depth := by omega
      rw [← hroom]
      exact h _ (ih (depth + 1))
    constructor
    · refine gives_nested (fun start => gives_leaf nofun) fun hdepth => ?_
      have hroom : maxNesting - (depth + 1) + 1 = maxNesting - depth := by omega
      rw [← hroom]
      exact gives_statement (ih (depth + 1))
    · intro r hr hr'
      cases r with
      | statement => exact absurd rfl hr
      | access => exact absurd rfl hr'
      | assignment => exact hterm _ fun c h => gives_assignment (h.mono (Nat.le_succ c))
      | binary above => exact hterm _ fun c h => gives_binary (h.mono (Nat.le_succ c)) above
      | unary => exact hterm _ fun c h => gives_unary h.loosen
      | construction => exact hterm _ fun c h => gives_construction h.loosen
    · exact gives_access (ih depth).loosen

/-- A whole program has all levels. -/
theorem gives_program (fuel length : Nat) :
    Gives 0 (program (rule fuel) length) (·.excess ≤ maxNesting) := by
  have hrule := leaves_rule fuel 0
  refine Gives.bind (gives_gather (b := maxNesting) ?_) fun nodes hnodes => ?_
  · refine .skip fun s => .ite (gives_pure forall_mem_nil) ?_
    refine (gives_moved hrule.statement).bind ?_
    rintro ⟨node, progress⟩ hnode
    have hnow : ∀ n ∈ [node], Fits maxNesting n := forall_mem_single (fits_of_excess_le hnode)
    exact .ite (.skip fun _ => .skip fun _ => gives_pure hnow) (gives_pure hnow)
  · intro s n s' hrun
    obtain ⟨rfl, -⟩ := Prod.mk.inj (Option.some.inj hrun)
    have hkind : Kind.sourceFile ≠ .classDeclaration := nofun
    exact excess_le_of_children hnodes hkind

end Subscriptions.Grammar
