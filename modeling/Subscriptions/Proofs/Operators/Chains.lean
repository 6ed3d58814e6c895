import Subscriptions.Proofs.Lockstep.Following
import Subscriptions.Proofs.Operators.Climbing

namespace Subscriptions

namespace Grammar

section
variable {turn : Parse (List Node × Bool)} {before : List Piece} {fuel : Nat}
  {P Q : List Node → List Piece → Prop}

instance [Sinks turn] : Sinks (turns fuel turn) where
  sunk s hs := by
    induction fuel generalizing s with
    | zero =>
      intro depth a s' hrun
      cases hrun
    | succ fuel ih =>
      refine (Sinks.sunk s hs).bind fun r s' hs' => ?_
      exact runs_ite (fun _ => (ih s' hs').bind fun _ _ hs'' => runs_pure hs'') fun _ => runs_pure hs'

theorem Meets.turns_step [Sinks turn] (h : Meets turn before fun r ps =>
      if r.2 = true then ∀ fuel, Meets (turns fuel turn) ps fun ns ps' => Q (r.1 ++ ns) ps'
      else Q r.1 ps) : Meets (turns fuel turn) before Q := by
  cases fuel with
  | zero => exact meets_stuck
  | succ fuel =>
    refine @Meets.bind _ _ _ _ _ _ _ ?_ h ?_
    · rintro ⟨nodes, more⟩
      exact inferInstanceAs (Sinks (if more = true then turns fuel turn >>= fun ns => pure (nodes ++ ns)
        else pure nodes))
    · rintro ⟨nodes, more⟩ ps hps
      cases more with
      | true => exact (hps fuel).bind fun ns ps' hns => meets_pure hns
      | false => exact meets_pure hps

instance (what : Expectation) : Sinks (report what) where
  sunk _ hs := runs_update
    ⟨hs.last, hs.deep.imp fun _ hf => ⟨List.mem_cons_of_mem _ hf.1, hf.2⟩⟩

instance {p : Parse Node} [Sinks p] : Sinks (moved p) := by
  unfold moved
  infer_instance

theorem Meets.moved {p : Parse Node} {R : Node → List Piece → Prop} (h : Meets p before R) :
    Meets (moved p) before fun r ps => r.2 = (ps.length != before.length) ∧ R r.1 ps := by
  refine meets_look fun s hs => h.bind fun n ps hn => meets_look fun s' hs' => meets_pure ⟨?_, hn⟩
  rw [← hs, ← hs', State.pieces, State.pieces, List.length_map, List.length_map]

theorem Meets.gather (h : ∀ fuel, Meets (turns fuel turn) before Q) :
    Meets (gather turn) before Q := meets_look fun _ _ => h _

end

end Grammar

namespace Operators

open Grammar Piece Subscriptions.Types

variable {fuel : Nat} {v : Identifier} {x : Leaf} {ops : Tail} {qs ps : List Piece} {n : Node}

theorem meets_assignment (fuel : Nat) (x : Leaf) (ops : Tail) (qs : List Piece) :
    Meets (rule fuel .assignment) (word x.text :: (tailPieces ops ++ punct ";" :: qs))
      fun n ps => ps = punct ";" :: qs ∧ ∃ g : Grouping, g.Arranges x ops ∧ n.shape = g.shape := by
  cases fuel with
  | zero => exact meets_stuck
  | succ fuel =>
    have hconditional : Meets (conditional (rule fuel))
        (word x.text :: (tailPieces ops ++ punct ";" :: qs))
        fun n ps => ps = punct ";" :: qs ∧ ∃ g : Grouping, g.Arranges x ops ∧ n.shape = g.shape := by
      refine meets_here fun start => (meets_binary fuel 0 x ops qs).bind fun n ps hn => ?_
      obtain ⟨rfl, hgrouped⟩ := hn.arranges
      refine Meets.read_bind (fun _ => reads_accept_not rfl) ?_
      rintro _ rfl
      exact meets_pure ⟨rfl, hgrouped⟩
    refine meets_nested (meets_here fun start => meets_look fun s hs => ?_)
    have hyield : s.isAtWord "yield" = false := by
      rw [State.isAtWord_eq hs]
      exact x.operand.word _ (by decide)
    rw [hyield, if_neg Bool.false_ne_true]
    refine hconditional.bind ?_
    rintro n ps ⟨rfl, hgrouped⟩
    refine meets_look fun s hs => ?_
    rw [State.isPunctOf_eq hs, if_neg (by decide)]
    exact meets_pure ⟨rfl, hgrouped⟩

/-- The declaration of a name whose value is a tree of operators. -/
def declarationShape (v : Identifier) (g : Grouping) : Shape :=
  .node .variableDeclaration (some v.text) none [g.shape]

theorem meets_declaration (fuel : Nat) (v : Identifier) (x : Leaf) (ops : Tail) (qs : List Piece) :
    Meets (variableDeclaration (rule fuel))
      (word v.text :: punct "=" :: word x.text :: (tailPieces ops ++ punct ";" :: qs))
      fun n ps => ps = punct ";" :: qs ∧
        ∃ g : Grouping, g.Arranges x ops ∧ n.shape = declarationShape v g := by
  have hinitializer : Meets (initializer (rule fuel))
      (punct "=" :: word x.text :: (tailPieces ops ++ punct ";" :: qs)) fun ns ps =>
        ps = punct ";" :: qs ∧ ∃ g : Grouping, g.Arranges x ops ∧ Node.shapes ns = [g.shape] := by
    refine Meets.read_bind (fun _ => reads_accept) ?_
    rintro _ rfl
    refine (meets_assignment fuel x ops qs).bind ?_
    rintro n ps ⟨rfl, g, hg, hn⟩
    exact meets_pure ⟨rfl, g, hg, by rw [Node.shapes, hn]; rfl⟩
  refine meets_here fun start => ?_
  refine Meets.read_bind (fun _ => Core.reads_variableName rfl) fun name hname => ?_
  refine Meets.read_bind (fun _ => reads_optional_not rfl) fun _ _ => ?_
  refine Meets.read_bind (fun _ => reads_untyped _ rfl) ?_
  rintro _ rfl
  refine hinitializer.bind ?_
  rintro ns ps ⟨rfl, g, hg, hns⟩
  refine (Meets.of_reads fun _ => reads_build).imp ?_
  rintro n ps ⟨rfl, hn⟩
  exact ⟨rfl, g, hg, by rw [hn, hname, hns, declarationShape]⟩

def statementShape (v : Identifier) (g : Grouping) : Shape :=
  .node .variableStatement none none [declarationShape v g]

instance : Sinks (Core.declarationTurn (rule fuel)) := by
  have : Sinks (variableDeclaration (rule fuel)) :=
    (adds_variableDeclaration (builds_rule fuel)).sinks
  unfold Core.declarationTurn
  infer_instance

theorem meets_variableStatement (fuel : Nat) (v : Identifier) (x : Leaf) (ops : Tail)
    (qs : List Piece) : Meets (variableStatement (rule fuel))
      (word "const" :: word v.text :: punct "=" :: word x.text :: (tailPieces ops ++ punct ";" :: qs))
      fun n ps => ps = punct ";" :: qs ∧
        ∃ g : Grouping, g.Arranges x ops ∧ n.shape = statementShape v g := by
  have hdeclarations : Meets (gather (Core.declarationTurn (rule fuel)))
      (word v.text :: punct "=" :: word x.text :: (tailPieces ops ++ punct ";" :: qs))
      fun ns ps => ps = punct ";" :: qs ∧
        ∃ g : Grouping, g.Arranges x ops ∧ Node.shapes ns = [declarationShape v g] := by
    refine .gather fun _ => .turns_step ((meets_declaration fuel v x ops qs).bind ?_)
    rintro n ps ⟨rfl, g, hg, hn⟩
    refine Meets.read_bind (fun _ => reads_accept_not rfl) ?_
    rintro _ rfl
    exact meets_pure ⟨rfl, g, hg, by rw [Node.shapes, hn]; rfl⟩
  refine meets_here fun start => Meets.read_bind (fun _ => reads_advance) fun _ _ => ?_
  refine hdeclarations.bind ?_
  rintro ns ps ⟨rfl, g, hg, hns⟩
  refine (Meets.of_reads fun _ => reads_build).imp ?_
  rintro n ps ⟨rfl, hn⟩
  exact ⟨rfl, g, hg, by rw [hn, hns]; rfl⟩

theorem meets_statement (fuel : Nat) (v : Identifier) (x : Leaf) (ops : Tail) (qs : List Piece) :
    Meets (rule fuel .statement) (word "const" :: word v.text :: punct "=" :: word x.text ::
      (tailPieces ops ++ punct ";" :: qs))
      fun n ps => ps = qs ∧ ∃ g : Grouping, g.Arranges x ops ∧ n.shape = statementShape v g := by
  cases fuel with
  | zero => exact meets_stuck
  | succ fuel =>
    refine meets_nested (meets_here fun start => meets_look fun s hs => ?_)
    rw [Core.statementForm_const (v.ne_reserved (by decide)) hs]
    refine (meets_variableStatement fuel v x ops qs).bind ?_
    rintro n ps ⟨rfl, hn⟩
    exact Meets.read_bind (fun _ => reads_optional) fun _ _ => meets_pure ⟨rfl, hn⟩

/-- What a turn does with the statement that it has read. -/
theorem sinks_progress (r : Node × Bool) : Sinks (if (!r.2) = true then do
    report .statement
    advance
    pure ([r.1], true)
  else pure ([r.1], true)) := inferInstance

instance : Sinks (Core.sourceTurn (rule fuel)) where
  sunk s hs := runs_look (runs_ite (fun _ => runs_pure hs) fun _ =>
    (Sinks.sunk s hs).bind fun r s' hs' => (sinks_progress r).sunk s' hs')

theorem meets_statements (fuel : Nat) (v : Identifier) (x : Leaf) (ops : Tail) :
    Meets (statements (rule fuel)) (word "const" :: word v.text :: punct "=" :: word x.text ::
      (tailPieces ops ++ [punct ";"]))
      fun ns _ => ∃ g : Grouping, g.Arranges x ops ∧ Node.shapes ns = [statementShape v g] := by
  have hstop {Q : List Node → Prop} (hnil : Q []) (fuel' : Nat) :
      Meets (turns fuel' (Core.sourceTurn (rule fuel))) [] fun ns _ => Q ns := by
    refine .turns_step (meets_look fun s hs => ?_)
    rw [if_pos (State.atEnd_nil hs)]
    exact meets_pure hnil
  have hturns (fuel' : Nat) : Meets (turns fuel' (Core.sourceTurn (rule fuel)))
      (word "const" :: word v.text :: punct "=" :: word x.text :: (tailPieces ops ++ [punct ";"]))
      fun ns _ => ∃ g : Grouping, g.Arranges x ops ∧ Node.shapes ns = [statementShape v g] := by
    refine .turns_step (meets_look fun s hs => ?_)
    rw [State.atEnd_eq hs, if_neg Bool.false_ne_true]
    refine @Meets.bind _ _ _ _ _ _ _ sinks_progress (meets_statement fuel v x ops []).moved ?_
    rintro ⟨n, progress⟩ ps ⟨hprogress, rfl, g, hg, hn⟩
    obtain rfl : progress = true := hprogress
    refine meets_pure ?_
    exact hstop ⟨g, hg, by simp [Node.shapes, hn]⟩
  exact .gather hturns

end Operators

namespace Parsed

open Grammar Operators Subscriptions.Types

/-- A source in which nothing is nested too deeply comes to what its pieces are read as. -/
theorem ofSource_of_meets {source : List Char} {ps : List Piece}
    {Q : List Node → List Piece → Prop} (hsource : Consists source ps)
    (h : ∀ fuel, Meets (statements (rule fuel)) ps Q)
    (hdeep : ∀ f ∈ (ofSource source).faults, f.isTooDeep = false) :
    (ofSource source).faults = [] ∧ ∃ nodes after, Q nodes after ∧
      (ofSource source).root.shape = .node .sourceFile none none (Node.shapes nodes) := by
  obtain ⟨hfaults, hpieces⟩ := hsource
  obtain ⟨nodes, s, hruns, hsource⟩ := exists_statements source
  have hrun := hruns _ (Nat.le_refl _)
  rw [hsource, State.finish, hfaults] at hdeep ⊢
  rcases h _ _ hpieces (isEnd_last_start source) 0 nodes s hrun with hsunk | ⟨-, hclean, hQ⟩
  · obtain ⟨f, hf, htooDeep⟩ := hsunk.deep
    have hfine := hdeep f (List.mem_append_right _ (List.mem_reverse.mpr hf))
    rw [htooDeep] at hfine
    cases hfine
  · refine ⟨?_, nodes, _, hQ, rfl⟩
    rw [List.nil_append, List.reverse_eq_nil_iff]
    exact hclean

/-- A chain of operators in which nothing is nested too deeply is read without a fault, and as a tree
that keeps the order of its names and operators, and how these bind. -/
theorem ofSource_chainText (v : Identifier) (x : Leaf) (ops : Tail)
    (h : ∀ f ∈ (ofSource (chainText v x ops).toList).faults, f.isTooDeep = false) :
    (ofSource (chainText v x ops).toList).faults = [] ∧ ∃ g : Grouping, g.Arranges x ops ∧
      (ofSource (chainText v x ops).toList).root.shape =
        .node .sourceFile none none [statementShape v g] := by
  obtain ⟨ts, e, htokens, hts⟩ := tokenize_chainText v x ops
  obtain ⟨hfaults, nodes, after, ⟨g, hg, hnodes⟩, hroot⟩ :=
    ofSource_of_meets (consists_of_tokens htokens hts) (fun fuel => meets_statements fuel v x ops) h
  exact ⟨hfaults, g, hg, by rw [hroot, hnodes]⟩

/-- All operators one after another, and the three tightest ones again: `x ** x ** x % x / x`. -/
def sampleChain : Tail := (Operator.all ++ Operator.all.reverse.take 3).map (·, .sample)

theorem ofSource_chainText_all :
    (∀ f ∈ (ofSource (chainText Leaf.sample.toIdentifier .sample sampleChain).toList).faults,
      f.isTooDeep = false) ∧
    (ofSource (chainText Leaf.sample.toIdentifier .sample sampleChain).toList).faults = [] ∧
      ∃ g : Grouping, g.Arranges .sample sampleChain ∧
        (ofSource (chainText Leaf.sample.toIdentifier .sample sampleChain).toList).root.shape =
          .node .sourceFile none none [statementShape Leaf.sample.toIdentifier g] :=
  have h : ∀ f ∈ (ofSource (chainText Leaf.sample.toIdentifier .sample sampleChain).toList).faults,
      f.isTooDeep = false := by decide +kernel
  ⟨h, ofSource_chainText _ _ _ h⟩

end Parsed

end Subscriptions
