import Subscriptions.Proofs.Making.Spans

namespace Subscriptions

namespace Scanner

variable {braces : List Nat} {previous : Option Token} {c : Char} {cs : List Char}

theorem leavesHollow_lexeme {make : Span → Fault} (span : Span)
    (h : (lexeme braces previous c cs).fault = some make) : (make span).leavesHollow = false := by
  revert h
  apply lexeme_cases (P := fun l => l.fault = some make → (make span).leavesHollow = false)
  · exact fun _ h => nomatch h
  · exact fun h => nomatch h
  · intro kind _ braces what k h
    rw [literalLexeme, Option.ite_none_right_eq_some, Option.some_inj] at h
    rw [← h.2]
    rfl
  · intro braces h
    rw [punctLexeme] at h
    split at h
    · cases h
    · cases h
      rfl

/-- The scanner does not look for expressions. -/
theorem leavesHollow_scanFrom (fuel : Nat) (braces : List Nat) (previous : Option Token) (pos : Nat)
    (cs : List Char) :
    ∀ f ∈ (scanFrom fuel braces previous pos cs).faults, f.leavesHollow = false := by
  induction fuel generalizing braces previous pos cs with
  | zero => exact nofun
  | succ fuel ih =>
    have hopen (starts : List Nat) (stop : Nat) : ∀ f ∈ starts.map (fun start =>
        Fault.unterminated .blockComment ⟨start, stop⟩), f.leavesHollow = false := by
      simp [Fault.leavesHollow]
    rw [scanFrom]
    split
    · exact hopen _ _
    · refine List.forall_mem_append.mpr ⟨List.forall_mem_append.mpr ⟨hopen _ _, ?_⟩, ih _ _ _ _⟩
      intro f hf
      obtain ⟨make, hmake, rfl⟩ := Option.map_eq_some_iff.mp (Option.mem_toList.mp hf)
      exact leavesHollow_lexeme _ hmake

end Scanner

namespace Grammar

variable {stop : Nat} {a s : State} {ns : List Node}

def Answers (n : Node) (f : Fault) : Prop := n.span.start ≤ f.span.start

/-- A parse finds one fault for each hollow node that it makes, in the same order. -/
theorem Makes.hollows (h : Makes a ns s) (ha : Placed stop a) : ∃ fs, s.faults = fs ++ a.faults ∧
    List.Forall₂ Answers ((Node.postorders ns).filter Node.isHollow)
      (fs.reverse.filter Fault.leavesHollow) := by
  induction h with
  | start => exact ⟨[], rfl, .nil⟩
  | read _ _ _ ih => exact ih ha
  | report _ f hf ih =>
    obtain ⟨fs, hfaults, hanswers⟩ := ih ha
    refine ⟨f :: fs, by rw [State.report, hfaults]; rfl, ?_⟩
    rwa [List.reverse_cons, List.filter_append, List.filter_singleton, hf, Bool.cond_false,
      List.append_nil]
  | node n hfront hinner hn ih ih' =>
    obtain ⟨fs, hfaults, hanswers⟩ := ih ha
    obtain ⟨gs, hfaults', hanswers'⟩ := ih' (hfront.placed ha)
    have hsolid : n.isHollow = false := by
      rw [Node.isHollow, Bool.and_eq_false_iff, beq_eq_false_iff_ne]
      by_cases hkind : n.kind = .unknown
      · obtain ⟨decorations, statement, hchildren, -, -⟩ := hn.unknown hkind
        exact .inr (by simp [hchildren])
      · exact .inl hkind
    refine ⟨gs ++ fs, by rw [State.faults_alloc, hfaults', hfaults, List.append_assoc], ?_⟩
    rw [Node.postorders_concat, hn.children, ← List.append_assoc, Node.postorders_append,
      List.filter_append, List.filter_append, List.reverse_append, List.filter_append,
      List.filter_singleton, hsolid, Bool.cond_false, List.append_nil]
    exact List.rel_append hanswers hanswers'
  | @hollow a m x b before n f hbefore hx hf hspan hb hn ih ih' ih'' =>
    have hm := hbefore.placed ha
    obtain ⟨fs, hfaults, hanswers⟩ := ih ha
    obtain ⟨gs, hfaults', hanswers'⟩ := ih' hm
    obtain ⟨hs, hfaults'', hanswers''⟩ := ih'' (hx.placed hm).report
    have hnone {fs : List Fault} (h : List.Forall₂ Answers ((Node.postorders []).filter Node.isHollow)
        (fs.reverse.filter Fault.leavesHollow)) : fs.reverse.filter Fault.leavesHollow = [] :=
      List.forall₂_nil_left_iff.mp h
    have hhollow : n.isHollow = true := by rw [Node.isHollow, hn.kind, hn.children]; rfl
    have hanswer : Answers n f := by
      rw [Answers, hn.span, hspan]
      exact hx.start_current_le hm
    refine ⟨hs ++ f :: gs ++ fs, ?_, ?_⟩
    · simp [hfaults'', State.report, hfaults', hfaults]
    · rw [Node.postorders_concat, hn.children, List.append_nil, List.filter_append,
        List.filter_singleton, hhollow]
      simp only [List.reverse_append, List.reverse_cons, List.filter_append, hnone hanswers',
        hnone hanswers'', List.filter_singleton, hf, List.append_nil, List.nil_append]
      exact List.rel_append hanswers (.cons hanswer .nil)

/-- The unknown nodes that are not for nothing are those of decorators. -/
theorem Makes.unknown (h : Makes a ns s) : ∀ n ∈ Node.postorders ns, n.kind = .unknown →
    n.isHollow = true ∨ n.IsDecorated := by
  induction h with
  | start => exact nofun
  | read _ _ _ ih | report _ _ _ ih => exact ih
  | node n _ _ hn ih ih' =>
    rw [Node.postorders_concat, hn.children, ← List.append_assoc, Node.postorders_append]
    refine List.forall_mem_append.mpr ⟨List.forall_mem_append.mpr ⟨ih, ih'⟩, ?_⟩
    exact List.forall_mem_singleton.mpr fun hkind => .inr (hn.unknown hkind)
  | hollow n _ _ _ _ _ _ hn ih =>
    rw [Node.postorders_concat, hn.children, List.append_nil]
    refine List.forall_mem_append.mpr ⟨ih, List.forall_mem_singleton.mpr fun hkind => .inl ?_⟩
    rw [Node.isHollow, hkind, hn.children]
    rfl

end Grammar

namespace Parsed

open Grammar

/-- In the tree of any source each unknown node either is for nothing, and then there is a fault for
it, one for each such node and in their order, or it is made of decorators and the statement behind
them. -/
theorem ofSource_unknown (source : List Char) :
    (∀ n ∈ (ofSource source).root.postorder, n.kind = .unknown →
      n.isHollow = true ∨ n.IsDecorated) ∧
    List.Forall₂ Answers ((ofSource source).root.postorder.filter Node.isHollow)
      ((ofSource source).faults.filter Fault.leavesHollow) := by
  obtain ⟨nodes, s, hmakes, hfaults, hroot⟩ := ofSource_made source
  obtain ⟨fs, hfound, hanswers⟩ := hmakes.hollows (placed_start source)
  have hscanned : (tokenize source).faults.filter Fault.leavesHollow = [] := by
    refine List.filter_eq_nil_iff.mpr fun f hf => ?_
    rw [Scanner.leavesHollow_scanFrom _ _ _ _ _ f hf]
    exact Bool.false_ne_true
  have hnone : s.faults = fs := by rw [hfound, start, List.append_nil]
  rw [hroot, hfaults, Node.postorder_eq, List.filter_append, List.filter_append, hscanned, hnone]
  refine ⟨List.forall_mem_append.mpr ⟨hmakes.unknown, List.forall_mem_singleton.mpr ?_⟩, ?_⟩
  · intro hkind
    cases hkind
  simpa [Node.isHollow] using hanswers

/-- Decorators in front of a statement that is not a class are not reported. -/
theorem unknown_without_fault : (ofSource "@a b;".toList).faults = [] ∧
    (ofSource "@a b;".toList).root.outline =
      "SourceFile\n  Unknown\n    Decorator\n      Identifier a\n" ++
      "    ExpressionStatement\n      Identifier b\n" := by
  decide

end Parsed

end Subscriptions
