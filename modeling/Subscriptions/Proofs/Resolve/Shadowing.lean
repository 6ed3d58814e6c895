import Subscriptions.Grammar.Program
import Subscriptions.Proofs.Rule.Exemption
import Subscriptions.Resolve

namespace Subscriptions

namespace Cursor

variable {c a b : Cursor}

/-- On the way up, an ancestor is above those that come before it. -/
theorem mem_ancestors_of_before {before after : List Cursor}
    (h : c.ancestors = before ++ a :: after) (hb : b ∈ before) : a ∈ b.ancestors := by
  obtain ⟨focus, above⟩ := c
  induction before generalizing focus above with
  | nil => cases hb
  | cons d before ih =>
    cases above with
    | nil => cases h
    | cons p above =>
      obtain ⟨rfl, habove⟩ : (⟨p.1, above⟩ : Cursor) = d ∧
        (mk p.1 above).ancestors = before ++ a :: after := List.cons.inj h
      rcases List.mem_cons.mp hb with rfl | hb
      · rw [habove]
        exact List.mem_append_right _ List.mem_cons_self
      · exact ih hb p.1 above habove

/-- On the way up, an ancestor that does not come before another one is the same or above it. -/
theorem mem_ancestors_of_not_before {before after : List Cursor}
    (h : c.ancestors = before ++ a :: after) (hb : b ∈ c.ancestors) (hbefore : b ∉ before) :
    a = b ∨ b ∈ a.ancestors := by
  rw [h, List.mem_append, List.mem_cons] at hb
  rcases hb with hb | rfl | hb
  · exact absurd hb hbefore
  · exact .inl rfl
  · obtain ⟨mid, last, rfl⟩ := List.append_of_mem hb
    have hmid : c.ancestors = (before ++ a :: mid) ++ b :: last := by rw [h, List.append_assoc]; rfl
    exact .inr (mem_ancestors_of_before hmid (List.mem_append_right _ List.mem_cons_self))

theorem above_of_mem_children (h : b ∈ a.children) : ∃ i, b.above = (a.focus, i) :: a.above := by
  obtain ⟨i, hi, rfl⟩ := List.mem_mapIdx.mp h
  exact ⟨i, rfl⟩

end Cursor

namespace Resolve

variable {name : String} {c d scope inner outer declared : Cursor}

def statementScopes : List Kind := [.sourceFile, .block, .caseClause, .loopStatement]

/-- A declaration that a scope keeps under a name: a parameter or caught value, the function
expression itself, a variable of one of its statements, or a function or class among them. -/
inductive Keeps (name : String) : Cursor → Cursor → Prop
  | parameter {scope d : Cursor}
      (hscope : scope.kind.isCallable = true ∨ scope.kind = .catchClause)
      (hd : d ∈ scope.parameters) (hname : d.focus.isNamed name = true) : Keeps name scope d
  | self {scope : Cursor} (hscope : scope.kind = .functionExpression)
      (hname : scope.focus.isNamed name = true) : Keeps name scope scope
  | declarator {scope statement d : Cursor} (hscope : scope.kind ∈ statementScopes)
      (hstatement : statement ∈ scope.children) (hkind : statement.kind = .variableStatement)
      (hd : d ∈ statement.children) (hname : d.focus.isNamed name = true) : Keeps name scope d
  | statement {scope d : Cursor} (hscope : scope.kind ∈ statementScopes) (hd : d ∈ scope.children)
      (hkind : d.kind = .functionDeclaration ∨ d.kind = .classDeclaration)
      (hname : d.focus.isNamed name = true) : Keeps name scope d

theorem keeps_of_parameterNamed? (hscope : scope.kind.isCallable = true ∨ scope.kind = .catchClause)
    (h : parameterNamed? name scope = some d) : Keeps name scope d :=
  .parameter hscope (List.mem_of_find?_eq_some h)
    (List.find?_some (p := fun p : Cursor => p.focus.isNamed name) h)

theorem keeps_of_declaredBy? {statement : Cursor} (hscope : scope.kind ∈ statementScopes)
    (hstatement : statement ∈ scope.children) (h : declaredBy? name statement = some d) :
    Keeps name scope d := by
  rw [declaredBy?] at h
  split at h
  · next hkind =>
    exact .declarator hscope hstatement hkind (List.mem_of_find?_eq_some h)
      (List.find?_some (p := fun p : Cursor => p.focus.isNamed name) h)
  · next hkind =>
    obtain ⟨hname, h⟩ := Option.ite_none_right_eq_some.mp h
    cases h
    exact .statement hscope hstatement (.inl hkind) hname
  · next hkind =>
    obtain ⟨hname, h⟩ := Option.ite_none_right_eq_some.mp h
    cases h
    exact .statement hscope hstatement (.inr hkind) hname
  · cases h

/-- What is found in a scope is kept there. -/
theorem keeps_of_declaredIn? (h : declaredIn? name scope = some d) : Keeps name scope d := by
  rw [declaredIn?] at h
  split at h
  · next hcallable =>
    rcases Option.or_eq_some_iff.mp h with h | ⟨-, h⟩
    · exact keeps_of_parameterNamed? (.inl hcallable) h
    · obtain ⟨hself, h⟩ := Option.ite_none_right_eq_some.mp h
      cases h
      obtain ⟨hkind, hname⟩ := (Bool.and_eq_true _ _).mp hself
      exact .self (eq_of_beq hkind) hname
  · split at h
    · next hkind => exact keeps_of_parameterNamed? (.inr hkind) h
    all_goals
      first
      | cases h
      | next hkind =>
        obtain ⟨statement, hstatement, h⟩ := List.exists_of_findSome?_eq_some h
        exact keeps_of_declaredBy? (by rw [hkind]; decide) hstatement h

theorem declaredBy?_ne_none {statement : Cursor} (hkind : statement.kind = .variableStatement)
    (hd : d ∈ statement.children) (hname : d.focus.isNamed name = true) :
    declaredBy? name statement ≠ none := by
  rw [declaredBy?, hkind]
  exact fun hnone => List.find?_eq_none.mp hnone d hd hname

/-- What a statement of a scope declares is found in the scope. -/
theorem declaredIn?_ne_none_of_statement {statement : Cursor} (hscope : scope.kind ∈ statementScopes)
    (hstatement : statement ∈ scope.children) (h : declaredBy? name statement ≠ none) :
    declaredIn? name scope ≠ none := by
  intro hnone
  have hall : scope.children.findSome? (declaredBy? name) = none := by
    simp only [statementScopes, List.mem_cons, List.not_mem_nil, or_false] at hscope
    rcases hscope with hkind | hkind | hkind | hkind <;>
      simpa [declaredIn?, hkind, Kind.isCallable, Kind.isFunction] using hnone
  exact h (List.findSome?_eq_none_iff.mp hall statement hstatement)

/-- Where something is kept under a name, something is found. -/
theorem declaredIn?_ne_none (h : Keeps name scope d) : declaredIn? name scope ≠ none := by
  cases h with
  | parameter hscope hd hname =>
    have hfound : parameterNamed? name scope ≠ none :=
      fun hnone => List.find?_eq_none.mp hnone d hd hname
    rw [declaredIn?]
    split
    · exact fun hnone => hfound (Option.or_eq_none_iff.mp hnone).1
    · next hcallable =>
      rw [hscope.resolve_left hcallable]
      exact hfound
  | self hscope hname =>
    simp [declaredIn?, Kind.isCallable, Kind.isFunction, hscope, hname]
  | declarator hscope hstatement hkind hd hname =>
    exact declaredIn?_ne_none_of_statement hscope hstatement (declaredBy?_ne_none hkind hd hname)
  | statement hscope hd hkind hname =>
    refine declaredIn?_ne_none_of_statement hscope hd ?_
    rcases hkind with hkind | hkind <;> simp [declaredBy?, hkind, hname]

/-- The nearest scope that keeps a name has its declaration. -/
theorem exists_nearest_of_keeps (hscope : scope ∈ c.ancestors) (h : Keeps name scope d) :
    ∃ nearest ∈ c.ancestors, (nearest = scope ∨ scope ∈ nearest.ancestors) ∧
      ∃ e, Keeps name nearest e ∧ declaration? c name = some e := by
  cases hfound : declaration? c name with
  | none => exact absurd (List.findSome?_eq_none_iff.mp hfound scope hscope) (declaredIn?_ne_none h)
  | some e =>
    obtain ⟨before, nearest, after, hsplit, hin, hnone⟩ := List.findSome?_eq_some_iff.mp hfound
    have hbefore : scope ∉ before := fun hmem => declaredIn?_ne_none h (hnone scope hmem)
    have hnearest : nearest ∈ c.ancestors := by
      rw [hsplit]
      exact List.mem_append_right _ List.mem_cons_self
    exact ⟨nearest, hnearest, Cursor.mem_ancestors_of_not_before hsplit hscope hbefore, e,
      keeps_of_declaredIn? hin, rfl⟩

/-- No two scopes keep one variable. -/
theorem eq_of_keeps_variable (h : Keeps name scope d) (h' : Keeps name outer d)
    (hkind : d.kind = .variableDeclaration) : scope = outer := by
  have habove : ∀ {a : Cursor}, Keeps name a d → ∃ n i j, d.above = (n, i) :: (a.focus, j) :: a.above := by
    intro a ha
    cases ha with
    | parameter _ hd _ =>
      have hparameter := (List.mem_filter.mp hd).2
      rw [hkind] at hparameter
      cases hparameter
    | self hscope _ => cases hscope.symm.trans hkind
    | declarator _ hstatement _ hd _ =>
      obtain ⟨i, hi⟩ := Cursor.above_of_mem_children hd
      obtain ⟨j, hj⟩ := Cursor.above_of_mem_children hstatement
      exact ⟨_, i, j, by rw [hi, hj]⟩
    | statement _ _ hd _ => rcases hd with hd | hd <;> cases hd.symm.trans hkind
  obtain ⟨n, i, j, hscope⟩ := habove h
  obtain ⟨n', i', j', houter⟩ := habove h'
  rw [hscope] at houter
  simp only [List.cons.injEq, Prod.mk.injEq] at houter
  obtain ⟨-, ⟨hfocus, -⟩, habove⟩ := houter
  cases scope
  cases outer
  cases hfocus
  cases habove
  rfl

/-- A use of a name takes its type from a declaration, however far declarations are followed. -/
def ResolvesThrough (name : String) (c d : Cursor) : Prop :=
  declaration? c name = some d ∧
    ∀ depth, Resolver.declared depth c = valueType? (typeWithin depth) d

theorem resolvesThrough_of_declaration? (hkind : c.kind = .identifier)
    (hname : c.focus.nameText = some name) (h : declaration? c name = some d) :
    ResolvesThrough name c d := by
  refine ⟨h, fun depth => ?_⟩
  simp [Resolver.declared, typeWithin, hkind, hname, h]

/-- A use of a name is never resolved through a variable of an outer scope where a scope further in
keeps a declaration under the name: it takes its type from that of the nearest such scope. Only
where no scope further in keeps one is it resolved through the outer scope. -/
theorem resolves_through_nearest (hkind : c.kind = .identifier)
    (hname : c.focus.nameText = some name) (houter : outer ∈ c.ancestors)
    (hdeclared : Keeps name outer declared) (hvariable : declared.kind = .variableDeclaration) :
    (∀ inner ∈ c.ancestors, outer ∈ inner.ancestors → (∃ d, Keeps name inner d) →
      ∃ nearest ∈ c.ancestors, (nearest = inner ∨ inner ∈ nearest.ancestors) ∧
        ∃ d, Keeps name nearest d ∧ d ≠ declared ∧ ResolvesThrough name c d) ∧
    ((∀ inner ∈ c.ancestors, outer ∈ inner.ancestors → ∀ d, ¬ Keeps name inner d) →
      ∃ d, Keeps name outer d ∧ ResolvesThrough name c d) := by
  constructor
  · rintro inner hinner hinside ⟨d, hd⟩
    obtain ⟨nearest, hnearest, hnear, e, he, hfound⟩ := exists_nearest_of_keeps hinner hd
    refine ⟨nearest, hnearest, hnear, e, he, ?_, resolvesThrough_of_declaration? hkind hname hfound⟩
    rintro rfl
    obtain rfl := eq_of_keeps_variable he hdeclared hvariable
    have habove : nearest ∈ nearest.ancestors := by
      rcases hnear with rfl | hnear
      · exact hinside
      · exact Cursor.mem_ancestors_trans hnear hinside
    exact Cursor.not_mem_ancestors_self habove
  · intro hnone
    obtain ⟨nearest, hnearest, hnear, e, he, hfound⟩ := exists_nearest_of_keeps houter hdeclared
    rcases hnear with rfl | hinside
    · exact ⟨e, he, resolvesThrough_of_declaration? hkind hname hfound⟩
    · exact absurd he (hnone nearest hnearest hinside e)

def parameterSource : List Char :=
  "const x: Subject = s;\nfunction f(x: Other) { x; }".toList

theorem resolves_through_nearest_parameter :
    ∃ c ∈ (Parsed.ofSource parameterSource).root.asRoot.preorder, ∃ inner ∈ c.ancestors,
      ∃ outer ∈ inner.ancestors, ∃ declared, Keeps "x" outer declared ∧
        declared.focus.declared = some "Subject" ∧ inner.kind = .functionDeclaration ∧
        ∃ d, d ≠ declared ∧ ResolvesThrough "x" c d := by
  have h : ((Parsed.ofSource parameterSource).root.asRoot.preorder.any fun c =>
      c.kind == .identifier && c.focus.isNamed "x" && c.ancestors.any fun inner =>
        inner.kind == .functionDeclaration && (declaredIn? "x" inner).isSome &&
          inner.ancestors.any fun outer => (declaredIn? "x" outer).any fun declared =>
            declared.kind == .variableDeclaration &&
              declared.focus.declared == some "Subject") = true := by
    decide +kernel
  simp only [List.any_eq_true, Bool.and_eq_true, Option.any_eq_true, beq_iff_eq, Node.isNamed,
    Option.isSome_iff_exists] at h
  obtain ⟨c, hc, ⟨hkind, hname⟩, inner, hinner, ⟨hfunction, d, hd⟩, outer, hinside, declared, hfound,
    hvariable, htype⟩ := h
  have hdeclared := keeps_of_declaredIn? hfound
  obtain ⟨_, -, -, e, -, hne, hthrough⟩ := (resolves_through_nearest hkind hname
    (Cursor.mem_ancestors_trans hinner hinside) hdeclared hvariable).1 inner hinner hinside
      ⟨d, keeps_of_declaredIn? hd⟩
  exact ⟨c, hc, inner, hinner, outer, hinside, declared, hdeclared, htype, hfunction, e, hne,
    hthrough⟩

def patternSource : List Char := "const x: Subject = s;\nfunction f({ x }) { x; }".toList

/-- A use of `x` in a function that has a pattern as a parameter, where only the scope around the
function keeps something under that name. -/
def usedBelowPattern (c : Cursor) : Bool :=
  match c.ancestors with
  | [statement, block, function, file] =>
    c.kind == .identifier && c.focus.isNamed "x" && function.kind == .functionDeclaration &&
      function.parameters.any (fun p => textOf patternSource p.span == "\x7b x \x7d") &&
      [statement, block, function].all (fun s => (declaredIn? "x" s).isNone) &&
      (declaredIn? "x" file).any fun d =>
        d.focus.declared == some "Subject" && valueType? (typeWithin 16) d == some "Subject"
  | _ => false

/-- Nothing is kept under the names that a pattern declares, so a use of one of them is resolved
through a constant outside of the function. -/
theorem resolves_through_pattern :
    ∃ c ∈ (Parsed.ofSource patternSource).root.asRoot.preorder, ∃ inner ∈ c.ancestors,
      ∃ outer ∈ inner.ancestors, ∃ declared, Keeps "x" outer declared ∧
        declared.focus.declared = some "Subject" ∧ inner.kind = .functionDeclaration ∧
        (∃ p ∈ inner.parameters, textOf patternSource p.span = "\x7b x \x7d") ∧
        ResolvesThrough "x" c declared ∧ Resolver.declared 16 c = some "Subject" := by
  have h : (Parsed.ofSource patternSource).root.asRoot.preorder.any usedBelowPattern = true := by
    decide +kernel
  obtain ⟨c, hc, h⟩ := List.any_eq_true.mp h
  rw [usedBelowPattern] at h
  split at h
  · next statement block function file hancestors =>
    simp only [Bool.and_eq_true, List.any_eq_true, List.all_eq_true, Option.any_eq_true, beq_iff_eq,
      Node.isNamed, Option.isNone_iff_eq_none] at h
    obtain ⟨⟨⟨⟨⟨hkind, hname⟩, hfunction⟩, hpattern⟩, hnone⟩, declared, hfound, htype, hvalue⟩ := h
    have hinner : function ∈ c.ancestors := by simp [hancestors]
    have houter : file ∈ function.ancestors :=
      @Cursor.mem_ancestors_of_before _ _ _ [statement, block, function] _ hancestors (by simp)
    have hdeclaration : declaration? c "x" = some declared := by
      simp [declaration?, hancestors, hnone, hfound]
    have hthrough := resolvesThrough_of_declaration? hkind hname hdeclaration
    exact ⟨c, hc, function, hinner, file, houter, declared, keeps_of_declaredIn? hfound, htype,
      hfunction, hpattern, hthrough, (hthrough.2 16).trans hvalue⟩
  · cases h

end Resolve

end Subscriptions
