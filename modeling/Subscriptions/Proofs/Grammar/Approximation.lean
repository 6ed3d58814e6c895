import Mathlib.Order.Basic
import Mathlib.Tactic.GCongr
import Subscriptions.Grammar.Program

namespace Subscriptions.Grammar

namespace Parse

variable {α β : Type}

/-- A parse is below another one that has all its results. -/
instance : Preorder (Parse α) where
  le p q := ∀ depth s r, p depth s = some r → q depth s = some r
  le_refl _ _ _ _ h := h
  le_trans _ _ _ hp hq depth s r h := hq depth s r (hp depth s r h)

@[gcongr]
theorem bind_le_bind {p q : Parse α} {f g : α → Parse β} (hp : p ≤ q) (hf : ∀ a, f a ≤ g a) :
    p >>= f ≤ q >>= g := by
  intro depth s r h
  rw [bind_run, Option.bind_eq_some_iff] at h ⊢
  obtain ⟨a, ha, hr⟩ := h
  exact ⟨a, hp depth s a ha, hf a.1 depth a.2 r hr⟩

@[gcongr]
theorem ite_le_ite {c : Prop} [Decidable c] {p q p' q' : Parse α} (hp : p ≤ p') (hq : q ≤ q') :
    (if c then p else q) ≤ (if c then p' else q') := by
  split <;> assumption

end Parse

@[gcongr]
theorem nested_le {p q : Parse Node} (h : p ≤ q) : nested p ≤ nested q := by
  intro depth s r hr
  simp only [nested] at hr ⊢
  by_cases hd : maxNesting ≤ depth
  · simpa [hd] using hr
  · rw [if_neg hd] at hr ⊢
    exact h _ s r hr

/-- A loop with more turns to spend has the results that it had. -/
theorem turns_le {p q : Parse (List Node × Bool)} {m n : Nat} (hm : m ≤ n) (h : p ≤ q) :
    turns m p ≤ turns n q := by
  induction m generalizing n with
  | zero =>
    intro depth s r hr
    cases hr
  | succ m ih =>
    obtain ⟨n, rfl⟩ := Nat.exists_eq_add_of_le' (Nat.lt_of_lt_of_le m.succ_pos hm)
    have hrest := ih (Nat.le_of_succ_le_succ hm)
    rw [turns, turns]
    gcongr ?_ >>= fun r => ?_
    obtain ⟨nodes, more⟩ := r
    dsimp only
    gcongr

@[gcongr]
theorem gather_le {p q : Parse (List Node × Bool)} (h : p ≤ q) : gather p ≤ gather q := by
  dsimp only [gather]
  gcongr look >>= fun s => ?_
  exact turns_le (Nat.le_refl _) h

theorem climbs_le {p q : Node → Parse (Node × Bool)} {m n : Nat} (hm : m ≤ n)
    (h : ∀ node, p node ≤ q node) (node : Node) : climbs m p node ≤ climbs n q node := by
  induction m generalizing n node with
  | zero =>
    intro depth s r hr
    cases hr
  | succ m ih =>
    obtain ⟨n, rfl⟩ := Nat.exists_eq_add_of_le' (Nat.lt_of_lt_of_le m.succ_pos hm)
    have hrest := ih (Nat.le_of_succ_le_succ hm)
    rw [climbs, climbs]
    gcongr ?_ >>= fun r => ?_
    · exact h node
    · obtain ⟨next, more⟩ := r
      dsimp only
      gcongr
      exact hrest next

@[gcongr]
theorem climb_le {p q : Node → Parse (Node × Bool)} (h : ∀ node, p node ≤ q node) (node : Node) :
    climb p node ≤ climb q node := by
  dsimp only [climb]
  gcongr look >>= fun s => ?_
  exact climbs_le (Nat.le_refl _) h node

@[gcongr]
theorem moved_le {p q : Parse Node} (h : p ≤ q) : moved p ≤ moved q := by
  dsimp only [moved]
  gcongr

section
variable {go go' : Recur} (h : go ≤ go')
include h

@[gcongr]
theorem decorators_le : decorators go ≤ decorators go' := by
  dsimp only [decorators]
  gcongr
  exact h .access

@[gcongr]
theorem initializer_le : initializer go ≤ initializer go' := by
  dsimp only [initializer]
  gcongr
  exact h .assignment

@[gcongr]
theorem parameters_le : parameters go ≤ parameters go' := by
  dsimp only [parameters, parameter]
  gcongr

@[gcongr]
theorem block_le : block go ≤ block go' := by
  dsimp only [block, statementsToBrace]
  gcongr
  exact h .statement

@[gcongr]
theorem bodyOrSemicolon_le : bodyOrSemicolon go ≤ bodyOrSemicolon go' := by
  dsimp only [bodyOrSemicolon]
  gcongr

@[gcongr]
theorem function_le (kind : Kind) : function go kind ≤ function go' kind := by
  dsimp only [function]
  gcongr

@[gcongr]
theorem undecoratedMember_le : undecoratedMember go ≤ undecoratedMember go' := by
  dsimp only [undecoratedMember, constructorMember, methodMember, propertyMember]
  gcongr

@[gcongr]
theorem classBody_le (decorations : List Node) :
    classBody go decorations ≤ classBody go' decorations := by
  dsimp only [classBody, classMembers, heritage]
  gcongr
  all_goals exact h .access

@[gcongr]
theorem expression_le : expression go ≤ expression go' := by
  dsimp only [expression]
  gcongr
  all_goals exact h .assignment

@[gcongr]
theorem spreadOrAssignment_le : spreadOrAssignment go ≤ spreadOrAssignment go' := by
  dsimp only [spreadOrAssignment]
  gcongr
  all_goals exact h .assignment

@[gcongr]
theorem arguments_le : arguments go ≤ arguments go' := by
  dsimp only [arguments]
  gcongr

@[gcongr]
theorem elementAccess_le (start : Nat) (object : Node) :
    elementAccess go start object ≤ elementAccess go' start object := by
  dsimp only [elementAccess]
  gcongr

@[gcongr]
theorem arrow_le (start : Nat) : arrow go start ≤ arrow go' start := by
  dsimp only [arrow]
  gcongr
  all_goals exact h .assignment

@[gcongr]
theorem arrayLiteral_le : arrayLiteral go ≤ arrayLiteral go' := by
  dsimp only [arrayLiteral]
  gcongr

@[gcongr]
theorem objectMethod_le (kind : Kind) (start : Nat) (name : Option Name) :
    objectMethod go kind start name ≤ objectMethod go' kind start name := by
  dsimp only [objectMethod]
  gcongr

@[gcongr]
theorem shorthandMember_le (start : Nat) (name : Option Name) :
    shorthandMember go start name ≤ shorthandMember go' start name := by
  cases name with
  | none =>
    simp only [shorthandMember]
    gcongr
  | some n =>
    simp only [shorthandMember]
    refine Parse.bind_le_bind (le_refl _) fun value => ?_
    gcongr

@[gcongr]
theorem objectLiteral_le : objectLiteral go ≤ objectLiteral go' := by
  dsimp only [objectLiteral, objectMember]
  gcongr
  exact h .assignment

@[gcongr]
theorem template_le : template go ≤ template go' := by
  dsimp only [template]
  gcongr

@[gcongr]
theorem wordPrimary_le : wordPrimary go ≤ wordPrimary go' := by
  dsimp only [wordPrimary]
  gcongr here >>= fun start => look >>= fun s => ?_
  cases wordForm s with
  | function | asyncFunction | classLiteral | asyncArrow | arrow =>
    dsimp only
    gcongr
  | thisWord | superWord | literal | identifier => exact le_refl _

@[gcongr]
theorem primary_le : primary go ≤ primary go' := by
  dsimp only [primary, punctPrimary, parenthesized, genericArrow]
  gcongr here >>= fun start => look >>= fun s => ?_
  cases s.current.kind with
  | word | templateHead | punct =>
    dsimp only
    gcongr
  | _ => exact le_refl _

@[gcongr]
theorem calleeStep_le (start : Nat) (callee : Node) :
    calleeStep go start callee ≤ calleeStep go' start callee := by
  dsimp only [calleeStep]
  gcongr

@[gcongr]
theorem construction_le : construction go ≤ construction go' := by
  dsimp only [construction]
  gcongr
  exact h .construction

@[gcongr]
theorem accessStep_le (start : Nat) (object : Node) :
    accessStep go start object ≤ accessStep go' start object := by
  dsimp only [accessStep, memberStep, callOf]
  gcongr

@[gcongr]
theorem access_le : access go ≤ access go' := by
  dsimp only [access]
  gcongr
  exact h .construction

@[gcongr]
theorem unary_le : unary go ≤ unary go' := by
  dsimp only [unary]
  gcongr
  · exact h .unary
  · exact h .access

@[gcongr]
theorem binaryStep_le (above start : Nat) (left : Node) :
    binaryStep go above start left ≤ binaryStep go' above start left := by
  dsimp only [binaryStep]
  gcongr look >>= fun s => ?_
  cases operator? above s.current with
  | none => exact le_refl _
  | some precedence =>
    dsimp only
    gcongr
    exact h (.binary precedence)

@[gcongr]
theorem binary_le (above : Nat) : binary go above ≤ binary go' above := by
  dsimp only [binary]
  gcongr
  exact h .unary

@[gcongr]
theorem conditional_le : conditional go ≤ conditional go' := by
  dsimp only [conditional]
  gcongr
  · exact h (.binary 0)
  all_goals exact h .assignment

@[gcongr]
theorem assignment_le : assignment go ≤ assignment go' := by
  dsimp only [assignment, yielded]
  gcongr
  all_goals exact h .assignment

@[gcongr]
theorem variableStatement_le : variableStatement go ≤ variableStatement go' := by
  dsimp only [variableStatement, variableDeclaration]
  gcongr

@[gcongr]
theorem expressionStatement_le (start : Nat) :
    expressionStatement go start ≤ expressionStatement go' start := by
  dsimp only [expressionStatement]
  gcongr

@[gcongr]
theorem exportClause_le : exportClause go ≤ exportClause go' := by
  dsimp only [exportClause]
  gcongr
  exact h .statement

@[gcongr]
theorem namespaceBody_le : namespaceBody go ≤ namespaceBody go' := by
  dsimp only [namespaceBody]
  gcongr

@[gcongr]
theorem decoratedStatement_le : decoratedStatement go ≤ decoratedStatement go' := by
  dsimp only [decoratedStatement]
  gcongr
  exact h .statement

@[gcongr]
theorem returning_le : returning go ≤ returning go' := by
  dsimp only [returning]
  gcongr

@[gcongr]
theorem condition_le : condition go ≤ condition go' := by
  dsimp only [condition]
  gcongr

@[gcongr]
theorem branch_le : branch go ≤ branch go' := by
  dsimp only [branch]
  gcongr
  all_goals exact h .statement

@[gcongr]
theorem forLoop_le : forLoop go ≤ forLoop go' := by
  dsimp only [forLoop, forHead]
  gcongr
  exact h .statement

@[gcongr]
theorem whileLoop_le : whileLoop go ≤ whileLoop go' := by
  dsimp only [whileLoop]
  gcongr
  exact h .statement

@[gcongr]
theorem doLoop_le : doLoop go ≤ doLoop go' := by
  dsimp only [doLoop]
  gcongr
  exact h .statement

@[gcongr]
theorem switch_le : switch go ≤ switch go' := by
  dsimp only [switch, cases, caseBody, caseStatements]
  gcongr
  all_goals exact h .statement

@[gcongr]
theorem trying_le : trying go ≤ trying go' := by
  dsimp only [trying, catchClause]
  gcongr

@[gcongr]
theorem throwing_le : throwing go ≤ throwing go' := by
  dsimp only [throwing]
  gcongr

@[gcongr]
theorem statement_le : statement go ≤ statement go' := by
  dsimp only [statement]
  gcongr here >>= fun start => look >>= fun s => ?_
  cases statementForm s with
  | declared | labelled =>
    dsimp only
    gcongr
    exact h .statement
  | empty | importClause | constEnum | enumeration | interface | typeAlias | jump =>
    exact le_refl _
  | _ =>
    dsimp only
    gcongr

theorem body_le (r : Rule) : body go r ≤ body go' r := by
  cases r <;> simp only [body] <;> gcongr

theorem program_le (length : Nat) : program go length ≤ program go' length := by
  refine Parse.bind_le_bind ?_ fun nodes => le_refl _
  dsimp only [statements]
  gcongr
  exact h .statement

end

/-- Fuel adds results and changes none. -/
theorem rule_le {m n : Nat} (h : m ≤ n) : rule m ≤ rule n := by
  induction m generalizing n with
  | zero =>
    intro r depth s x hx
    cases hx
  | succ m ih =>
    obtain ⟨n, rfl⟩ := Nat.exists_eq_add_of_le' (Nat.lt_of_lt_of_le m.succ_pos h)
    intro r
    exact body_le (ih (Nat.le_of_succ_le_succ h)) r

end Subscriptions.Grammar
