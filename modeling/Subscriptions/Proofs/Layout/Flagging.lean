import Subscriptions.Proofs.Layout.Reading
import Subscriptions.Proofs.Layout.Resolving
import Subscriptions.Proofs.Rule.Classification

namespace Subscriptions

def tokenAt? (source : List Char) (s : Span) : Option Nat :=
  (tokenize source).tokens.findIdx? (·.span == s)

/-- Two tokens do not start at the same offset. -/
theorem tokenAt?_of_getElem? {source : List Char} {i : Nat} {t : Token}
    (h : (tokenize source).tokens[i]? = some t) : tokenAt? source t.span = some i := by
  have htiled := tiled_tokenize source
  obtain ⟨front, e, htokens, -, hfront⟩ := htiled.eq_append_end
  obtain ⟨hpairs, hroom⟩ := htiled.ordered
  obtain ⟨hi, hget⟩ := List.getElem?_eq_some_iff.mp h
  rw [tokenAt?, List.findIdx?_eq_some_iff_getElem]
  refine ⟨hi, by rw [hget]; exact beq_self_eq_true _, fun j hj => ?_⟩
  have hj' : j < (tokenize source).tokens.length := Nat.lt_trans hj hi
  have horder := List.pairwise_iff_getElem.mp hpairs j i hj' hi hj
  have hmem : (tokenize source).tokens[j] ∈ front := by
    have hlength := congrArg List.length htokens
    rw [List.length_append, List.length_singleton] at hlength
    simp only [htokens]
    rw [List.getElem_append_left (by omega)]
    exact List.getElem_mem _
  have hlt := hroom _ (List.getElem_mem hj') (hfront _ hmem)
  rw [hget] at horder
  intro heq
  rw [eq_of_beq heq] at hlt horder
  omega

namespace Comparison

variable {C : Comparison} {c d : Cursor} {rule : UntrackedRule} {resolve : Resolver}

theorem Near.isSubscription (hresolve : C.Steady resolve) (h : C.Near c d) :
    rule.isSubscription resolve d = rule.isSubscription resolve c := by
  rw [UntrackedRule.isSubscription, UntrackedRule.isSubscription, h.kindNamed rfl,
    bind_eq_of_rel h.receiver? hresolve]

/-- The violations are at the same token, which is the verb, and of one kind. -/
structure SameViolation (C : Comparison) (verb : String) (v w : Violation) : Prop where
  kind : w.inConstruction = v.inConstruction
  place : ∃ (i : Nat) (t u : Token), C.tokens[i]? = some t ∧ C.others[i]? = some u ∧
    t.span = v.span ∧ u.span = w.span ∧ t.text = verb

theorem Near.violation? (hresolve : C.Steady resolve) (h : C.Near c d) :
    Option.Rel (C.SameViolation rule.verb) (rule.violation? resolve c)
      (rule.violation? resolve d) := by
  rw [UntrackedRule.violation?, UntrackedRule.violation?, h.isSubscription hresolve, h.classify]
  split
  · rename_i hmatch
    obtain ⟨hkind, a, ha, htext⟩ := UntrackedRule.named_of_isSubscription hmatch
    have hfocus : c.focus.kind = .propertyAccess := hkind
    have hname := h.focus.written (by rw [hfocus]; rfl)
    rw [ha] at hname ⊢
    generalize d.focus.name = b at hname
    cases hname with
    | some hab =>
      obtain ⟨i, t, u, ht, hu, rfl, rfl⟩ := hab.place
      have hplace : ∃ (i : Nat) (t' u' : Token), C.tokens[i]? = some t' ∧ C.others[i]? = some u' ∧
          t'.span = t.span ∧ u'.span = u.span ∧ t'.text = rule.verb :=
        ⟨i, t, u, ht, hu, rfl, rfl, htext⟩
      cases rule.classify c with
      | exempt => exact .none
      | plain => exact .some ⟨rfl, hplace⟩
      | constructionSite => exact .some ⟨rfl, hplace⟩
  · exact .none

end Comparison

namespace UntrackedRule

/-- What the accesses of a source amount to, each with the position of its name. -/
def accesses (rule : UntrackedRule) (source : List Char) : List (Option Nat × Disposition) :=
  ((Parsed.ofSource source).root.asRoot.preorder.filter (·.kind == .propertyAccess)).map fun c =>
    (c.focus.name.bind fun name => tokenAt? source name.span, rule.classify c)

/-- What is flagged in a source, with the position of the name and whether it is inside of a
construction. -/
def flagged (rule : UntrackedRule) (depth : Nat) (source : List Char) : List (Option Nat × Bool) :=
  (rule.violations (.declared depth) (Parsed.ofSource source).root).map fun v =>
    (tokenAt? source v.span, v.inConstruction)

def declaredSymbols (source : List Char) : List (Option (Option String)) :=
  (Parsed.ofSource source).root.asRoot.preorder.map fun c => c.focus.declared.map TypeName.symbol?

end UntrackedRule

namespace UntrackedRule

open Comparison

variable {source source' : List Char} {rule : UntrackedRule}

section
variable (h : (tokenize source).tokens.map Token.piece = (tokenize source').tokens.map Token.piece)
include h

theorem near_roots : (Parsed.layouts source source').Near (Parsed.ofSource source).root.asRoot
    (Parsed.ofSource source').root.asRoot := ⟨Parsed.alike_roots h, .nil⟩

theorem accesses_eq : rule.accesses source' = rule.accesses source := by
  have hnear := List.rel_filter (p := fun c : Cursor => c.kind == .propertyAccess)
    (q := fun c : Cursor => c.kind == .propertyAccess) (fun a b hab => by
      change (a.kind == _) = true ↔ (b.kind == _) = true
      rw [hab.kind]) (near_roots h).preorder
  have haccesses := (List.forall₂_and_left _ _).mpr ⟨fun a ha => (List.mem_filter.mp ha).2, hnear⟩
  refine map_eq_of_forall₂ haccesses fun a b ⟨hkind, hab⟩ => ?_
  have hfocus : a.focus.kind = .propertyAccess := eq_of_beq hkind
  rw [hab.classify]
  have hwritten := hab.focus.written (by rw [hfocus]; rfl)
  refine congrArg (·, _) (bind_eq_of_rel hwritten fun x y hxy => ?_)
  obtain ⟨i, t, u, ht, hu, rfl, rfl⟩ := hxy.place
  exact (tokenAt?_of_getElem? hu).trans (tokenAt?_of_getElem? ht).symm

/-- Where the declared types name the same symbols, so do they node by node. -/
theorem alike_of_symbols (hsymbols : declaredSymbols source' = declaredSymbols source) :
    ((Parsed.layouts source source').withTypes SameSymbol).Alike (Parsed.ofSource source).root
      (Parsed.ofSource source').root := by
  refine alike_withTypes [] [] _ _ (Parsed.alike_roots h) ?_
  have hequal : List.Forall₂ Eq (declaredSymbols source) (declaredSymbols source') := by
    rw [List.forall₂_eq_eq_eq, hsymbols]
  rw [declaredSymbols, declaredSymbols, List.forall₂_map_left_iff,
    List.forall₂_map_right_iff] at hequal
  exact hequal.imp fun _ _ hab => sameSymbol_of_map_eq hab

/-- Where the declared types name the same symbols, the same is flagged. -/
theorem sameViolations (hsymbols : declaredSymbols source' = declaredSymbols source) (depth : Nat) :
    List.Forall₂ (((Parsed.layouts source source').withTypes SameSymbol).SameViolation rule.verb)
      (rule.violations (.declared depth) (Parsed.ofSource source).root)
      (rule.violations (.declared depth) (Parsed.ofSource source').root) := by
  have htyped : ((Parsed.layouts source source').withTypes SameSymbol).Typed := fun _ _ hxy => hxy
  have hnear : ((Parsed.layouts source source').withTypes SameSymbol).Near
      (Parsed.ofSource source).root.asRoot (Parsed.ofSource source').root.asRoot :=
    ⟨alike_of_symbols h hsymbols, .nil⟩
  have hsteady := steady_typeWithin htyped (depth + 1)
  exact List.rel_filterMap (fun _ _ hab => hab.violation? hsteady) hnear.preorder

theorem flagged_eq (hsymbols : declaredSymbols source' = declaredSymbols source) (depth : Nat) :
    rule.flagged depth source' = rule.flagged depth source := by
  refine map_eq_of_forall₂ (sameViolations h hsymbols depth) fun v w hvw => ?_
  obtain ⟨i, t, u, ht, hu, htspan, huspan, -⟩ := hvw.place
  rw [hvw.kind, ← htspan, ← huspan, tokenAt?_of_getElem? ht, tokenAt?_of_getElem? hu]

end

/-- What is flagged is a token that is the verb. -/
theorem verb_of_mem_flagged {depth : Nat} {f : Option Nat × Bool}
    (hf : f ∈ rule.flagged depth source) :
    ∃ i t, f.1 = some i ∧ (tokenize source).tokens[i]? = some t ∧ t.text = rule.verb := by
  obtain ⟨v, hv, rfl⟩ := List.mem_map.mp hf
  have hsame := List.forall₂_same.mp (sameViolations rfl rfl depth) v hv
  obtain ⟨i, t, u, ht, -, hspan, -, hverb⟩ := hsame.place
  refine ⟨i, t, ?_, ht, hverb⟩
  rw [← hspan, tokenAt?_of_getElem? ht]

/-- Blanks and comments between the tokens of a source neither change what its accesses amount to
nor, as long as the declared types name the same symbols, which of them are flagged, whatever the
rule is and however far declarations are followed. What is flagged is always a token that is the
verb. -/
theorem flagged_of_symbols (source source' : List Char)
    (h : (tokenize source).tokens.map Token.piece = (tokenize source').tokens.map Token.piece) :
    (∀ rule : UntrackedRule, rule.accesses source' = rule.accesses source) ∧
    (declaredSymbols source' = declaredSymbols source →
      ∀ (rule : UntrackedRule) (depth : Nat),
        rule.flagged depth source' = rule.flagged depth source) ∧
    ∀ (rule : UntrackedRule) (depth : Nat), ∀ f ∈ rule.flagged depth source,
      ∃ i t, f.1 = some i ∧ (tokenize source).tokens[i]? = some t ∧ t.text = rule.verb :=
  ⟨fun _ => accesses_eq h, fun hsymbols _ depth => flagged_eq h hsymbols depth,
    fun _ _ _ hf => verb_of_mem_flagged hf⟩

def denseSource : List Char := "let a: R.Subject;\na.subscribe();".toList

/-- The same tokens with blanks and a comment where they do not matter. -/
def airySource : List Char := "let  a: R.Subject; // b\n a . subscribe( /* c */ );".toList

theorem flagged_denseSource :
    default.flagged Resolver.defaultDepth denseSource = [(some 9, false)] := by
  decide +kernel

theorem flagged_of_symbols_airy :
    (tokenize denseSource).tokens.map Token.piece = (tokenize airySource).tokens.map Token.piece ∧
    default.flagged Resolver.defaultDepth airySource =
      default.flagged Resolver.defaultDepth denseSource ∧
    default.flagged Resolver.defaultDepth denseSource = [(some 9, false)] := by
  have htokens : (tokenize denseSource).tokens.map Token.piece =
      (tokenize airySource).tokens.map Token.piece := by decide +kernel
  have hsymbols : declaredSymbols airySource = declaredSymbols denseSource := by decide +kernel
  exact ⟨htokens, (flagged_of_symbols _ _ htokens).2.1 hsymbols _ _, flagged_denseSource⟩

/-- The same tokens with a blank in the name of the type. -/
def splitSource : List Char := "let a: R .Subject;\na.subscribe();".toList

/-- A blank in the name of a type hides the symbol that it names. -/
theorem flagged_depends_on_layout : ¬ ∀ (source source' : List Char) (rule : UntrackedRule)
    (depth : Nat),
    (tokenize source).tokens.map Token.piece = (tokenize source').tokens.map Token.piece →
      rule.flagged depth source' = rule.flagged depth source := by
  intro h
  have htokens : (tokenize denseSource).tokens.map Token.piece =
      (tokenize splitSource).tokens.map Token.piece := by decide +kernel
  have hsplit : default.flagged Resolver.defaultDepth splitSource = [] := by decide +kernel
  have hsame := h _ _ default Resolver.defaultDepth htokens
  rw [hsplit, flagged_denseSource] at hsame
  cases hsame

end UntrackedRule

end Subscriptions
