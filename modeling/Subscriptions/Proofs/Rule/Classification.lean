import Subscriptions.Grammar.Program
import Subscriptions.Rule.Untracked

namespace Subscriptions.UntrackedRule

variable {rule : UntrackedRule} {c : Cursor}

/-- Some construction of a configured class is around the place. -/
def InConstruction (rule : UntrackedRule) (c : Cursor) : Prop :=
  ∃ site ∈ c.ancestors, rule.isConstruction site = true

/-- The nearest `new` around the place makes another class, within a configured construction. -/
def Screened (rule : UntrackedRule) (c : Cursor) : Prop :=
  ∃ below screen above, c.ancestors = below ++ screen :: above ∧
    (∀ a ∈ below, a.kind ≠ .construction) ∧
    screen.kind = .construction ∧ rule.isConstruction screen = false ∧
    ∃ site ∈ above, rule.isConstruction site = true

theorem kind_of_isConstruction (h : rule.isConstruction c = true) : c.kind = .construction := by
  rw [isConstruction, Bool.and_eq_true] at h
  exact eq_of_beq h.1

/-- A subscription is an access that is named by the verb. -/
theorem named_of_isSubscription {resolve : Resolver} (h : rule.isSubscription resolve c = true) :
    c.kind = .propertyAccess ∧ ∃ name, c.focus.name = some name ∧ name.text = rule.verb := by
  simp only [isSubscription, Node.isNamed, Node.nameText, Bool.and_eq_true, beq_iff_eq] at h
  exact ⟨h.1.1, Option.map_eq_some_iff.mp h.1.2⟩

/-- A violation is at an access named by the verb, and covers the name. -/
theorem named_of_violation? {resolve : Resolver} {v : Violation}
    (h : rule.violation? resolve c = some v) : v.place = c ∧ c.kind = .propertyAccess ∧
      ∃ name, c.focus.name = some name ∧ name.text = rule.verb ∧ v.span = name.span := by
  rw [violation?] at h
  split at h
  · rename_i hmatch
    obtain ⟨hkind, name, hname, htext⟩ := named_of_isSubscription hmatch
    rw [hname] at h
    cases hclass : rule.classify c <;> rw [hclass] at h <;> cases h <;>
      exact ⟨rfl, hkind, name, hname, htext, rfl⟩
  · cases h

/-- The nearest `new`, with what is below and above it. -/
theorem nearest_construction_eq_some_iff {site : Cursor} :
    c.nearest? (·.kind == .construction) = some site ↔
      site.kind = .construction ∧ ∃ below above, c.ancestors = below ++ site :: above ∧
        ∀ a ∈ below, a.kind ≠ .construction := by
  rw [Cursor.nearest?, List.find?_eq_some_iff_append]
  simp

theorem classify_of_nearest {site : Cursor} (hc : rule.returnsOwnTeardown c = false)
    (h : c.nearest? (·.kind == .construction) = some site) :
    rule.classify c = if rule.isConstruction site then .constructionSite else .plain := by
  simp [classify, hc, h]

theorem classify_of_nearest_none (hc : rule.returnsOwnTeardown c = false)
    (h : c.nearest? (·.kind == .construction) = none) : rule.classify c = .plain := by
  simp [classify, hc, h]

/-- An access is at a construction site just in case it is inside of a configured construction,
unless it is screened; then it is taken for a plain one. -/
theorem constructionSite_iff_unless_screened (hc : rule.returnsOwnTeardown c = false) :
    ((rule.classify c = .constructionSite ↔ rule.InConstruction c) ↔ ¬ rule.Screened c) ∧
    (rule.Screened c → rule.classify c = .plain ∧ rule.InConstruction c) ∧
    (rule.classify c = .constructionSite ∨ rule.classify c = .plain) := by
  cases hnearest : c.nearest? (·.kind == .construction) with
  | none =>
    have hclass := classify_of_nearest_none hc hnearest
    have hnone : ∀ a ∈ c.ancestors, a.kind ≠ .construction := by
      simpa [Cursor.nearest?] using hnearest
    have hout : ¬ rule.InConstruction c := by
      rintro ⟨site, hmem, hsite⟩
      exact hnone site hmem (kind_of_isConstruction hsite)
    have hopen : ¬ rule.Screened c := by
      rintro ⟨below, screen, above, heq, -, hkind, -⟩
      exact hnone screen (by simp [heq]) hkind
    simp [hclass, hout, hopen]
  | some site =>
    have hclass := classify_of_nearest hc hnearest
    obtain ⟨hkind, below, above, heq, hbelow⟩ := nearest_construction_eq_some_iff.mp hnearest
    have hscreen (h : rule.Screened c) : rule.isConstruction site = false := by
      obtain ⟨below', screen, above', heq', hbelow', hkind', hother, -⟩ := h
      have hsame := nearest_construction_eq_some_iff.mpr ⟨hkind', below', above', heq', hbelow'⟩
      obtain rfl := Option.some.inj (hsame.symm.trans hnearest)
      exact hother
    by_cases hsite : rule.isConstruction site = true
    · have hin : rule.InConstruction c := ⟨site, by simp [heq], hsite⟩
      have hopen : ¬ rule.Screened c := fun h => by simp [hscreen h] at hsite
      simp [hclass, hsite, hin, hopen]
    · have hother : rule.isConstruction site = false := Bool.eq_false_iff.mpr hsite
      have hin : rule.InConstruction c ↔ rule.Screened c := by
        constructor
        · rintro ⟨outer, hmem, houter⟩
          refine ⟨below, site, above, heq, hbelow, hkind, hother, outer, ?_, houter⟩
          rw [heq, List.mem_append, List.mem_cons] at hmem
          rcases hmem with hmem | rfl | hmem
          · exact absurd (kind_of_isConstruction houter) (hbelow outer hmem)
          · exact absurd houter hsite
          · exact hmem
        · rintro ⟨below', screen, above', heq', -, -, -, outer, hmem, houter⟩
          exact ⟨outer, by simp [heq', hmem], houter⟩
      rw [hin, hclass, if_neg hsite]
      simp

/-- An access in a construction of another class inside of a configured one. -/
def screenedSource : List Char :=
  "new Observable(() => { new Foo(() => { inner.subscribe(x); }); });".toList

/-- Some access of the source is screened by the inner construction. -/
theorem exists_screened : ∃ c ∈ (Parsed.ofSource screenedSource).root.asRoot.preorder,
    c.kind = .propertyAccess ∧ default.returnsOwnTeardown c = false ∧
      default.InConstruction c ∧ default.classify c = .plain := by
  have h : ((Parsed.ofSource screenedSource).root.asRoot.preorder.any fun c =>
      c.kind == .propertyAccess && !default.returnsOwnTeardown c &&
        c.ancestors.any default.isConstruction && default.classify c == .plain) = true := by
    decide +kernel
  simpa [List.any_eq_true, InConstruction, and_assoc] using h

theorem constructionSite_iff_unless_screened_inner :
    ∃ c ∈ (Parsed.ofSource screenedSource).root.asRoot.preorder,
      default.returnsOwnTeardown c = false ∧
      ((default.classify c = .constructionSite ↔ default.InConstruction c) ↔
        ¬ default.Screened c) := by
  obtain ⟨c, hmem, -, hc, -⟩ := exists_screened
  exact ⟨c, hmem, hc, (constructionSite_iff_unless_screened hc).1⟩

/-- Not every access inside of a configured construction is at a construction site. -/
theorem constructionSite_missed : ¬ ∀ (source : List Char) (rule : UntrackedRule),
    ∀ c ∈ (Parsed.ofSource source).root.asRoot.preorder, c.kind = .propertyAccess →
      rule.returnsOwnTeardown c = false →
        (rule.classify c = .constructionSite ↔ rule.InConstruction c) := by
  intro h
  obtain ⟨c, hmem, hkind, hc, hin, hplain⟩ := exists_screened
  have hsite := (h screenedSource default c hmem hkind hc).mpr hin
  rw [hplain] at hsite
  cases hsite

end Subscriptions.UntrackedRule
