import Subscriptions.Proofs.Config.Tables

namespace Subscriptions

theorem unlessDefault_again {α : Type} [DecidableEq α] (d a b : α) :
    unlessDefault d (unlessDefault d a b) b = unlessDefault d a b := by
  by_cases hb : b = d <;> simp [unlessDefault, hb]

theorem EngineSettings.merge_assoc (a b c : EngineSettings) :
    (a.merge b).merge c = a.merge (b.merge c) := by
  simp only [merge, unlessDefault_assoc]

theorem OutputSettings.merge_assoc (a b c : OutputSettings) :
    (a.merge b).merge c = a.merge (b.merge c) := by
  simp only [merge, unlessDefault_assoc, Bool.or_assoc]

theorem FileSettings.merge_assoc (a b c : FileSettings) :
    (a.merge b).merge c = a.merge (b.merge c) := by
  simp only [merge, addMissing_assoc]

theorem UntrackedSettings.merge_assoc (a b c : UntrackedSettings) :
    (a.merge b).merge c = a.merge (b.merge c) := by
  simp only [merge, unlessDefault_assoc, Bool.and_assoc, Option.or_assoc]

theorem EngineSettings.merge_again (a b : EngineSettings) : (a.merge b).merge b = a.merge b := by
  simp only [merge, unlessDefault_again]

theorem OutputSettings.merge_again (a b : OutputSettings) : (a.merge b).merge b = a.merge b := by
  simp only [merge, unlessDefault_again, Bool.or_assoc, Bool.or_self]

theorem FileSettings.merge_again (a b : FileSettings) : (a.merge b).merge b = a.merge b := by
  simp only [merge, addMissing_again]

theorem UntrackedSettings.merge_again (a b : UntrackedSettings) :
    (a.merge b).merge b = a.merge b := by
  simp only [merge, unlessDefault_again, Bool.and_assoc, Bool.and_self, ← Option.or_assoc,
    Option.or_self]

/-- No name stands twice in a table of rules. The tables that are decoded or loaded are such, and
those that are merged from such tables. -/
structure RuleSettings.Distinct (rules : RuleSettings) : Prop where
  severity : (names rules.severity).Nodup
  perFile : (names rules.perFile).Nodup

namespace RuleSettings

variable {a b c : RuleSettings}

theorem Distinct.merge (ha : a.Distinct) : (a.merge b).Distinct where
  severity := by
    rw [RuleSettings.merge, overlay_eq_combine, names_combine]
    exact nodup_addMissing ha.severity
  perFile := by
    rw [RuleSettings.merge, extend_eq_combine, names_combine]
    exact nodup_addMissing ha.perFile

theorem merge_assoc (ha : a.Distinct) (hb : b.Distinct) (hc : c.Distinct) :
    (a.merge b).merge c = a.merge (b.merge c) := by
  simp only [merge, List.append_assoc, unlessDefault_assoc, UntrackedSettings.merge_assoc,
    overlay_assoc ha.severity hb.severity hc.severity,
    extend_assoc ha.perFile hb.perFile hc.perFile]

end RuleSettings

namespace Config

variable {a b c : Config} {ruleId path : String}

/-- Every section of a configuration is merged on its own. -/
theorem merge_assoc (ha : a.rules.Distinct) (hb : b.rules.Distinct) (hc : c.rules.Distinct) :
    (a.merge b).merge c = a.merge (b.merge c) := by
  simp only [merge, EngineSettings.merge_assoc, OutputSettings.merge_assoc,
    FileSettings.merge_assoc, RuleSettings.merge_assoc ha hb hc, unlessDefault_assoc]

theorem isRuleEnabled_merge_again :
    ((a.merge b).merge b).isRuleEnabled ruleId = (a.merge b).isRuleEnabled ruleId := by
  simp only [isRuleEnabled, merge, RuleSettings.merge, UntrackedSettings.merge_again,
    unlessDefault_again, List.contains_append, Bool.or_assoc, Bool.or_self]

theorem severityOverride?_merge_again (ha : a.rules.Distinct) (hb : b.rules.Distinct) :
    ((a.merge b).merge b).severityOverride? ruleId = (a.merge b).severityOverride? ruleId := by
  simp only [severityOverride?, merge, RuleSettings.merge, UntrackedSettings.merge_again,
    overlay_again ha.severity hb.severity]

theorem ignores_iff (ha : a.rules.Distinct) : a.ignores ruleId path = true ↔
    ∃ glob rules, a.rules.perFile.lookup glob = some rules ∧
      entryIgnores ruleId path (glob, rules) = true := by
  simp only [ignores, List.any_eq_true, Prod.exists, lookup_eq_some_iff ha.perFile]

/-- Whether an entry ignores a rule does not depend on how often it lists the same rules. -/
theorem entryIgnores_append_again (glob : String) (rs ss : List String) :
    entryIgnores ruleId path (glob, rs ++ ss ++ ss) =
      entryIgnores ruleId path (glob, rs ++ ss) := by
  simp only [entryIgnores, List.any_append, Bool.or_assoc, Bool.or_self]

theorem ignores_merge_again (ha : a.rules.Distinct) (hb : b.rules.Distinct) :
    ((a.merge b).merge b).ignores ruleId path = (a.merge b).ignores ruleId path := by
  have hab : (a.merge b).rules.Distinct := ha.merge
  have habb : ((a.merge b).merge b).rules.Distinct := hab.merge
  rw [Bool.eq_iff_iff, ignores_iff hab, ignores_iff habb]
  apply exists_congr
  intro glob
  -- an entry that is not merged again is the same, another one has its rules twice
  simp only [merge, RuleSettings.merge, extend_eq_combine, lookup_combine hb.perFile]
  cases b.rules.perFile.lookup glob with
  | none => rfl
  | some rules =>
    simp only [Option.some.injEq, exists_eq_left', Option.getD_some]
    rw [entryIgnores_append_again]

/-- Two configurations have the same settings, lists of rules aside, and say the same of each rule
and each file. -/
structure Alike (c d : Config) : Prop where
  engine : c.engine = d.engine
  output : c.output = d.output
  files : c.files = d.files
  untracked : c.rules.untracked = d.rules.untracked
  marker : c.marker = d.marker
  enabled : ∀ ruleId, c.isRuleEnabled ruleId = d.isRuleEnabled ruleId
  severity : ∀ ruleId, c.severityOverride? ruleId = d.severityOverride? ruleId
  ignores : ∀ ruleId path, c.ignores ruleId path = d.ignores ruleId path

/-- Configurations whose tables name nothing twice can be merged in groups, and taking on the same
one again changes no setting and no answer. -/
theorem merge_regroups_and_repeats (a b c : Config) (ha : a.rules.Distinct) (hb : b.rules.Distinct)
    (hc : c.rules.Distinct) :
    (a.merge b).merge c = a.merge (b.merge c) ∧ Alike ((a.merge b).merge b) (a.merge b) := by
  refine ⟨merge_assoc ha hb hc, ?_⟩
  exact {
    engine := EngineSettings.merge_again a.engine b.engine
    output := OutputSettings.merge_again a.output b.output
    files := FileSettings.merge_again a.files b.files
    untracked := UntrackedSettings.merge_again a.rules.untracked b.rules.untracked
    marker := unlessDefault_again _ a.marker b.marker
    enabled := fun _ => isRuleEnabled_merge_again
    severity := fun _ => severityOverride?_merge_again ha hb
    ignores := fun _ _ => ignores_merge_again ha hb }

/-- Globs of which one stands twice, and rules for two globs. -/
def lowest : Config where
  files := { included := ["src/*.ts", "src/*.ts"] }
  rules := { perFile := [("*.spec.ts", ["all"]), ("*.gen.ts", ["parse-error"])] }

def middle : Config where
  engine := { jobs := 2 }
  files := { included := ["lib/*.ts", "src/*.ts"] }
  rules := {
    severity := [("no-subscribe", .error)]
    perFile := [("*.gen.ts", ["no-subscribe"])] }

def highest : Config where
  engine := { parallel := false }
  rules := {
    disabled := ["parse-error"]
    severity := [("parse-error", .info), ("no-subscribe", .warning)]
    perFile := [("*.gen.ts", ["all"]), ("*.d.ts", ["no-subscribe"])] }

theorem merge_regroups_and_repeats_layers :
    lowest.rules.Distinct ∧ middle.rules.Distinct ∧ highest.rules.Distinct ∧
    (lowest.merge middle).merge highest = lowest.merge (middle.merge highest) ∧
    Alike ((lowest.merge middle).merge middle) (lowest.merge middle) ∧
    ((lowest.merge middle).merge middle).rules.perFile ≠ (lowest.merge middle).rules.perFile := by
  have hlowest : lowest.rules.Distinct := ⟨by decide, by decide⟩
  have hmiddle : middle.rules.Distinct := ⟨by decide, by decide⟩
  have hhighest : highest.rules.Distinct := ⟨by decide, by decide⟩
  obtain ⟨hregroups, hrepeats⟩ :=
    merge_regroups_and_repeats lowest middle highest hlowest hmiddle hhighest
  exact ⟨hlowest, hmiddle, hhighest, hregroups, hrepeats, by decide⟩

end Config

end Subscriptions
