import Subscriptions.Proofs.Linter.Reporting
import Subscriptions.Proofs.Rule.Naming
import Subscriptions.Proofs.Source.Places
import Subscriptions.Proofs.Syntax.Closing

namespace Subscriptions

/-- The line that the diagnostic shows is the one it is on, and has the text where the diagnostic is
and as long as it is. -/
def Diagnostic.Marks (source : List Char) (text : String) (d : Diagnostic) : Prop :=
  ∃ n k line, d.location.line = n + 1 ∧ d.location.column = k + 1 ∧
    (Text.lines source)[n]? = some line ∧ d.sourceLine = some (String.ofList line) ∧
    d.location.length = text.length ∧ (line.drop k).take d.location.length = text.toList

namespace Linter

variable {linter : Linter} {path : String} {source : List Char} {f : Finding}
  {d : Diagnostic} {report : Report}

/-- All that is reported has been found. -/
theorem exists_shows (h : linter.lintSource path source = some report)
    (hd : d ∈ report.diagnostics) : ∃ f ∈ linter.findings path source,
      Shows path source ((Text.lines source).map String.ofList) f d := by
  rw [lintSource_eq] at h
  obtain ⟨ds, hds, rfl⟩ := Option.map_eq_some_iff.mp h
  exact exists_shows_of_mem hds (List.mem_of_mem_filter ((perm_reportOf _ _ _).subset hd))

/-- What the rule has flagged is a word of the source, and the word is the verb. -/
theorem word_of_mem_findings (hf : f ∈ linter.findings path source)
    (hid : f.ruleId = UntrackedRule.ruleId) :
    ∃ t ∈ (tokenize source).tokens, t.isWord = true ∧ t.text = linter.rule.verb ∧
      f.span = t.span := by
  rcases origin_of_mem_findings hf with ⟨fault, -, rfl⟩ | ⟨c, hc, v, hviolation, rfl⟩
  · have hne : parseErrorId ≠ UntrackedRule.ruleId := by decide
    exact absurd hid hne
  · exact UntrackedRule.spoken_of_violation? hc hviolation

/-- A diagnostic of a word of the source marks it. -/
theorem marks_of_shows {t : Token}
    (h : Shows path source ((Text.lines source).map String.ofList) f d)
    (ht : t ∈ (tokenize source).tokens) (hword : t.isWord = true) (hspan : f.span = t.span) :
    d.Marks source t.text := by
  obtain ⟨part, htext, hcovers⟩ := (tiled_tokenize source).covers_of_mem ht
  have hkind : t.kind = .word := eq_of_beq hword
  have hsolid := isBlank_of_mem_token ht (by rw [hkind]; rfl)
  have hne : t.text.toList ≠ [] := mt String.toList_eq_nil_iff.mp
    ((tiled_tokenize source).text_ne_empty ht (Grammar.isEnd_of_isWord hword))
  have hpart : t.text.toList = part := by rw [htext, String.toList_ofList]
  rw [hpart] at hne hsolid
  obtain ⟨n, k, line, hplace, hline, hmarked⟩ := exists_line hcovers hne hsolid
  have hlength : d.location.length = part.length := by
    have hlength := h.length
    rw [hspan, spanLength?, hcovers.slice?] at hlength
    exact (Option.some.inj hlength).symm
  have hlocation := h.place
  rw [hspan, hplace, Prod.mk.injEq] at hlocation
  refine ⟨n, k, line, hlocation.1, hlocation.2, hline, ?_, ?_, ?_⟩
  · rw [h.sourceLine, hlocation.1, if_neg (Nat.succ_ne_zero n), Nat.add_sub_cancel,
      List.getElem?_map, hline]
    rfl
  · rw [hlength, ← hpart, String.length_toList]
  · rw [hlength, hmarked, hpart]

/-- Whatever the source, the configuration, the readers of its patterns and globs and the resolver
are, each diagnostic of the rule shows the line it is on, and at its column of that line stands the
configured verb. -/
theorem diagnostics_mark_verb (compiler : PatternCompiler) (globs : GlobReader) (config : Config)
    (base : Linter) (hbase : ofConfig config compiler globs = .ok base)
    (resolver : List Char → Resolver)
    (contextLines : Nat) (path : String) (source : List Char)
    (report : Report) (h : { base with resolver, contextLines }.lintSource path source = some report) :
    ∀ d ∈ report.diagnostics, d.ruleId = UntrackedRule.ruleId →
      d.Marks source config.rules.untracked.verb := by
  intro d hd hid
  obtain ⟨f, hf, hshows⟩ := exists_shows h hd
  obtain ⟨t, ht, hword, hverb, hspan⟩ := word_of_mem_findings hf (hshows.ruleId ▸ hid)
  have hmarks := marks_of_shows hshows ht hword hspan
  rw [hverb] at hmarks
  rw [← (settled_of_ofConfig hbase).2]
  exact hmarks

/-- A call behind letters of two bytes, a carriage return and lines inside of a comment and of a
template. -/
def markedSource : List Char :=
  ("declare const β: Subject;\r\n/* ü\n */ const s = \x60ö\n\x60; β.subscribe();\r\n").toList

/-- The call is found on the fourth line, and its verb is marked there. -/
theorem diagnostics_mark_verb_fourth : ∃ base report, ofConfig {} = .ok base ∧
    base.lintSource "a.ts" markedSource = some report ∧ ∃ d ∈ report.diagnostics,
      d.ruleId = UntrackedRule.ruleId ∧ d.location = ⟨"a.ts", 4, 6, 9⟩ ∧
        d.Marks markedSource "subscribe" := by
  have hfound : ((ofConfig {}).toOption.bind fun base =>
      (base.lintSource "a.ts" markedSource).map fun report =>
        report.diagnostics.map fun d => (d.ruleId, d.location)) =
      some [(UntrackedRule.ruleId, ⟨"a.ts", 4, 6, 9⟩)] := by
    decide +kernel
  obtain ⟨base, hbase, hreport⟩ := Option.bind_eq_some_iff.mp hfound
  obtain ⟨report, hreport, hplaces⟩ := Option.map_eq_some_iff.mp hreport
  have hofConfig : ofConfig {} = .ok base := by
    cases h : ofConfig {} <;> rw [h] at hbase <;> cases hbase
    rfl
  have hmem : (UntrackedRule.ruleId, Location.mk "a.ts" 4 6 9) ∈
      report.diagnostics.map fun d => (d.ruleId, d.location) := by
    rw [hplaces]
    exact List.mem_cons_self
  obtain ⟨d, hd, hplace⟩ := List.mem_map.mp hmem
  obtain ⟨hid, hlocation⟩ := Prod.mk.inj hplace
  exact ⟨base, report, hofConfig, hreport, d, hd, hid, hlocation, diagnostics_mark_verb .standard
    FileFilter.ofTexts {} base hofConfig base.resolver base.contextLines "a.ts" markedSource report
    hreport d hd hid⟩

end Linter

end Subscriptions
