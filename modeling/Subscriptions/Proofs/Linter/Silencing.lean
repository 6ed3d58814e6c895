import Subscriptions.Proofs.Linter.Totals
import Subscriptions.Proofs.Suppression.Queries

namespace Subscriptions

section
variable {α : Type} {le : α → α → Bool} {a : α} {l₁ l₂ : List α}

/-- In a sorted list `a` stands behind the elements that come before it, and in front of the rest.
-/
theorem takeWhile_sorted (hbefore : ∀ b ∈ l₁, (!le a b) = true)
    (hsorted : (l₁ ++ a :: l₂).Pairwise fun b c => le b c = true) :
    (l₁ ++ l₂).takeWhile (!le a ·) = l₁ := by
  have hpast : ∀ b ∈ l₂, le a b = true :=
    (List.pairwise_cons.mp (List.pairwise_append.mp hsorted).2.1).1
  apply Scanner.takeWhile_append_stop
  · exact List.all_eq_true.mpr hbefore
  · intro b hb
    simp [hpast b (List.mem_of_mem_head? hb)]

/-- Sorting before or after some elements are dropped is the same, as equal elements keep their
order. -/
theorem filter_mergeSort (htrans : ∀ a b c, le a b = true → le b c = true → le a c = true)
    (htotal : ∀ a b, (le a b || le b a) = true) (p : α → Bool) (l : List α) :
    (l.mergeSort le).filter p = (l.filter p).mergeSort le := by
  induction l with
  | nil => simp
  | cons a l ih =>
    obtain ⟨l₁, l₂, hall, hrest, hbefore⟩ := List.mergeSort_cons htrans htotal a l
    have hsorted := List.pairwise_mergeSort htrans htotal (a :: l)
    rw [hall] at hsorted ⊢
    rw [hrest, List.filter_append] at ih
    rw [List.filter_append]
    by_cases ha : p a = true
    · obtain ⟨m₁, m₂, hall', hrest', hbefore'⟩ := List.mergeSort_cons htrans htotal a (l.filter p)
      have hsorted' := List.pairwise_mergeSort htrans htotal (a :: l.filter p)
      rw [hall'] at hsorted'
      have hkept := hsorted.filter p
      rw [List.filter_append, List.filter_cons_of_pos ha] at hkept
      -- Both lists are cut in front of the first element that does not come before `a`.
      have hcut : l₁.filter p ++ l₂.filter p = m₁ ++ m₂ := ih.trans hrest'
      have hfront : l₁.filter p = m₁ := by
        have hfront := takeWhile_sorted (fun b hb => hbefore b (List.mem_of_mem_filter hb)) hkept
        rw [hcut, takeWhile_sorted hbefore' hsorted'] at hfront
        exact hfront.symm
      have hback : l₂.filter p = m₂ := by
        rw [hfront] at hcut
        exact List.append_cancel_left hcut
      rw [List.filter_cons_of_pos ha, List.filter_cons_of_pos ha, hfront, hback, hall']
    · rw [List.filter_cons_of_neg ha, List.filter_cons_of_neg ha, ih]

end

namespace Suppressions

/-- One of the disables is for the rule of the problem, by its own id or with all rules, and for the
line of the problem or for the file. -/
def Silences (written : List Disable) (d : Diagnostic) : Prop :=
  ∃ e ∈ written, (e.ruleId = d.ruleId ∨ e.ruleId = allRules) ∧
    (e.line = d.location.line ∨ e.line = fileLevel)

instance (written : List Disable) : DecidablePred (Silences written) := fun d =>
  inferInstanceAs (Decidable (∃ e ∈ written, (e.ruleId = d.ruleId ∨ e.ruleId = allRules) ∧
    (e.line = d.location.line ∨ e.line = fileLevel)))

theorem silences_iff {marker : String} {source : List Char} {d : Diagnostic} :
    Silences (written marker source) d ↔
      (ofSource marker source).disables d.ruleId d.location.line = true :=
  (holds_ofSource marker source).disables_iff.symm

end Suppressions

namespace Report

/-- The report of one file without the problems that are silenced, and with all counts taken from
the problems that are left. -/
def without (written : List Disable) (r : Report) : Report :=
  let kept := r.diagnostics.filter (¬ Suppressions.Silences written ·)
  { r with
    diagnostics := kept
    filesWithErrors := if ∃ d ∈ kept, d.severity = .error then 1 else 0
    filesWithWarnings := if ∃ d ∈ kept, d.severity = .warning then 1 else 0
    errorCount := kept.countP (·.severity == .error)
    warningCount := kept.countP (·.severity == .warning)
    infoCount := kept.countP (·.severity == .info)
    suppressedCount := r.diagnostics.countP (Suppressions.Silences written ·) }

theorem duration_foldl (ds : List Diagnostic) (r : Report) :
    (ds.foldl addDiagnostic r).duration = r.duration := by
  induction ds generalizing r with
  | nil => rfl
  | cons d ds ih =>
    have hadded : (r.addDiagnostic d).duration = r.duration := by
      unfold addDiagnostic
      split <;> rfl
    rw [List.foldl_cons, ih, hadded]

end Report

namespace Linter

open Report

variable {linter : Linter} {compiler : PatternCompiler} {globs : GlobReader} {path : String}
  {source : List Char} {ds : List Diagnostic} {timings : List RuleTiming}

def withMarker (linter : Linter) (marker : String) : Linter :=
  { linter with config := { linter.config with marker := marker } }

/-- Another marker that is taken changes nothing else in a linter. -/
theorem ofConfig_marker {config : Config} {marker : String}
    (h : ofConfig config compiler globs = .ok linter)
    (hmarker : compiler.takesMarker marker = true) :
    ofConfig { config with marker := marker } compiler globs = .ok (linter.withMarker marker) := by
  simp only [ofConfig, hmarker, if_true] at h ⊢
  cases hrule : config.rules.untracked.rule compiler with
  | error e =>
    rw [hrule] at h
    cases h
  | ok rule =>
    rw [hrule] at h
    simp only [bind, Except.bind] at h ⊢
    split at h
    · split at h <;> cases h
      rfl
    · cases h

/-- The report of a file, with the counts of its problems. -/
theorem reportOf_eq (shown : List Diagnostic) (suppressed : Nat) (timings : List RuleTiming) :
    reportOf shown suppressed timings = {
      diagnostics := shown.mergeSort inOrder
      filesProcessed := 1
      filesWithErrors := if ∃ d ∈ shown.mergeSort inOrder, d.severity = .error then 1 else 0
      filesWithWarnings := if ∃ d ∈ shown.mergeSort inOrder, d.severity = .warning then 1 else 0
      errorCount := (shown.mergeSort inOrder).countP (·.severity == .error)
      warningCount := (shown.mergeSort inOrder).countP (·.severity == .warning)
      infoCount := (shown.mergeSort inOrder).countP (·.severity == .info)
      suppressedCount := suppressed
      timings := timings } := by
  have hcounted := counted_reportOf shown suppressed timings
  have hduration := duration_foldl shown {}
  have hfiles {severity : Severity} {some : Bool}
      (hsome : some = (reportOf shown suppressed timings).has severity) :
      (if some then 1 else 0) =
        if ∃ d ∈ shown.mergeSort inOrder, d.severity = severity then 1 else 0 := by
    rw [hsome]
    exact if_congr has_iff rfl rfl
  simp only [reportOf, Report.mk.injEq, true_and, and_true]
  exact ⟨hfiles hcounted.hasErrors_eq, hfiles hcounted.hasWarnings_eq, hcounted.errors,
    hcounted.warnings, hcounted.infos, hduration⟩

/-- The report of the problems that are left is what is left of the report. -/
theorem reportOf_filter (written : List Disable) (ds : List Diagnostic)
    (timings : List RuleTiming) :
    reportOf (ds.filter (¬ Suppressions.Silences written ·))
      (ds.filter (Suppressions.Silences written ·)).length timings =
        (reportOf ds 0 timings).without written := by
  have hsorted := filter_mergeSort inOrder_trans inOrder_total
    (¬ Suppressions.Silences written ·) ds
  have hcount : (ds.filter (Suppressions.Silences written ·)).length =
      (ds.mergeSort inOrder).countP (Suppressions.Silences written ·) := by
    rw [(List.mergeSort_perm ds inOrder).countP_eq, List.countP_eq_length_filter]
  simp only [reportOf_eq, without, hsorted, hcount]

theorem lintSource_withMarker {marker : String}
    (hnone : Suppressions.written marker source = []) :
    linter.lintSource path source = ((linter.withMarker marker).lintSource path source).map
      (Report.without (Suppressions.written linter.config.marker source)) := by
  have hquiet : (linter.withMarker marker).silences source = fun _ => false := by
    funext d
    have hmarker : (linter.withMarker marker).config.marker = marker := rfl
    rw [silences, hmarker, Suppressions.ofSource, hnone]
    rfl
  have hsilences : linter.silences source =
      fun d => decide
        (Suppressions.Silences (Suppressions.written linter.config.marker source) d) := by
    funext d
    simp [silences, Suppressions.silences_iff]
  -- Neither what is found nor its diagnostics depend on the marker.
  have hcandidates : (linter.withMarker marker).candidates? path source =
      linter.candidates? path source := rfl
  have htimings : (linter.withMarker marker).sourceTimings path source =
      linter.sourceTimings path source := rfl
  rw [lintSource_eq, lintSource_eq, hcandidates, htimings]
  cases linter.candidates? path source with
  | none => rfl
  | some ds =>
    have hfilter := reportOf_filter (Suppressions.written linter.config.marker source) ds
      (linter.sourceTimings path source)
    simpa [hquiet, hsilences] using hfilter

/-- Comments in a source do nothing but filter. Take another marker that can be compiled, of which
the source has no comment: the linter of the configuration with this marker has the same problems in
the same order, and with them those on whose lines, or for the whole file, a comment of the source
disables their rule or all rules. What is suppressed is the number of these, all counts are those of
what is left, and nothing else changes. Both have a report unless the lines of the source are near
the limit. -/
theorem comments_only_filter (compiler : PatternCompiler) (globs : GlobReader) (config : Config)
    (base : Linter) (hbase : ofConfig config compiler globs = .ok base) (marker : String)
    (hmarker : compiler.takesMarker marker = true) (source : List Char)
    (hnone : Suppressions.written marker source = []) :
    ∃ other, ofConfig { config with marker := marker } compiler globs = .ok other ∧
      ∀ (resolver : List Char → Resolver) (contextLines : Nat) (path : String),
        { base with resolver, contextLines }.lintSource path source =
            ({ other with resolver, contextLines }.lintSource path source).map
              (Report.without (Suppressions.written config.marker source)) ∧
        (contextLines + (Text.lines source).length + 1 < countLimit →
          ({ other with resolver, contextLines }.lintSource path source).isSome = true) := by
  refine ⟨base.withMarker marker, ofConfig_marker hbase hmarker, fun resolver contextLines path => ?_⟩
  constructor
  · rw [← (settled_of_ofConfig hbase).1]
    exact @lintSource_withMarker { base with resolver, contextLines } path source marker hnone
  · intro hroom
    apply isSome_lintSource_of_room
    dsimp only
    omega

def commentedSource : List Char :=
  "let a: Subject;\na.subscribe();\na.subscribe(; // off-line all\n".toList

/-- What a linter reports of these calls, with one line around each problem. -/
def commentedReport (base : Linter) : Option Report :=
  lintSource { base with resolver := fun _ => Resolver.declared 2, contextLines := 1 } "a.ts"
    commentedSource

/-- Of four problems one is left. -/
theorem comments_only_filter_off : ∃ base other r,
    ofConfig { marker := "off" } = .ok base ∧ ofConfig { marker := "on" } = .ok other ∧
    Suppressions.written "on" commentedSource = [] ∧
    commentedReport other = some r ∧
    commentedReport base = some (r.without (Suppressions.written "off" commentedSource)) ∧
    r.warningCount = 4 ∧
    (r.without (Suppressions.written "off" commentedSource)).warningCount = 1 ∧
    (r.without (Suppressions.written "off" commentedSource)).suppressedCount = 3 := by
  have hnone : Suppressions.written "on" commentedSource = [] := by decide
  have hfound : (ofConfig { marker := "on" }).toOption.bind (fun other =>
      (commentedReport other).map (·.warningCount)) = some 4 := by
    decide +kernel
  have hleft : (ofConfig { marker := "off" }).toOption.bind (fun base =>
      (commentedReport base).map fun q => (q.warningCount, q.suppressedCount)) = some (1, 3) := by
    decide +kernel
  obtain ⟨base, hbase, hcounts⟩ := exists_of_toOption_bind hleft
  obtain ⟨other, hother, hfilter⟩ :=
    comments_only_filter .standard FileFilter.ofTexts { marker := "off" } base hbase "on" rfl
      commentedSource hnone
  have hreport : commentedReport base = (commentedReport other).map
      (Report.without (Suppressions.written "off" commentedSource)) :=
    (hfilter (fun _ => Resolver.declared 2) 1 "a.ts").1
  rw [show ofConfig { marker := "on" } = .ok other from hother] at hfound
  obtain ⟨r, hr, hcount⟩ := Option.map_eq_some_iff.mp hfound
  rw [hr] at hreport
  simp only [hreport, Option.map_some, Option.some.injEq, Prod.mk.injEq] at hcounts
  exact ⟨base, other, r, hbase, hother, hnone, hr, hreport, hcount, hcounts⟩

end Linter

end Subscriptions
