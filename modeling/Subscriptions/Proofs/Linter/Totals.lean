import Subscriptions.Proofs.Linter.Reporting
import Subscriptions.Proofs.Report.Merging

namespace Subscriptions.Linter

open Report

variable {linter : Linter} {path : String} {source : List Char} {ds shown : List Diagnostic}
  {files files' : List (String × Except ReadError String)} {parts parts' : List Report}
  {file : String × Except ReadError String} {r s part : Report}

def silenced (linter : Linter) (file : String × Except ReadError String) : List Diagnostic :=
  match file.2 with
  | .ok text =>
    ((linter.candidates? file.1 text.toList).getD []).filter (linter.silences text.toList)
  | .error _ => []

/-- One place is not behind the other. -/
def NotBehind (p q : Location) : Prop := p.line < q.line ∨ p.line = q.line ∧ p.column ≤ q.column

/-- The report of one file: it has all problems of the file in order, but for those silenced. -/
structure Single (linter : Linter) (file : String × Except ReadError String) (part : Report) :
    Prop where
  lint : linter.lintFile file.1 file.2 = some part
  inFile : ∀ d ∈ part.diagnostics, d.location.file = file.1
  ordered : part.diagnostics.Pairwise fun d e => NotBehind d.location e.location
  whole : ∀ text, file.2 = .ok text → ∃ ds, linter.candidates? file.1 text.toList = some ds ∧
    (part.diagnostics ++ linter.silenced file).Perm ds

/-- What the report of files has to do with the reports of each of them. -/
structure Totals (linter : Linter) (files : List (String × Except ReadError String))
    (parts : List Report) (r : Report) : Prop where
  singles : List.Forall₂ linter.Single files parts
  diagnostics : r.diagnostics = parts.flatMap (·.diagnostics)
  counted : r.Counted
  processed : r.filesProcessed = files.length
  withErrors : r.filesWithErrors = parts.countP (Report.has .error)
  withWarnings : r.filesWithWarnings = parts.countP (Report.has .warning)
  suppressed : r.suppressedCount = (files.flatMap linter.silenced).length
  timed : (timedIds r.timings).Nodup
  matched : timedMatches r.timings UntrackedRule.ruleId =
    r.diagnostics.countP (·.ruleId == UntrackedRule.ruleId) +
      (files.flatMap linter.silenced).countP (·.ruleId == UntrackedRule.ruleId)

theorem totals_empty : linter.Totals [] [] {} :=
  ⟨.nil, rfl, counted_empty, rfl, rfl, rfl, rfl, List.nodup_nil, rfl⟩

/-- What is merged is the report of all files of both. -/
theorem Totals.merge (h : linter.Totals files parts r) (h' : linter.Totals files' parts' s) :
    linter.Totals (files ++ files') (parts ++ parts') (r.merge s) where
  singles := List.rel_append h.singles h'.singles
  diagnostics := by
    rw [List.flatMap_append, ← h.diagnostics, ← h'.diagnostics]
    rfl
  counted := h.counted.merge h'.counted
  processed := by
    rw [List.length_append, ← h.processed, ← h'.processed]
    rfl
  withErrors := by
    rw [List.countP_append, ← h.withErrors, ← h'.withErrors]
    rfl
  withWarnings := by
    rw [List.countP_append, ← h.withWarnings, ← h'.withWarnings]
    rfl
  suppressed := by
    rw [List.flatMap_append, List.length_append, ← h.suppressed, ← h'.suppressed]
    rfl
  timed := nodup_foldl_addTiming h.timed
  matched := by
    simp only [Report.merge, List.flatMap_append, List.countP_append]
    rw [timedMatches_foldl h'.timed, h.matched, h'.matched]
    omega

theorem inOrder_iff {a b : Diagnostic} :
    inOrder a b = true ↔ NotBehind a.location b.location := by
  simp [inOrder, NotBehind]

theorem inOrder_trans (a b c : Diagnostic) (hab : inOrder a b = true) (hbc : inOrder b c = true) :
    inOrder a c = true := by
  rw [inOrder_iff, NotBehind] at hab hbc ⊢
  omega

theorem inOrder_total (a b : Diagnostic) : (inOrder a b || inOrder b a) = true := by
  rw [Bool.or_eq_true, inOrder_iff, inOrder_iff, NotBehind, NotBehind]
  omega

theorem pairwise_reportOf (shown : List Diagnostic) (suppressed : Nat) (timings : List RuleTiming) :
    (reportOf shown suppressed timings).diagnostics.Pairwise fun d e =>
      NotBehind d.location e.location :=
  (List.pairwise_mergeSort inOrder_trans inOrder_total shown).imp inOrder_iff.mp

theorem counted_reportOf (shown : List Diagnostic) (suppressed : Nat)
    (timings : List RuleTiming) : (reportOf shown suppressed timings).Counted := by
  obtain ⟨hshown, hcounted⟩ := foldl_addDiagnostic shown counted_empty
  have hcount (severity : Severity) :
      (shown.foldl addDiagnostic {}).diagnostics.countP (·.severity == severity) =
        (reportOf shown suppressed timings).diagnostics.countP (·.severity == severity) := by
    rw [hshown]
    exact ((perm_reportOf shown suppressed timings).countP_eq _).symm
  exact ⟨hcounted.errors.trans (hcount _), hcounted.warnings.trans (hcount _),
    hcounted.infos.trans (hcount _)⟩

/-- The report of one file tallies if what is told of the rule does. -/
theorem totals_reportOf {timings : List RuleTiming}
    (hlint : linter.lintFile file.1 file.2 =
      some (reportOf shown (linter.silenced file).length timings))
    (hfile : ∀ d ∈ shown, d.location.file = file.1)
    (hwhole : ∀ text, file.2 = .ok text → ∃ ds, linter.candidates? file.1 text.toList = some ds ∧
      (shown ++ linter.silenced file).Perm ds)
    (htimed : (timedIds timings).Nodup)
    (hmatched : timedMatches timings UntrackedRule.ruleId =
      (shown ++ linter.silenced file).countP (·.ruleId == UntrackedRule.ruleId)) :
    linter.Totals [file] [reportOf shown (linter.silenced file).length timings]
      (reportOf shown (linter.silenced file).length timings) := by
  have hcounted := counted_reportOf shown (linter.silenced file).length timings
  have hperm := perm_reportOf shown (linter.silenced file).length timings
  have hsingle : linter.Single file (reportOf shown (linter.silenced file).length timings) := by
    refine ⟨hlint, fun d hd => hfile d (hperm.subset hd), pairwise_reportOf _ _ _,
      fun text htext => ?_⟩
    obtain ⟨ds, hds, hshown⟩ := hwhole text htext
    exact ⟨ds, hds, (hperm.append_right _).trans hshown⟩
  refine ⟨.cons hsingle .nil, (List.flatMap_singleton _ _).symm, hcounted, rfl, ?_, ?_, ?_, htimed,
    ?_⟩
  · rw [List.countP_singleton, ← hcounted.hasErrors_eq]
    rfl
  · rw [List.countP_singleton, ← hcounted.hasWarnings_eq]
    rfl
  · rw [List.flatMap_singleton]
    rfl
  · rw [List.flatMap_singleton, ← List.countP_append, (hperm.append_right _).countP_eq]
    exact hmatched

/-- The table of timings counts the matches among all that is found. -/
theorem countP_findings (linter : Linter) (path : String) (source : List Char) :
    (linter.findings path source).countP (·.ruleId == UntrackedRule.ruleId) =
      timedMatches (linter.sourceTimings path source) UntrackedRule.ruleId := by
  have hfaults : (linter.faultFindings path (Parsed.ofSource source)).countP
      (·.ruleId == UntrackedRule.ruleId) = 0 := by
    refine List.countP_eq_zero.mpr fun f hf => ?_
    obtain ⟨fault, -, rfl⟩ := mem_faultFindings hf
    have hne : (parseErrorId == UntrackedRule.ruleId) ≠ true := by decide
    exact hne
  have hmatches (ms : List RuleMatch) : (ms.map linter.matchFinding).countP
      (·.ruleId == UntrackedRule.ruleId) = ms.length := by
    rw [List.countP_map]
    exact List.countP_eq_length.mpr fun _ _ => beq_self_eq_true _
  rw [findings, List.countP_append, hfaults, Nat.zero_add, hmatches, sourceTimings]
  cases linter.ruleMatches path (Parsed.ofSource source) with
  | none => rfl
  | some ms =>
    rw [timedMatches_cons]
    exact (if_pos rfl).symm

/-- Each finding has a diagnostic of the same rule. -/
theorem countP_candidates (h : linter.candidates? path source = some ds) :
    ds.countP (·.ruleId == UntrackedRule.ruleId) =
      timedMatches (linter.sourceTimings path source) UntrackedRule.ruleId := by
  have hids : List.Forall₂ (· = ·) (ds.map (·.ruleId))
      ((linter.findings path source).map (·.ruleId)) := by
    rw [List.forall₂_map_left_iff, List.forall₂_map_right_iff]
    exact (forall₂_of_mapM h).flip.imp fun d f hd => (shows_of_diagnostic? hd).ruleId
  rw [List.forall₂_eq_eq_eq] at hids
  have hcount := congrArg (List.countP (· == UntrackedRule.ruleId)) hids
  rw [List.countP_map, List.countP_map] at hcount
  exact hcount.trans (countP_findings linter path source)

theorem totals_lintFile (h : linter.lintFile file.1 file.2 = some part) :
    linter.Totals [file] [part] part := by
  obtain ⟨path, content⟩ := file
  cases content with
  | error e =>
    cases h
    refine totals_reportOf rfl ?_ nofun List.nodup_nil rfl
    rintro d (_ | ⟨_, ⟨⟩⟩)
    rfl
  | ok text =>
    -- The problems shown and those silenced are together all that has been found.
    have hlint : linter.lintSource path text.toList = some part := h
    rw [lintSource_eq] at hlint
    obtain ⟨ds, hds, rfl⟩ := Option.map_eq_some_iff.mp hlint
    have hsilenced :
        linter.silenced (path, .ok text) = ds.filter (linter.silences text.toList) := by
      rw [silenced]
      dsimp only
      rw [hds]
      rfl
    have hperm : (ds.filter (!linter.silences text.toList ·) ++
        linter.silenced (path, .ok text)).Perm ds := by
      rw [hsilenced]
      exact List.perm_append_comm.trans (List.filter_append_perm _ _)
    rw [← hsilenced] at h ⊢
    refine totals_reportOf h (fun d hd => ?_) ?_ ?_ ?_
    · obtain ⟨f, -, hshows⟩ := exists_shows_of_mem hds (List.mem_of_mem_filter hd)
      exact hshows.file
    · rintro _ ⟨⟩
      exact ⟨ds, hds, hperm⟩
    · rw [sourceTimings]
      split
      · exact List.nodup_singleton _
      · exact List.nodup_nil
    · rw [hperm.countP_eq, countP_candidates hds]

/-- Merging reports of files one after another gives the report of all of them. -/
theorem totals_foldl {done : List (String × Except ReadError String)} {before : List Report}
    (hparts : List.Forall₂ (fun file part => linter.lintFile file.1 file.2 = some part) files parts)
    (h : linter.Totals done before r) :
    linter.Totals (done ++ files) (before ++ parts) (parts.foldl Report.merge r) := by
  induction hparts generalizing done before r with
  | nil => rwa [List.append_nil, List.append_nil]
  | cons hpart _ ih =>
    have hmerged := ih (h.merge (totals_lintFile hpart))
    rwa [List.append_assoc, List.append_assoc] at hmerged

/-- Reports of groups of files are merged into the reports of the files, one after another. -/
theorem foldl_lint (chunks : List (List (String × Except ReadError String))) (r : Report) :
    (chunks.mapM linter.lint).map (·.foldl Report.merge r) =
      (chunks.flatten.mapM fun file => linter.lintFile file.1 file.2).map
        (·.foldl Report.merge r) := by
  induction chunks generalizing r with
  | nil => rfl
  | cons chunk chunks ih =>
    rw [List.mapM_cons, List.flatten_cons, List.mapM_append, lint]
    cases chunk.mapM fun file => linter.lintFile file.1 file.2 with
    | none => rfl
    | some parts =>
      -- Merging the report of the first group takes the accumulator past the parts of that group.
      have hfirst : r.merge (parts.foldl Report.merge {}) = parts.foldl Report.merge r := by
        rw [merge_foldl, merge_empty]
      have hrest := ih (parts.foldl Report.merge r)
      generalize chunks.mapM linter.lint = reports?,
        chunks.flatten.mapM (fun file => linter.lintFile file.1 file.2) = later? at hrest ⊢
      cases reports? with
      | none =>
        cases later? with
        | none => rfl
        | some => cases hrest
      | some reports =>
        cases later? with
        | none => cases hrest
        | some later =>
          show some ((parts.foldl Report.merge {} :: reports).foldl Report.merge r) =
            some ((parts ++ later).foldl Report.merge r)
          rw [List.foldl_cons, hfirst, List.foldl_append]
          exact hrest

/-- Linting groups of files and merging the reports is linting all the files. -/
theorem lint_flatten (linter : Linter) (chunks : List (List (String × Except ReadError String))) :
    (chunks.mapM linter.lint).map (·.foldl Report.merge {}) = linter.lint chunks.flatten :=
  foldl_lint chunks {}

theorem isSome_lint (h : ∀ file ∈ files, ∀ text, file.2 = .ok text →
    linter.contextLines + (Text.lines text.toList).length + 1 < countLimit) :
    (linter.lint files).isSome = true := by
  rw [lint, Option.isSome_map]
  refine isSome_mapM_iff.mpr fun file hfile => ?_
  obtain ⟨path, content⟩ := file
  cases content with
  | error e => rfl
  | ok text =>
    have hroom := h _ hfile text rfl
    exact isSome_lintSource_of_room (by omega)

/-- The report of files adds up: it has the problems of each file in order, one file after another,
and its counts are those of these problems and of the silenced ones. The exit code tells the highest
severity of all problems. The report does not tell how the files have been grouped for it, and but
for times it is the one that is merged from those of the groups. There is a report unless the lines
of a file are near the limit. -/
theorem lint_totals (linter : Linter) (files : List (String × Except ReadError String)) :
    (∀ r, linter.lint files = some r → (∃ parts, linter.Totals files parts r) ∧
      (r.exitCode = 2 ↔ ∃ d ∈ r.diagnostics, d.severity = .error) ∧
      (r.exitCode = 1 ↔ (∃ d ∈ r.diagnostics, d.severity = .warning) ∧
        ∀ d ∈ r.diagnostics, d.severity ≠ .error) ∧
      (r.exitCode = 0 ↔ ∀ d ∈ r.diagnostics, d.severity = .info)) ∧
    (∀ chunks, chunks.flatten = files →
      (chunks.mapM linter.lint).map (·.foldl Report.merge {}) = linter.lint files ∧
      ∀ reports, List.Forall₂ (fun chunk r => linter.lint chunk = some r.untimed) chunks reports →
        linter.lint files = some (reports.foldl Report.merge {}).untimed) ∧
    ((∀ file ∈ files, ∀ text, file.2 = .ok text →
      linter.contextLines + (Text.lines text.toList).length + 1 < countLimit) →
        (linter.lint files).isSome = true) := by
  refine ⟨fun r hr => ?_, ?_, isSome_lint⟩
  · obtain ⟨parts, hparts, rfl⟩ := Option.map_eq_some_iff.mp hr
    have htotals := totals_foldl (forall₂_of_mapM hparts) totals_empty
    exact ⟨⟨parts, htotals⟩, htotals.counted.exitCode_iff⟩
  · rintro chunks rfl
    have hflatten := lint_flatten linter chunks
    refine ⟨hflatten, fun reports hreports => ?_⟩
    have huntimed := mapM_of_forall₂ (List.forall₂_map_right_iff.mpr hreports)
    rw [huntimed] at hflatten
    rw [← hflatten, untimed_foldl]
    rfl

/-- A file with two calls, one of them silenced, and a file that cannot be read: two files, one with
an error and one with a warning, exit code two and two matches. -/
example : ((ofConfig {}).toOption.bind fun linter =>
    (linter.lint [("a.ts", .ok ("declare const a: Subject;\na.subscribe();\n" ++
      "a.subscribe(); // subtrack-disable-line no-subscribe\n")), ("b.ts", .error .missing)]).map
      fun r => (r.filesProcessed, r.filesWithErrors, r.filesWithWarnings, r.exitCode,
        timedMatches r.timings UntrackedRule.ruleId)) = some (2, 1, 1, 2, 2) := by
  decide +kernel

end Subscriptions.Linter
