import Subscriptions.Proofs.Linter.Pointing
import Subscriptions.Proofs.Linter.Totals
import Subscriptions.Proofs.Report.Carets

namespace Subscriptions

open Text

/-- A parse error which tells that this token has been found in the place of something else. -/
structure Diagnostic.Quotes (source : List Char) (t : Token) (d : Diagnostic) : Prop where
  ruleId : d.ruleId = Linter.parseErrorId
  place : (d.location.line, d.location.column) = lineColumn source t.span.start
  message : ∃ what, d.message =
    "Parse error: " ++ (Fault.expected what (some t.text) t.span).message

def Diagnostic.QuotesLines (source : List Char) (d : Diagnostic) : Prop :=
  ∃ t ∈ (tokenize source).tokens, t.kind.literal?.isSome = true ∧ '\n' ∈ t.text.toList ∧
    d.Quotes source t

def CompactStyle.heading (style : CompactStyle) (d : Diagnostic) : String :=
  d.location.file ++ ":" ++ toString d.location.line ++ ":" ++ toString d.location.column ++ ": " ++
    (if style.showSeverity then d.severity.name ++ ": " else "") ++
    (if style.showRule then d.ruleId ++ ": " else "")

section
variable {ls : List (List Char)}

/-- Lines may be cut further, until none of them has a line feed. -/
theorem exists_lines_of_ended (ls : List (List Char)) :
    ∃ ms, ended ls = ended ms ∧ ∀ m ∈ ms, '\n' ∉ m := by
  induction ls with
  | nil => exact ⟨[], rfl, nofun⟩
  | cons l ls ih =>
    obtain ⟨ms, hms, hfree⟩ := ih
    obtain ⟨ks, line, rfl, hks, hline⟩ := exists_ended l
    refine ⟨ks ++ line :: ms, ?_, ?_⟩
    · simp only [ended, List.flatMap_cons, List.flatMap_append, List.append_assoc] at hms ⊢
      rw [hms]
    · exact List.forall_mem_append.mpr ⟨hks, List.forall_mem_cons.mpr ⟨hline, hfree⟩⟩

theorem lines_ended_of_free (hfree : ∀ l ∈ ls, '\n' ∉ l) :
    lines (ended ls) = ls.map withoutReturn := by
  have hlines : lines (ended ls ++ []) = ls.map withoutReturn ++ lines [] := lines_ended hfree
  rw [List.append_nil] at hlines
  rw [hlines]
  exact List.append_nil _

/-- A text that ends its last line has as many lines as line feeds. -/
theorem length_lines_ended (ls : List (List Char)) :
    (lines (ended ls)).length = (ended ls).count '\n' := by
  obtain ⟨ms, hms, hfree⟩ := exists_lines_of_ended ls
  rw [hms, lines_ended_of_free hfree, count_ended hfree, List.length_map]

/-- No line is added just if none of the parts has a line feed. -/
theorem length_lines_ended_iff : (lines (ended ls)).length = ls.length ↔ ∀ l ∈ ls, '\n' ∉ l := by
  rw [length_lines_ended, count_ended_eq_add, Nat.add_eq_left, List.count_eq_zero,
    not_mem_flatten_iff]

/-- Where no part ends in a carriage return, the parts are then the lines. -/
theorem lines_ended_iff (hreturn : ∀ l ∈ ls, l.getLast? ≠ some '\r') :
    lines (ended ls) = ls ↔ ∀ l ∈ ls, '\n' ∉ l := by
  constructor
  · intro h
    exact length_lines_ended_iff.mp (congrArg List.length h)
  · intro hfree
    have hkeep : ∀ l ∈ ls, withoutReturn l = id l := fun l hl =>
      if_neg (mt eq_of_beq (hreturn l hl))
    rw [lines_ended_of_free hfree, List.map_congr_left hkeep, List.map_id]

end

def keepsEnd (text : String) : Bool := text.toList.getLast?.any (· != '\r')

theorem keepsEnd_append {before after : String} (h : keepsEnd after = true) :
    keepsEnd (before ++ after) = true := by
  obtain ⟨c, hlast, hc⟩ := (Option.any_eq_true _ _).mp h
  rw [keepsEnd, String.toList_append, List.getLast?_append, hlast]
  exact hc

theorem feed_mem_append {before after : String} : '\n' ∈ (before ++ after).toList ↔
    '\n' ∈ before.toList ∨ '\n' ∈ after.toList := by
  rw [String.toList_append, List.mem_append]

theorem feed_not_mem_append {before after : String} (hbefore : '\n' ∉ before.toList)
    (hafter : '\n' ∉ after.toList) : '\n' ∉ (before ++ after).toList := by
  rw [feed_mem_append, not_or]
  exact ⟨hbefore, hafter⟩

theorem feed_not_mem_of_unblank {cs : List Char} (h : ∀ c ∈ cs, isBlank c = false) : '\n' ∉ cs := by
  intro hmem
  cases h '\n' hmem

section
variable {source : List Char} {t : Token} {f : Fault}

theorem feed_not_mem_name (what : Unclosed) : '\n' ∉ what.name.toList := by
  cases what <;> decide

theorem feed_not_mem_phrase {what : Expectation} (h : what.isKnown = true) :
    '\n' ∉ what.phrase.toList := by
  cases what with
  | token text =>
    have hmem : text ∈ Scanner.punctuators := List.elem_iff.mp h
    have htext := feed_not_mem_of_unblank fun _ => Scanner.isBlank_of_mem_punctuator hmem
    exact feed_not_mem_append (feed_not_mem_append (by decide) htext) (by decide)
  | _ => decide

/-- A line feed in a message of the grammar is one in the text that it has found. -/
theorem exists_found {what : Expectation} {found : Option String} {span : Span}
    (hwhat : what.isKnown = true)
    (hfeed : '\n' ∈ (Fault.expected what found span).message.toList) :
    ∃ text, found = some text ∧ '\n' ∈ text.toList := by
  have hfound : '\n' ∈ (found.getD "end of file").toList := by
    by_contra hfound
    have hphrase := feed_not_mem_phrase hwhat
    have hbefore : '\n' ∉ ("expected " ++ what.phrase ++ ", found '").toList :=
      feed_not_mem_append (feed_not_mem_append (by decide) hphrase) (by decide)
    exact feed_not_mem_append (feed_not_mem_append hbefore hfound) (by decide) hfeed
  cases found with
  | none => exact absurd hfound (by decide)
  | some text => exact ⟨text, rfl, hfound⟩

/-- It has then found a token of more than one line. -/
theorem Grammar.ReportedAt.quotes (h : ReportedAt t f) (hfeed : '\n' ∈ f.message.toList) :
    '\n' ∈ t.text.toList ∧ ∃ what, f = .expected what (some t.text) t.span := by
  cases h with
  | tooDeep limit =>
    have hlimit := feed_not_mem_toString limit
    have hmessage : '\n' ∉ ("nesting exceeds " ++ toString limit ++ " levels").toList :=
      feed_not_mem_append (feed_not_mem_append (by decide) hlimit) (by decide)
    exact absurd hfeed hmessage
  | expected hwhat =>
    obtain ⟨text, hfound, htext⟩ := exists_found hwhat hfeed
    have hsame : text = t.text := by
      split at hfound <;> cases hfound
      rfl
    rw [hfound, ← hsame]
    exact ⟨htext, _, rfl⟩

/-- The messages of the scanner have no line feed, since no blank is an unexpected character. -/
theorem feed_not_mem_of_mem_tokenize_faults (hf : f ∈ (tokenize source).faults) :
    '\n' ∉ f.message.toList := by
  obtain ⟨ending, hjudged, hopen⟩ :=
    Scanner.scanFrom_judged (source.length + 1) [] none 0 source (Nat.lt_succ_self _)
  rcases hjudged.mem.mp hf with ⟨t, ht, hfaulty⟩ | hend
  · cases hfaulty with
    | unterminated => exact feed_not_mem_append (by decide) (feed_not_mem_name _)
    | @unexpectedChar c hkind htext =>
      have hsolid := feed_not_mem_of_unblank (isBlank_of_mem_token ht (by rw [hkind]; rfl))
      rw [htext] at hsolid
      exact feed_not_mem_append (feed_not_mem_append (by decide) hsolid) (by decide)
  · obtain ⟨start, rfl⟩ := hopen.eq_comment hend
    exact feed_not_mem_append (by decide) (feed_not_mem_name _)

theorem keepsEnd_message (f : Fault) : keepsEnd f.message = true := by
  cases f with
  | unterminated what => exact keepsEnd_append (by cases what <;> decide)
  | unexpectedChar | tooDeep | expected => exact keepsEnd_append (by decide)

end

section
variable {style : CompactStyle} {linter : Linter} {path : String} {source : List Char}
  {lines : List String} {f : Finding} {d : Diagnostic} {report : Report}

theorem Diagnostic.QuotesLines.feed (h : d.QuotesLines source) : '\n' ∈ d.message.toList := by
  obtain ⟨t, -, -, hfeed, hquotes⟩ := h
  obtain ⟨what, hmessage⟩ := hquotes.message
  have htext : '\n' ∈ ("expected " ++ what.phrase ++ ", found '" ++ t.text).toList :=
    feed_mem_append.mpr (.inr hfeed)
  have hfault : '\n' ∈ (Fault.expected what (some t.text) t.span).message.toList :=
    feed_mem_append.mpr (.inl htext)
  rw [hmessage]
  exact feed_mem_append.mpr (.inr hfault)

namespace Linter

/-- The rule tells of its verb, and the verb is a word of the source. -/
theorem feed_not_mem_of_violation? {rule : UntrackedRule} {resolve : Resolver} {c : Cursor}
    {v : Violation} (hc : c ∈ (Parsed.ofSource source).root.asRoot.preorder)
    (h : rule.violation? resolve c = some v) : '\n' ∉ (rule.message v.inConstruction).toList := by
  obtain ⟨t, ht, hword, hverb, -⟩ := UntrackedRule.spoken_of_violation? hc h
  have hkind : t.kind = .word := eq_of_beq hword
  have hfree := feed_not_mem_of_unblank (isBlank_of_mem_token ht (by rw [hkind]; rfl))
  rw [hverb] at hfree
  rw [UntrackedRule.message]
  split
  · decide
  · exact feed_not_mem_append (feed_not_mem_append (by decide) hfree) (by decide)

theorem feed_not_mem_ruleId (hf : f ∈ linter.findings path source) : '\n' ∉ f.ruleId.toList := by
  rcases origin_of_mem_findings hf with ⟨_, -, rfl⟩ | ⟨_, -, _, -, rfl⟩
  · exact (by decide : '\n' ∉ parseErrorId.toList)
  · exact (by decide : '\n' ∉ UntrackedRule.ruleId.toList)

theorem keepsEnd_of_mem_findings (hf : f ∈ linter.findings path source) :
    keepsEnd f.message = true := by
  rcases origin_of_mem_findings hf with ⟨fault, -, rfl⟩ | ⟨_, -, v, -, rfl⟩
  · exact keepsEnd_append (keepsEnd_message fault)
  · have hmessage : keepsEnd (linter.rule.message v.inConstruction) = true := by
      rw [UntrackedRule.message]
      split
      · decide
      · exact keepsEnd_append (by decide)
    exact hmessage

/-- A diagnostic with a line feed in its message quotes a literal. -/
theorem quotesLines_of_shows (h : Shows path source lines f d)
    (hf : f ∈ linter.findings path source) (hfeed : '\n' ∈ d.message.toList) :
    d.QuotesLines source := by
  rw [h.message] at hfeed
  rcases origin_of_mem_findings hf with ⟨fault, hfault, rfl⟩ | ⟨c, hc, v, hviolation, rfl⟩
  · have hmessage : '\n' ∈ fault.message.toList := by
      by_contra hfree
      exact feed_not_mem_append (by decide) hfree hfeed
    rcases Parsed.reported_of_mem_faults hfault with hscanned | ⟨t, ht, hreported⟩
    · exact absurd hmessage (feed_not_mem_of_mem_tokenize_faults hscanned)
    · obtain ⟨htext, what, rfl⟩ := hreported.quotes hmessage
      refine ⟨t, ht, ?_, htext, h.ruleId, h.place, what, h.message⟩
      rw [Option.isSome_iff_ne_none]
      intro hliteral
      exact feed_not_mem_of_unblank (isBlank_of_mem_token ht hliteral) htext
  · exact absurd hfeed (feed_not_mem_of_violation? hc hviolation)

end Linter

namespace CompactStyle

theorem diagnostic_eq (style : CompactStyle) (d : Diagnostic) :
    style.diagnostic d = style.heading d ++ d.message := by
  obtain ⟨showSeverity, showRule⟩ := style
  cases showSeverity <;> cases showRule <;> simp [diagnostic, heading, String.append_assoc]

theorem feed_not_mem_heading (hfile : '\n' ∉ d.location.file.toList)
    (hrule : '\n' ∉ d.ruleId.toList) : '\n' ∉ (style.heading d).toList := by
  have hseverity : '\n' ∉ (if style.showSeverity then d.severity.name ++ ": " else "").toList := by
    split
    · exact feed_not_mem_append (by cases d.severity <;> decide) (by decide)
    · decide
  have hid : '\n' ∉ (if style.showRule then d.ruleId ++ ": " else "").toList := by
    split
    · exact feed_not_mem_append hrule (by decide)
    · decide
  have hline : '\n' ∉ (d.location.file ++ ":" ++ toString d.location.line).toList :=
    feed_not_mem_append (feed_not_mem_append hfile (by decide)) (feed_not_mem_toString _)
  have hcolon : '\n' ∉ ":".toList := by decide
  have hplace := feed_not_mem_append (feed_not_mem_append hline hcolon)
    (feed_not_mem_toString d.location.column)
  apply feed_not_mem_append _ hid
  apply feed_not_mem_append _ hseverity
  apply feed_not_mem_append hplace
  decide

/-- A report is the lines of its diagnostics, each with a line feed. -/
theorem toList_report (style : CompactStyle) (r : Report) : (style.report r).toList =
    ended (r.diagnostics.map fun d => (style.diagnostic d).toList) := by
  rw [CompactStyle.report, String.toList_join, ended, List.flatMap_map, List.flatMap_map]
  simp only [String.toList_append]
  rfl

/-- A diagnostic of a report takes more than one line just if it quotes a literal that does. -/
theorem feed_mem_diagnostic_iff (hpath : '\n' ∉ path.toList)
    (h : linter.lintSource path source = some report) (hd : d ∈ report.diagnostics) :
    '\n' ∈ (style.diagnostic d).toList ↔ d.QuotesLines source := by
  obtain ⟨f, hf, hshows⟩ := Linter.exists_shows h hd
  have hfile : '\n' ∉ d.location.file.toList := hshows.file ▸ hpath
  have hrule : '\n' ∉ d.ruleId.toList := hshows.ruleId ▸ Linter.feed_not_mem_ruleId hf
  rw [diagnostic_eq, feed_mem_append, or_iff_right (feed_not_mem_heading hfile hrule)]
  exact ⟨Linter.quotesLines_of_shows hshows hf, Diagnostic.QuotesLines.feed⟩

theorem getLast?_diagnostic (h : linter.lintSource path source = some report)
    (hd : d ∈ report.diagnostics) : (style.diagnostic d).toList.getLast? ≠ some '\r' := by
  obtain ⟨f, hf, hshows⟩ := Linter.exists_shows h hd
  have hmessage : keepsEnd d.message = true := hshows.message ▸ Linter.keepsEnd_of_mem_findings hf
  have hend : keepsEnd (style.heading d ++ d.message) = true := keepsEnd_append hmessage
  obtain ⟨c, hlast, hc⟩ := (Option.any_eq_true _ _).mp hend
  rw [diagnostic_eq, hlast]
  rintro ⟨⟩
  cases hc

end CompactStyle

end

namespace CompactStyle

/-- The report of a source as a file whose path has no line feed. A diagnostic in it has a line feed
just if it is a parse error that quotes a literal with one. So the report has as many lines as
diagnostics, and its lines are these in order, if and only if none of them quotes such a literal.
There is a report unless the lines of the source are near the limit. -/
theorem lines_report_iff (style : CompactStyle) (linter : Linter) (path : String)
    (source : List Char) (hpath : '\n' ∉ path.toList) :
    (∀ report, linter.lintSource path source = some report →
      (∀ d ∈ report.diagnostics, '\n' ∈ (style.diagnostic d).toList ↔ d.QuotesLines source) ∧
      ((lines (style.report report).toList).length = report.diagnostics.length ↔
        ∀ d ∈ report.diagnostics, ¬ d.QuotesLines source) ∧
      ((lines (style.report report).toList).map String.ofList =
          report.diagnostics.map style.diagnostic ↔
        ∀ d ∈ report.diagnostics, ¬ d.QuotesLines source)) ∧
    (linter.contextLines + (lines source).length + 1 < countLimit →
      (linter.lintSource path source).isSome = true) := by
  refine ⟨fun report hreport => ?_, fun hroom => Linter.isSome_lintSource_of_room (by omega)⟩
  have hquotes : ∀ d ∈ report.diagnostics,
      ('\n' ∈ (style.diagnostic d).toList ↔ d.QuotesLines source) :=
    fun d hd => feed_mem_diagnostic_iff hpath hreport hd
  have hfree : (∀ l ∈ report.diagnostics.map fun d => (style.diagnostic d).toList, '\n' ∉ l) ↔
      ∀ d ∈ report.diagnostics, ¬ d.QuotesLines source := by
    rw [List.forall_mem_map]
    exact forall₂_congr fun d hd => not_congr (hquotes d hd)
  refine ⟨hquotes, ?_, ?_⟩
  · rw [toList_report, ← hfree, ← length_lines_ended_iff, List.length_map]
  · have htexts : report.diagnostics.map style.diagnostic =
        (report.diagnostics.map fun d => (style.diagnostic d).toList).map String.ofList := by
      rw [List.map_map]
      exact List.map_congr_left fun d _ => String.ofList_toList.symm
    rw [toList_report, htexts, List.map_inj_right fun _ _ => String.ofList_inj.mp, ← hfree]
    apply lines_ended_iff
    rw [List.forall_mem_map]
    exact fun d hd => getLast?_diagnostic hreport hd

/-- A template of two lines, and behind it a full stop without a property. -/
def faultySource : List Char := "const s = \x60a\nb\x60;\ns.;\n".toList

/-- The fault quotes the semicolon and not the template, so it takes one line. -/
theorem lines_report_semicolon : '\n' ∉ "a.ts".toList ∧
    ∃ base report, Linter.ofConfig {} = .ok base ∧
      base.lintSource "a.ts" faultySource = some report ∧ report.diagnostics.length = 1 ∧
        (lines (CompactStyle.report {} report).toList).map String.ofList =
          report.diagnostics.map (diagnostic {}) := by
  have hrun : (Linter.ofConfig {}).toOption.bind (fun base =>
      (base.lintSource "a.ts" faultySource).map fun report =>
        (report.diagnostics.length, report.diagnostics.all fun d =>
          !(diagnostic {} d).toList.contains '\n')) = some (1, true) := by
    decide +kernel
  obtain ⟨base, hbase, hrun⟩ := exists_of_toOption_bind hrun
  obtain ⟨report, hreport, hshown⟩ := Option.map_eq_some_iff.mp hrun
  obtain ⟨hlength, hfree⟩ := Prod.mk.inj hshown
  have hpath : '\n' ∉ "a.ts".toList := by decide
  obtain ⟨hquotes, -, hlines⟩ :=
    (lines_report_iff {} base "a.ts" faultySource hpath).1 report hreport
  refine ⟨hpath, base, report, hbase, hreport, hlength, hlines.mpr fun d hd => ?_⟩
  rw [← hquotes d hd]
  simpa using List.all_eq_true.mp hfree d hd

/-- A template of two lines where a property is expected: the one diagnostic takes two lines. -/
theorem lines_report_quoted : ∃ base report, Linter.ofConfig {} = .ok base ∧
    base.lintSource "a.ts" "a.\x60b\nc\x60;".toList = some report ∧
      report.diagnostics.length = 1 ∧ lines (CompactStyle.report {} report).toList =
        ["a.ts:1:3: warning: parse-error: Parse error: expected property name, found '\x60b".toList,
          "c\x60'".toList] := by
  have hrun : (Linter.ofConfig {}).toOption.bind (fun base =>
      (base.lintSource "a.ts" "a.\x60b\nc\x60;".toList).map fun report =>
        (report.diagnostics.length, lines (CompactStyle.report {} report).toList)) = some (1,
        ["a.ts:1:3: warning: parse-error: Parse error: expected property name, found '\x60b".toList,
          "c\x60'".toList]) := by
    decide +kernel
  obtain ⟨base, hbase, hrun⟩ := exists_of_toOption_bind hrun
  obtain ⟨report, hreport, hlines⟩ := Option.map_eq_some_iff.mp hrun
  obtain ⟨hlength, hlines⟩ := Prod.mk.inj hlines
  exact ⟨base, report, hbase, hreport, hlength, hlines⟩

end CompactStyle

end Subscriptions
