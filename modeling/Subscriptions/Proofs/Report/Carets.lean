import Subscriptions.Proofs.Source.Columns
import Subscriptions.Report.Text

namespace Subscriptions

open Text

def reach (text : String) : Nat := (lastLine text.toList).length

theorem feed_not_mem_toString (n : Nat) : '\n' ∉ (toString n).toList := by
  intro hmem
  have hdigit := Nat.isDigit_of_mem_toDigits (b := 10) (n := n) (by decide) (by decide)
    (by simpa [Nat.repr] using hmem)
  cases hdigit

namespace TextStyle

def aboveSource (style : TextStyle) (d : Diagnostic) : String :=
  style.headline d ++ margin ++ "|" ++ "\n" ++ style.contextLines d.context.before ++
    lineNumber d.location.line ++ " | "

/-- What stands between the source line and the carets. -/
def aboveCarets (l : Location) : String := "\n" ++ margin ++ "| " ++ blanks (l.column - 1)

/-- As many carets as the place has characters, and one at least. -/
def carets (l : Location) : String := String.ofList (List.replicate (max l.length 1) '^')

def belowCarets (style : TextStyle) (d : Diagnostic) : String :=
  "\n" ++ style.contextLines d.context.after ++ style.helpLine d

section
variable {style : TextStyle} {d : Diagnostic} {source : String}

/-- A report without colours is put together from these parts. -/
theorem diagnostic_eq (hplain : style.colored = false) (hshown : style.showSource = true)
    (hsource : d.sourceLine = some source) (hcolumn : 1 ≤ d.location.column) :
    style.diagnostic d = style.aboveSource d ++ source ++ aboveCarets d.location ++
      carets d.location ++ style.belowCarets d := by
  have hpaint (s : Style) (text : String) : style.paint s text = text := by
    rw [paint, hplain, paint_plain]
  have hplace : (d.location.column == 0) = false := beq_false_of_ne (Nat.ne_of_gt hcolumn)
  have hexcerpt : style.excerpt d = margin ++ "|" ++ "\n" ++ style.contextLines d.context.before ++
      (lineNumber d.location.line ++ " " ++ "|" ++ " " ++ source ++ "\n") ++
        (margin ++ "|" ++ " " ++ blanks (d.location.column - 1) ++ carets d.location ++ "\n") ++
          style.contextLines d.context.after := by
    simp only [excerpt, hsource, hshown, if_true, sourceLine, underline, hplace, gutter, hpaint,
      carets, Bool.false_eq_true, if_false]
  have hbar : "| " = "|" ++ " " := rfl
  have hbars : " | " = " " ++ "|" ++ " " := rfl
  rw [diagnostic, hexcerpt]
  simp only [aboveSource, aboveCarets, belowCarets, hbar, hbars, String.append_assoc]

/-- Lines of context end in a line feed, if there are any. -/
theorem exists_feed_contextLines (style : TextStyle) (ls : NumberedLines) :
    ∃ front, "\n" ++ style.contextLines ls = front ++ "\n" := by
  rw [contextLines]
  split
  · cases ls using List.reverseRecOn with
    | nil => exact ⟨"", rfl⟩
    | append_singleton ls l =>
      refine ⟨"\n" ++ String.join (ls.map style.contextLine) ++
        (style.paint .faint (lineNumber l.1) ++ " " ++ style.gutter ++ " " ++
          style.paint .faint l.2), ?_⟩
      have hlast : String.join [style.contextLine l] = style.contextLine l := by simp
      rw [List.map_append, String.join_append, List.map_singleton, hlast, contextLine]
      simp only [String.append_assoc]
  · exact ⟨"", rfl⟩

theorem feed_not_mem_lineNumber (n : Nat) : '\n' ∉ (lineNumber n).toList := by
  rw [lineNumber, padLeft, String.toList_append, List.mem_append, not_or]
  exact ⟨by simp [blanks], feed_not_mem_toString n⟩

theorem reach_feed {text line : String} (hline : '\n' ∉ line.toList) :
    reach (text ++ "\n" ++ line) = line.length := by
  have htext : (text ++ "\n" ++ line).toList = text.toList ++ '\n' :: line.toList := by simp
  rw [reach, htext, lastLine_feed _ hline, String.length_toList]

/-- The source starts behind its number, a blank, the gutter and another blank. -/
theorem reach_aboveSource (style : TextStyle) (d : Diagnostic) :
    reach (style.aboveSource d) = max 4 (toString d.location.line).length + 3 := by
  obtain ⟨front, hfront⟩ := exists_feed_contextLines style d.context.before
  have htext : style.aboveSource d = style.headline d ++ margin ++ "|" ++ front ++ "\n" ++
      (lineNumber d.location.line ++ " | ") := by
    have happend : style.headline d ++ margin ++ "|" ++ "\n" ++
        style.contextLines d.context.before = style.headline d ++ margin ++ "|" ++ front ++ "\n" := by
      rw [String.append_assoc, hfront, ← String.append_assoc]
    rw [aboveSource, happend, String.append_assoc]
  have hfree : '\n' ∉ (lineNumber d.location.line ++ " | ").toList := by
    rw [String.toList_append, List.mem_append, not_or]
    exact ⟨feed_not_mem_lineNumber _, by decide⟩
  rw [htext, reach_feed hfree, String.length_append, lineNumber, length_padLeft]
  rfl

/-- The carets start behind the margin, the gutter and a blank, and blanks up to the column. -/
theorem reach_aboveCarets (text : String) (l : Location) :
    reach (text ++ aboveCarets l) = 7 + (l.column - 1) := by
  have htext : text ++ aboveCarets l =
      text ++ "\n" ++ (margin ++ "| " ++ blanks (l.column - 1)) := by
    simp only [aboveCarets, String.append_assoc]
  have hfree : '\n' ∉ (margin ++ "| " ++ blanks (l.column - 1)).toList := by
    simp [margin, blanks]
  have hmargin : (margin ++ "| ").length = 7 := by decide
  rw [htext, reach_feed hfree, String.length_append, hmargin]
  simp [blanks]

/-- A number has four digits at most if it is below ten thousand. -/
theorem length_toString_le_four (n : Nat) : (toString n).length ≤ 4 ↔ n < 10000 := by
  have hdigits : (toString n).length = (Nat.toDigits 10 n).length := String.length_ofList
  rw [hdigits]
  exact Nat.length_toDigits_le_iff (by decide) (by decide)

end

/-- A report without colours shows the source line, and below it carets, as many as the place has
characters and one at least, behind text that has none. They start as far to the right as the place
in the source does just if the line has a number of four digits at most. -/
theorem carets_under_place_iff (style : TextStyle) (d : Diagnostic) (source : String)
    (hplain : style.colored = false) (hshown : style.showSource = true)
    (hsource : d.sourceLine = some source) (hcolumn : 1 ≤ d.location.column) :
    style.diagnostic d = style.aboveSource d ++ source ++ aboveCarets d.location ++
      carets d.location ++ style.belowCarets d ∧
    '^' ∉ (aboveCarets d.location).toList ∧
    (reach (style.aboveSource d ++ source ++ aboveCarets d.location) =
      reach (style.aboveSource d) + (d.location.column - 1) ↔ d.location.line < 10000) := by
  refine ⟨diagnostic_eq hplain hshown hsource hcolumn, by simp [aboveCarets, margin, blanks], ?_⟩
  rw [reach_aboveCarets, reach_aboveSource, ← length_toString_le_four]
  omega

def calledOn (line : Nat) : Diagnostic where
  ruleId := "no-subscribe"
  severity := .warning
  message := "Untracked"
  location := ⟨"app.ts", line, 4, 9⟩
  sourceLine := some "s$.subscribe();"

/-- On line 9999 the carets are under the verb. -/
theorem carets_under_place_fourDigits :
    reach (aboveSource { colored := false } (calledOn 9999) ++ "s$.subscribe();" ++
        aboveCarets (calledOn 9999).location) =
      reach (aboveSource { colored := false } (calledOn 9999)) + 3 :=
  (carets_under_place_iff { colored := false } (calledOn 9999) "s$.subscribe();" rfl rfl rfl
    (by decide)).2.2.mpr (by decide)

/-- On line 10000 the carets start under the full stop before the verb. -/
theorem carets_beside_place :
    diagnostic { colored := false } (calledOn 10000) =
      "app.ts:10000:4: warning[no-subscribe]: Untracked\n" ++
      "     |\n" ++
      "10000 | s$.subscribe();\n" ++
      "     |    ^^^^^^^^^\n" ∧
    reach (aboveSource { colored := false } (calledOn 10000) ++ "s$.subscribe();" ++
        aboveCarets (calledOn 10000).location) ≠
      reach (aboveSource { colored := false } (calledOn 10000)) + 3 := by
  decide

end TextStyle

end Subscriptions
