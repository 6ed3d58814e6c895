import Subscriptions.Config.Load
import Subscriptions.Linter
import Subscriptions.Proofs.Linter.Reporting

namespace Subscriptions

/-- The lines from one number to another, all of them in order, each with its number. -/
structure IsStretch (lines : List String) (first last : Nat) (ls : NumberedLines) : Prop where
  numbers : ls.map Prod.fst = List.range' first (last + 1 - first)
  texts : ∀ l ∈ ls, lines[l.1 - 1]? = some l.2

/-- The window has the lines up to so many away from a line, which is in the middle. -/
structure Window.Surrounds (lines : List String) (line count : Nat) (w : Window) : Prop where
  before : IsStretch lines (max 1 (line - count)) (line - 1) w.before
  after : IsStretch lines (line + 1) (min (line + count) lines.length) w.after

section
variable {lines : List String} {line count first last : Nat} {w : Window}

theorem map_fst_numbered (lines : List String) :
    (numbered lines).map Prod.fst = List.range' 1 lines.length := by
  have hsucc : (Prod.fst ∘ fun l : String × Nat => (l.2 + 1, l.1)) = (1 + ·) ∘ Prod.snd := by
    funext l
    exact Nat.add_comm l.2 1
  rw [numbered, List.map_map, hsucc, ← List.map_map, List.zipIdx_map_snd, List.map_add_range']

theorem getElem?_of_mem_numbered {l : Nat × String} (h : l ∈ numbered lines) :
    lines[l.1 - 1]? = some l.2 := by
  obtain ⟨m, hm, rfl⟩ := List.mem_map.mp h
  have hline := List.mem_zipIdx_iff_getElem?.mp hm
  simpa using hline

/-- Lines cut out of the numbered ones are a stretch. -/
theorem isStretch_cut (first : Nat) (hlast : last ≤ lines.length) :
    IsStretch lines (first + 1) last (((numbered lines).drop first).take (last - first)) where
  numbers := by
    have hlength : last - first ≤ lines.length - first := by omega
    rw [List.map_take, List.map_drop, map_fst_numbered, List.drop_range',
      List.take_range'_of_length_ge hlength, Nat.mul_one, Nat.add_comm 1 first,
      Nat.add_sub_add_right]
  texts l hl := getElem?_of_mem_numbered (List.mem_of_mem_drop (List.mem_of_mem_take hl))

/-- No lines. -/
theorem isStretch_nil (h : last < first) : IsStretch lines first last [] := by
  refine ⟨?_, nofun⟩
  have hnone : last + 1 - first = 0 := by omega
  rw [hnone]
  rfl

namespace Window

/-- Where there is a window it is the right one. -/
theorem surrounds_of_around? (hfirst : 1 ≤ line) (hlast : line ≤ lines.length)
    (h : around? lines line count = some w) : w.Surrounds lines line count := by
  rw [around?] at h
  split at h
  · rename_i hnone
    have hcount : count = 0 := by
      have hline : line ≠ 0 := by omega
      simpa [hline] using hnone
    cases h
    exact ⟨isStretch_nil (by omega), isStretch_nil (by omega)⟩
  · split at h
    · cases h
    · cases h
      have hstart : max 1 (line - count) = line - (count + 1) + 1 := by omega
      have hend : line - 1 ≤ lines.length := by omega
      have hbefore := isStretch_cut (line - (count + 1)) hend
      rw [← hstart] at hbefore
      exact ⟨hbefore, isStretch_cut line (Nat.min_le_right _ _)⟩

end Window

/-- What a diagnostic shows around its line is the window of the line. -/
theorem Linter.around?_of_diagnostic? {linter : Linter} {path : String} {source : List Char}
    {f : Finding} {d : Diagnostic} (h : linter.diagnostic? path source lines f = some d)
    (hfirst : 1 ≤ d.location.line) (hlast : d.location.line ≤ lines.length) :
    Window.around? lines d.location.line linter.contextLines = some d.context := by
  simp only [diagnostic?] at h
  obtain ⟨length, -, h⟩ := Option.bind_eq_some_iff.mp h
  split at h
  · obtain ⟨window, hwindow, h⟩ := Option.bind_eq_some_iff.mp h
    cases h
    exact hwindow
  · rename_i hunknown
    cases h
    simp only [Bool.and_eq_true, decide_eq_true_iff] at hunknown
    exact absurd ⟨hfirst, hlast⟩ hunknown

end

namespace Window

/-- A line of a source has a window for a number of lines if and only if there are no lines to show
or the number of the last one asked for fits 64 bits. The window then has the lines up to so many
away on each side, and a diagnostic on the line shows these. -/
theorem around?_exact_iff_fits (lines : List String) (line count : Nat) (hfirst : 1 ≤ line)
    (hlast : line ≤ lines.length) :
    ((around? lines line count).isSome = true ↔ count = 0 ∨ line + count < countLimit) ∧
    (∀ w, around? lines line count = some w → w.Surrounds lines line count) ∧
    ∀ (linter : Linter) (path : String) (source : List Char) (f : Finding) (d : Diagnostic),
      linter.diagnostic? path source lines f = some d → d.location.line = line →
        linter.contextLines = count → d.context.Surrounds lines line count := by
  refine ⟨isSome_around?_iff hfirst, fun w hw => surrounds_of_around? hfirst hlast hw, ?_⟩
  intro linter path source f d hd hline hcount
  subst hline hcount
  have hwindow := Linter.around?_of_diagnostic? hd hfirst hlast
  exact surrounds_of_around? hfirst hlast hwindow

/-- The largest number of lines around the second one of three. -/
theorem around?_exact_iff_fits_second : 1 ≤ 2 ∧ 2 ≤ ["a", "b", "c"].length ∧
    ∃ w, around? ["a", "b", "c"] 2 (countLimit - 3) = some w ∧
      w.Surrounds ["a", "b", "c"] 2 (countLimit - 3) := by
  obtain ⟨hiff, hexact, -⟩ :=
    around?_exact_iff_fits ["a", "b", "c"] 2 (countLimit - 3) (by decide) (by decide)
  obtain ⟨w, hw⟩ := Option.isSome_iff_exists.mp (hiff.mpr (.inr (by decide)))
  exact ⟨by decide, by decide, w, hw, hexact w hw⟩

/-- A configuration with the largest number of lines that there is. -/
def widestText : String := "\x7b\"output\": \x7b\"context\": 18446744073709551615\x7d\x7d"

/-- With the largest number of lines the second one of three has no window. The configuration that
asks for it is read, and there is no report of a source in which something is found. -/
theorem around?_overflows : around? ["a", "b", "c"] 2 (countLimit - 1) = none ∧
    ∃ config linter, Config.ofJson widestText = .ok config ∧ Linter.ofConfig config = .ok linter ∧
      linter.contextLines = countLimit - 1 ∧
      linter.lintSource "a.ts" "let a: Subject;\na.subscribe();".toList = none := by
  have hrun : (Config.ofJson widestText).toOption.bind (fun config =>
      (Linter.ofConfig config).toOption.bind fun linter => some (linter.contextLines,
        linter.lintSource "a.ts" "let a: Subject;\na.subscribe();".toList)) =
      some (countLimit - 1, none) := by
    decide +kernel
  obtain ⟨config, hconfig, hrun⟩ := exists_of_toOption_bind hrun
  obtain ⟨linter, hlinter, hrun⟩ := exists_of_toOption_bind hrun
  obtain ⟨hcount, hreport⟩ := Prod.mk.inj (Option.some.inj hrun)
  exact ⟨by decide, config, linter, hconfig, hlinter, hcount, hreport⟩

end Window

end Subscriptions
