import Subscriptions.Proofs.Syntax.Spelling
import Subscriptions.Proofs.Syntax.Placing
import Subscriptions.Text.Lines

namespace Subscriptions

open Text

def ended (ls : List (List Char)) : List Char := ls.flatMap (· ++ ['\n'])

section
variable {ls : List (List Char)} {before line cs rest : List Char} {n : Nat}

/-- A text is some whole lines and the start of one more. -/
theorem exists_ended (before : List Char) :
    ∃ ls line, before = ended ls ++ line ∧ (∀ l ∈ ls, '\n' ∉ l) ∧ '\n' ∉ line := by
  induction before with
  | nil => exact ⟨[], [], rfl, nofun, List.not_mem_nil⟩
  | cons c before ih =>
    obtain ⟨ls, line, rfl, hls, hline⟩ := ih
    by_cases hc : c = '\n'
    · subst hc
      exact ⟨[] :: ls, line, rfl, List.forall_mem_cons.mpr ⟨List.not_mem_nil, hls⟩, hline⟩
    · have hfree {l : List Char} (hl : '\n' ∉ l) : '\n' ∉ c :: l := by
        simp [hl, Ne.symm hc]
      cases ls with
      | nil => exact ⟨[], c :: line, rfl, nofun, hfree hline⟩
      | cons l ls =>
        obtain ⟨hl, hls⟩ := List.forall_mem_cons.mp hls
        exact ⟨(c :: l) :: ls, line, rfl, List.forall_mem_cons.mpr ⟨hfree hl, hls⟩, hline⟩

theorem laterLineStarts_append_line (hline : '\n' ∉ line) :
    laterLineStarts n (line ++ cs) = laterLineStarts (n + byteLength line) cs := by
  induction line generalizing n with
  | nil => rfl
  | cons c line ih =>
    have hc : c ≠ '\n' := fun hc => hline (by simp [hc])
    have hrest : '\n' ∉ line := fun h => hline (List.mem_cons_of_mem _ h)
    rw [List.cons_append, laterLineStarts, if_neg (by simpa using hc), ih hrest, byteLength_cons,
      Nat.add_assoc]

theorem laterLineStarts_feed :
    laterLineStarts n ('\n' :: cs) = (n + 1) :: laterLineStarts (n + 1) cs := by
  simp [laterLineStarts]

theorem byteLength_ended_cons (l : List Char) (ls : List (List Char)) :
    byteLength (ended (l :: ls)) = byteLength l + 1 + byteLength (ended ls) := by
  have hfeed : ('\n' : Char).utf8Size = 1 := rfl
  simp [ended, hfeed, Nat.add_assoc]

/-- After each line feed a line starts. -/
theorem laterLineStarts_ended (hls : ∀ l ∈ ls, '\n' ∉ l) (hline : '\n' ∉ line) :
    (laterLineStarts n (ended ls ++ line)).length = ls.length ∧
      (laterLineStarts n (ended ls ++ line)).getLastD n = n + byteLength (ended ls) := by
  induction ls generalizing n with
  | nil =>
    have hnone : laterLineStarts n (line ++ []) = laterLineStarts (n + byteLength line) [] :=
      laterLineStarts_append_line hline
    rw [List.append_nil] at hnone
    simp [ended, hnone, laterLineStarts]
  | cons l ls ih =>
    obtain ⟨hl, hls⟩ := List.forall_mem_cons.mp hls
    obtain ⟨hlength, hlast⟩ := ih (n := n + byteLength l + 1) hls
    have htext : ended (l :: ls) ++ line = l ++ '\n' :: (ended ls ++ line) := by simp [ended]
    rw [htext, laterLineStarts_append_line hl, laterLineStarts_feed, List.length_cons, hlength,
      List.getLastD_cons, hlast, byteLength_ended_cons]
    exact ⟨rfl, by omega⟩

theorem lt_of_mem_laterLineStarts {m : Nat} (h : m ∈ laterLineStarts n cs) : n < m := by
  induction cs generalizing n with
  | nil => cases h
  | cons c cs ih =>
    rw [laterLineStarts] at h
    split at h
    · rcases List.mem_cons.mp h with rfl | h
      · exact Nat.lt_succ_self n
      · exact Nat.lt_of_succ_lt (ih h)
    · exact Nat.lt_of_le_of_lt (Nat.le_add_right _ _) (ih h)

/-- The lines that start up to an offset are those of the text before it. -/
theorem takeWhile_laterLineStarts (n : Nat) (before cs : List Char) :
    (laterLineStarts n (before ++ cs)).takeWhile (· ≤ n + byteLength before) =
      laterLineStarts n before := by
  induction before generalizing n with
  | nil =>
    cases hstarts : laterLineStarts n cs with
    | nil => simp [hstarts, laterLineStarts]
    | cons m starts =>
      have hlater : ¬ m ≤ n :=
        Nat.not_le_of_gt (lt_of_mem_laterLineStarts (hstarts ▸ List.mem_cons_self))
      rw [List.nil_append, hstarts]
      exact List.takeWhile_cons_of_neg (mt of_decide_eq_true hlater)
  | cons c before ih =>
    by_cases hc : c = '\n'
    · subst hc
      have hfeed : ('\n' : Char).utf8Size = 1 := rfl
      have hlater := ih (n + 1)
      rw [List.cons_append, laterLineStarts_feed, laterLineStarts_feed, byteLength_cons, hfeed,
        ← Nat.add_assoc, List.takeWhile_cons_of_pos (by simp), hlater]
    · have hlater := ih (n + c.utf8Size)
      rw [List.cons_append, laterLineStarts, if_neg (by simpa using hc), laterLineStarts,
        if_neg (by simpa using hc), byteLength_cons, ← Nat.add_assoc, hlater]

/-- The line of an offset is counted by the line feeds before it, and the column by the characters
after the last of them. -/
theorem lineColumn_ended (hls : ∀ l ∈ ls, '\n' ∉ l) (hline : '\n' ∉ line) :
    lineColumn (ended ls ++ line ++ cs) (byteLength (ended ls ++ line)) =
      (ls.length + 1, line.length + 1) := by
  obtain ⟨hlength, hlast⟩ := laterLineStarts_ended (n := 0) hls hline
  have hupTo : (lineStarts (ended ls ++ line ++ cs)).takeWhile
      (· ≤ byteLength (ended ls ++ line)) = 0 :: laterLineStarts 0 (ended ls ++ line) := by
    have hlater := takeWhile_laterLineStarts 0 (ended ls ++ line) cs
    rw [Nat.zero_add] at hlater
    rw [lineStarts, List.takeWhile_cons_of_pos (by simp), hlater]
  have hstop : min (byteLength (ended ls ++ line)) (byteLength (ended ls ++ line ++ cs)) =
      byteLength (ended ls ++ line) := by
    rw [byteLength_append _ cs]
    exact Nat.min_eq_left (Nat.le_add_right _ _)
  have hcovers : (Span.mk (byteLength (ended ls)) (byteLength (ended ls ++ line))).Covers 0
      (ended ls ++ line ++ cs) line := ⟨ended ls, cs, rfl, by simp, by simp⟩
  rw [Nat.zero_add] at hlast
  simp only [lineColumn, hupTo, hstop, List.getLastD_cons, hlast, hcovers.slice?, List.length_cons,
    hlength]

theorem cutLine_append (hline : '\n' ∉ line) :
    cutLine (line ++ cs) = (line ++ (cutLine cs).1, (cutLine cs).2) := by
  induction line with
  | nil => rfl
  | cons c line ih =>
    have hc : c ≠ '\n' := fun hc => hline (by simp [hc])
    have hrest : '\n' ∉ line := fun h => hline (List.mem_cons_of_mem _ h)
    rw [List.cons_append, cutLine, if_neg (by simpa using hc), ih hrest]
    rfl

theorem length_cutLine (h : (cutLine cs).2 = some rest) : rest.length < cs.length := by
  induction cs with
  | nil => cases h
  | cons c cs ih =>
    rw [cutLine] at h
    split at h
    · cases h
      exact Nat.lt_succ_self _
    · exact Nat.lt_succ_of_lt (ih h)

/-- Fuel beyond the length of the text changes nothing. -/
theorem linesFrom_fuel (fuel more : Nat) (cs : List Char) (h : cs.length < fuel)
    (hmore : cs.length < more) : linesFrom fuel cs = linesFrom more cs := by
  induction fuel generalizing more cs with
  | zero => exact absurd h (Nat.not_lt_zero _)
  | succ fuel ih =>
    obtain ⟨more, rfl⟩ := Nat.exists_eq_succ_of_ne_zero (Nat.ne_zero_of_lt hmore)
    cases cs with
    | nil => rfl
    | cons c cs =>
      simp only [linesFrom]
      split
      · rfl
      · rename_i line rest hcut
        have hlength := length_cutLine (congrArg Prod.snd hcut)
        rw [ih more rest (by omega) (by omega)]

/-- The lines of a text are its first line and those of what follows it. -/
theorem lines_cut (h : cutLine cs = (line, some rest)) :
    lines cs = withoutReturn line :: lines rest := by
  have hlength := length_cutLine (congrArg Prod.snd h)
  cases cs with
  | nil => cases h
  | cons c cs =>
    rw [lines, linesFrom, h]
    · exact congrArg (withoutReturn line :: ·)
        (linesFrom_fuel _ _ rest hlength (Nat.lt_succ_self _))
    · nofun

theorem lines_last (h : cutLine cs = (line, none)) (hne : cs ≠ []) : lines cs = [line] := by
  rw [lines, linesFrom, h]
  exact hne

theorem lines_ended (hls : ∀ l ∈ ls, '\n' ∉ l) :
    lines (ended ls ++ cs) = ls.map withoutReturn ++ lines cs := by
  induction ls with
  | nil => rfl
  | cons l ls ih =>
    obtain ⟨hl, hls⟩ := List.forall_mem_cons.mp hls
    have htext : ended (l :: ls) ++ cs = l ++ '\n' :: (ended ls ++ cs) := by simp [ended]
    have hcut : cutLine (l ++ '\n' :: (ended ls ++ cs)) = (l, some (ended ls ++ cs)) := by
      rw [cutLine_append hl]
      simp [cutLine]
    rw [htext, lines_cut hcut, ih hls, List.map_cons, List.cons_append]

theorem append_cutLine (cs : List Char) :
    (cutLine cs).1 ++ ((cutLine cs).2.map ('\n' :: ·)).getD [] = cs := by
  induction cs with
  | nil => rfl
  | cons c cs ih =>
    rw [cutLine]
    split
    · rename_i hc
      obtain rfl := eq_of_beq hc
      rfl
    · exact congrArg (c :: ·) ih

theorem prefix_withoutReturn (line : List Char) : withoutReturn line <+: line := by
  rw [withoutReturn]
  split
  · exact List.dropLast_prefix line
  · exact List.prefix_refl line

/-- A text is one line, or a line with its end and the lines of a further text. -/
theorem lines_cases (hne : cs ≠ []) : lines cs = [cs] ∧ '\n' ∉ cs ∨
    ∃ first rest, cs = first ++ '\n' :: rest ∧ '\n' ∉ first ∧
      lines cs = withoutReturn first :: lines rest := by
  have hfree := not_mem_cutLine cs
  have happend := append_cutLine cs
  obtain ⟨first, rest?, hcut⟩ : ∃ first rest?, cutLine cs = (first, rest?) := ⟨_, _, rfl⟩
  rw [hcut] at hfree happend
  cases rest? with
  | none =>
    obtain rfl : first = cs := by simpa using happend
    exact .inl ⟨lines_last hcut hne, hfree⟩
  | some rest => exact .inr ⟨first, rest, happend.symm, hfree, lines_cut hcut⟩

/-- Where a line of a text stands in it: behind the lines before it. -/
theorem exists_ended_of_line (h : (lines cs)[n]? = some line) :
    ∃ ls after, cs = ended ls ++ line ++ after ∧ ls.length = n ∧ (∀ l ∈ ls, '\n' ∉ l) ∧
      '\n' ∉ line := by
  induction n generalizing cs with
  | zero =>
    have hne : cs ≠ [] := by
      rintro rfl
      cases h
    rcases lines_cases hne with ⟨hlines, hfree⟩ | ⟨first, rest, rfl, hfree, hlines⟩
    · rw [hlines] at h
      cases h
      exact ⟨[], [], by simp [ended], rfl, nofun, hfree⟩
    · rw [hlines] at h
      cases h
      obtain ⟨feed, hfirst⟩ := prefix_withoutReturn first
      refine ⟨[], feed ++ '\n' :: rest, ?_, rfl, nofun, fun hmem => ?_⟩
      · rw [← List.append_assoc, List.append_assoc (ended []), hfirst]
        rfl
      · exact hfree ((prefix_withoutReturn first).subset hmem)
  | succ n ih =>
    have hne : cs ≠ [] := by
      rintro rfl
      cases h
    rcases lines_cases hne with ⟨hlines, -⟩ | ⟨first, rest, rfl, hfree, hlines⟩
    · rw [hlines] at h
      cases h
    · rw [hlines, List.getElem?_cons_succ] at h
      obtain ⟨ls, after, rfl, hlength, hls, hline⟩ := ih h
      refine ⟨first :: ls, after, by simp [ended], by simp [hlength], ?_, hline⟩
      exact List.forall_mem_cons.mpr ⟨hfree, hls⟩

/-- A line goes on as the text does, up to its line feed or a carriage return before that. -/
theorem exists_head_lines (hline : '\n' ∉ line) (hne : line ≠ [])
    (hreturn : line.getLast? ≠ some '\r') :
    ∃ after, (lines (line ++ cs)).head? = some (line ++ after) := by
  have hcut : cutLine (line ++ cs) = (line ++ (cutLine cs).1, (cutLine cs).2) :=
    cutLine_append hline
  cases hrest : (cutLine cs).2 with
  | none =>
    rw [hrest] at hcut
    rw [lines_last hcut (by simp [hne])]
    exact ⟨_, rfl⟩
  | some rest =>
    rw [hrest] at hcut
    rw [lines_cut hcut, List.head?_cons, withoutReturn]
    split
    · rename_i hlast
      cases hafter : (cutLine cs).1 with
      | nil =>
        -- The return that is taken off would be the end of `line` itself.
        rw [hafter, List.append_nil] at hlast
        exact absurd (eq_of_beq hlast) hreturn
      | cons c after => exact ⟨(c :: after).dropLast, by rw [List.dropLast_append_cons]⟩
    · exact ⟨_, rfl⟩

end

/-- Where a text without blanks stands, its line and column say so: it is what the line holds from
the column on, if both are counted from one. -/
theorem exists_line {source part : List Char} {s : Span} (h : s.Covers 0 source part)
    (hne : part ≠ []) (hpart : ∀ c ∈ part, isBlank c = false) :
    ∃ n k line, lineColumn source s.start = (n + 1, k + 1) ∧ (lines source)[n]? = some line ∧
      (line.drop k).take part.length = part := by
  obtain ⟨before, after, rfl, hstart, -⟩ := h
  obtain ⟨ls, line, rfl, hls, hline⟩ := exists_ended before
  have hfree {c : Char} (hc : isBlank c = true) : c ∉ part := by
    intro hmem
    rw [hpart c hmem] at hc
    cases hc
  have hplace : lineColumn (ended ls ++ line ++ (part ++ after)) (byteLength (ended ls ++ line)) =
      (ls.length + 1, line.length + 1) := lineColumn_ended hls hline
  have hfeed : '\n' ∉ line ++ part := by
    rw [List.mem_append, not_or]
    exact ⟨hline, hfree (by decide)⟩
  have hreturn : (line ++ part).getLast? ≠ some '\r' := by
    rw [List.getLast?_append_of_ne_nil line hne]
    exact fun hlast => hfree (by decide) (List.mem_of_getLast? hlast)
  obtain ⟨rest, hhead⟩ : ∃ rest, (lines (line ++ part ++ after)).head? =
      some (line ++ part ++ rest) := exists_head_lines hfeed (by simp [hne]) hreturn
  have hlines : lines (ended ls ++ line ++ part ++ after) =
      ls.map withoutReturn ++ lines (line ++ part ++ after) := by
    rw [← lines_ended hls]
    simp only [List.append_assoc]
  refine ⟨ls.length, line.length, line ++ part ++ rest, ?_, ?_, ?_⟩
  · rw [hstart, Nat.zero_add, ← hplace, List.append_assoc]
  · rw [hlines, List.getElem?_append_right (by simp), List.length_map, Nat.sub_self,
      ← List.head?_eq_getElem?, hhead]
  · rw [List.append_assoc, List.drop_left, List.take_left]

end Subscriptions
