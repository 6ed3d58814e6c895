import Mathlib.Data.List.DropRight
import Mathlib.Data.Prod.Lex
import Subscriptions.Proofs.Source.Places

namespace Subscriptions

def lastLine (cs : List Char) : List Char := cs.rtakeWhile (· != '\n')

/-- Where a search in numbers that rise ends, by the number of those that come before. -/
inductive Spot
  /-- At a number that is equal. -/
  | found (before : Nat)
  /-- Between numbers, or at one of the ends. -/
  | between (before : Nat)
deriving Repr, DecidableEq

namespace Spot

/-- The place of the last number that is not above the one that has been looked for. There is none if
all of them are above it. -/
def last? : Spot → Option Nat
  | found n => some n
  | between 0 => none
  | between (n + 1) => some n

def next : Spot → Spot
  | found n => found (n + 1)
  | between n => between (n + 1)

/-- How many numbers are not above the one that has been looked for. -/
def upTo : Spot → Nat
  | found n => n + 1
  | between n => n

end Spot

def spotOf (n : Nat) : List Nat → Spot
  | [] => .between 0
  | m :: ms => if m = n then .found 0 else if n < m then .between 0 else (spotOf n ms).next

/-- The line and column of a byte offset by a search in the line starts. It gives nothing if the
offset is before all lines, or if its line starts past the offset or the end of the source. -/
def searchedLineColumn? (source : List Char) (offset : Nat) : Option (Nat × Nat) := do
  let line ← (spotOf offset (lineStarts source)).last?
  let start ← (lineStarts source)[line]?
  let stop := min offset (byteLength source)
  let width ← (Span.mk start stop).length?
  return (line + 1, ((slice? source ⟨start, stop⟩).map List.length).getD width + 1)

section
variable {ls : List (List Char)} {before between after line cs source : List Char} {ms : List Nat}
  {m n : Nat}

theorem lastLine_append (hfree : '\n' ∉ between) : lastLine (before ++ between) =
    lastLine before ++ between := by
  induction between using List.reverseRecOn with
  | nil => simp
  | append_singleton between c ih =>
    rw [List.mem_append, not_or, List.mem_singleton] at hfree
    have hc : (c != '\n') = true := bne_iff_ne.mpr (Ne.symm hfree.2)
    have hlast : lastLine (before ++ between ++ [c]) = lastLine (before ++ between) ++ [c] :=
      List.rtakeWhile_concat_pos _ _ c hc
    rw [← List.append_assoc, hlast, ih hfree.1, List.append_assoc]

theorem lastLine_feed (before : List Char) (hline : '\n' ∉ line) :
    lastLine (before ++ '\n' :: line) = line := by
  have hnone : lastLine (before ++ ['\n']) = [] := List.rtakeWhile_concat_neg _ _ _ (by simp)
  rw [List.append_cons, lastLine_append hline, hnone, List.nil_append]

theorem lastLine_ended (ls : List (List Char)) (hline : '\n' ∉ line) :
    lastLine (ended ls ++ line) = line := by
  cases ls using List.reverseRecOn with
  | nil => exact (lastLine_append hline).trans (List.nil_append _)
  | append_singleton ls l =>
    have htext : ended (ls ++ [l]) ++ line = ended ls ++ l ++ '\n' :: line := by simp [ended]
    rw [htext, lastLine_feed _ hline]

/-- Each line has one line feed at its end, and perhaps others in it. -/
theorem count_ended_eq_add (ls : List (List Char)) :
    (ended ls).count '\n' = ls.length + ls.flatten.count '\n' := by
  induction ls with
  | nil => rfl
  | cons l ls ih =>
    have htext : ended (l :: ls) = l ++ '\n' :: ended ls := by simp [ended]
    rw [htext, List.count_append, List.count_cons_self, ih, List.flatten_cons, List.count_append,
      List.length_cons]
    omega

theorem not_mem_flatten_iff : '\n' ∉ ls.flatten ↔ ∀ l ∈ ls, '\n' ∉ l := by
  rw [List.mem_flatten, not_exists]
  exact forall_congr' fun l => not_and

theorem count_ended (hls : ∀ l ∈ ls, '\n' ∉ l) : (ended ls).count '\n' = ls.length := by
  have hfree := not_mem_flatten_iff.mpr hls
  rw [count_ended_eq_add, List.count_eq_zero_of_not_mem hfree, Nat.add_zero]

/-- Between characters, line and column count the text before the offset. -/
theorem lineColumn_between (before after : List Char) :
    lineColumn (before ++ after) (byteLength before) =
      (before.count '\n' + 1, (lastLine before).length + 1) := by
  obtain ⟨ls, line, rfl, hls, hline⟩ := exists_ended before
  rw [lineColumn_ended hls hline, List.count_append, count_ended hls,
    List.count_eq_zero_of_not_mem hline, lastLine_ended ls hline, Nat.add_zero]

/-- More text before an offset puts it on a later line, or further to the right on its line. -/
theorem counts_lt (hne : between ≠ []) :
    toLex (before.count '\n' + 1, (lastLine before).length + 1) <
      toLex ((before ++ between).count '\n' + 1, (lastLine (before ++ between)).length + 1) := by
  rw [Prod.Lex.toLex_lt_toLex, List.count_append]
  by_cases hfeed : '\n' ∈ between
  · exact .inl (by have := List.count_pos_iff.mpr hfeed; omega)
  · refine .inr ⟨by rw [List.count_eq_zero_of_not_mem hfeed], ?_⟩
    have hpos := List.length_pos_iff.mpr hne
    rw [lastLine_append hfeed, List.length_append]
    omega

theorem upTo_next (s : Spot) : s.next.upTo = s.upTo + 1 := by cases s <;> rfl

theorem last?_eq_some (s : Spot) (h : s.upTo = n + 1) : s.last? = some n := by
  cases s with
  | found m => exact congrArg some (Nat.succ.inj h)
  | between m =>
    obtain rfl : m = n + 1 := h
    rfl

/-- The search passes just the numbers that are not above the one it looks for. -/
theorem upTo_spotOf (n : Nat) (hrise : ms.Pairwise (· < ·)) :
    (spotOf n ms).upTo = (ms.takeWhile (· ≤ n)).length := by
  induction ms with
  | nil => rfl
  | cons m ms ih =>
    obtain ⟨hm, hrise⟩ := List.pairwise_cons.mp hrise
    rw [spotOf]
    split
    · -- Behind the number that is found all are above it.
      subst m
      have hrest : ms.takeWhile (· ≤ n) = [] := by
        cases ms with
        | nil => rfl
        | cons k ms =>
          have hk : n < k := hm k List.mem_cons_self
          exact List.takeWhile_cons_of_neg (by simpa using hk)
      rw [List.takeWhile_cons_of_pos (by simp), hrest]
      rfl
    · split
      · rename_i hlt
        rw [List.takeWhile_cons_of_neg (by simpa using hlt)]
        rfl
      · rw [upTo_next, ih hrise, List.takeWhile_cons_of_pos (by simp; omega), List.length_cons]

theorem le_of_mem_laterLineStarts (h : m ∈ laterLineStarts n cs) : m ≤ n + byteLength cs := by
  induction cs generalizing n with
  | nil => cases h
  | cons c cs ih =>
    rw [laterLineStarts] at h
    split at h
    · rename_i hc
      have hsize : c.utf8Size = 1 := by rw [eq_of_beq hc]; rfl
      rw [byteLength_cons, hsize]
      rcases List.mem_cons.mp h with rfl | h
      · omega
      · have := ih h
        omega
    · have := ih h
      rw [byteLength_cons]
      omega

theorem pairwise_laterLineStarts (n : Nat) (cs : List Char) :
    (laterLineStarts n cs).Pairwise (· < ·) := by
  induction cs generalizing n with
  | nil => exact .nil
  | cons c cs ih =>
    rw [laterLineStarts]
    split
    · exact List.pairwise_cons.mpr ⟨fun m hm => lt_of_mem_laterLineStarts hm, ih _⟩
    · exact ih _

theorem pairwise_lineStarts (source : List Char) : (lineStarts source).Pairwise (· < ·) :=
  List.pairwise_cons.mpr ⟨fun _ hm => lt_of_mem_laterLineStarts hm, pairwise_laterLineStarts 0 source⟩

theorem le_of_mem_lineStarts (h : m ∈ lineStarts source) : m ≤ byteLength source := by
  rcases List.mem_cons.mp h with rfl | h
  · exact Nat.zero_le _
  · rw [← Nat.zero_add (byteLength source)]
    exact le_of_mem_laterLineStarts h

/-- The search for a line succeeds at every offset, and gives the line and column of the offset. -/
theorem searchedLineColumn?_eq (source : List Char) (offset : Nat) :
    searchedLineColumn? source offset = some (lineColumn source offset) := by
  -- The lines that start up to the offset are a first part of all lines; the first line is one of them.
  obtain ⟨starts, hstarts⟩ : ∃ starts, (lineStarts source).takeWhile (· ≤ offset) = 0 :: starts :=
    ⟨_, List.takeWhile_cons_of_pos (by simp)⟩
  obtain ⟨later, hlater⟩ := List.takeWhile_prefix (· ≤ offset) (l := lineStarts source)
  have hline : (spotOf offset (lineStarts source)).last? = some starts.length := by
    refine last?_eq_some _ ?_
    rw [upTo_spotOf offset (pairwise_lineStarts source), hstarts, List.length_cons]
  have hlast : (0 :: starts)[starts.length]? = some (starts.getLastD 0) := by
    have hlast := List.getLast?_eq_getElem? (l := 0 :: starts)
    rw [List.length_cons, Nat.add_sub_cancel, List.getLast?_cons] at hlast
    exact hlast.symm.trans (by rw [List.getLastD_eq_getLast?])
  have hstart : (lineStarts source)[starts.length]? = some (starts.getLastD 0) := by
    rw [← hlater, hstarts, List.getElem?_append_left (by simp), hlast]
  have hoffset : starts.getLastD 0 ≤ offset := by
    have hmem : starts.getLastD 0 ∈ (lineStarts source).takeWhile (· ≤ offset) :=
      hstarts ▸ List.mem_of_getElem? hlast
    exact of_decide_eq_true (List.mem_takeWhile_imp (p := fun m => decide (m ≤ offset)) hmem)
  have hend : starts.getLastD 0 ≤ byteLength source :=
    le_of_mem_lineStarts (List.mem_of_getElem? hstart)
  have hwidth : (Span.mk (starts.getLastD 0) (min offset (byteLength source))).length? =
      some (min offset (byteLength source) - starts.getLastD 0) := if_pos (le_min hoffset hend)
  simp only [searchedLineColumn?, hline, hstart, hwidth, lineColumn, hstarts, List.getLastD_cons,
    Option.bind_eq_bind, Option.bind_some, Option.pure_def, List.length_cons]
  cases slice? source ⟨starts.getLastD 0, min offset (byteLength source)⟩ <;> rfl

end

/-- The mapping of offsets to lines and columns. Between characters, the line is one more than the
number of line feeds before the offset, and the column one more than the number of characters
since the last of them; of two such offsets the later one comes later in the order of lines and
columns; and at every offset the search for the line is defined and comes to the same result. -/
theorem lineColumn_maps (source : List Char) :
    (∀ before after, source = before ++ after → lineColumn source (byteLength before) =
      (before.count '\n' + 1, (lastLine before).length + 1)) ∧
    (∀ m n, IsBoundary source m → IsBoundary source n → m < n →
      toLex (lineColumn source m) < toLex (lineColumn source n)) ∧
    ∀ offset, searchedLineColumn? source offset = some (lineColumn source offset) := by
  refine ⟨?_, fun m n hm hn hlt => ?_, searchedLineColumn?_eq source⟩
  · rintro before after rfl
    exact lineColumn_between before after
  · obtain ⟨between, before, after, rfl, hstart, hstop⟩ := exists_covers hm hn (Nat.le_of_lt hlt)
    obtain rfl : m = byteLength before := hstart.trans (Nat.zero_add _)
    obtain rfl : n = byteLength (before ++ between) := hstop.trans (byteLength_append _ _).symm
    have hne : between ≠ [] := by
      rintro rfl
      simp at hlt
    have hm : lineColumn (before ++ between ++ after) (byteLength before) =
        (before.count '\n' + 1, (lastLine before).length + 1) := by
      rw [List.append_assoc, lineColumn_between]
    rw [hm, lineColumn_between]
    exact counts_lt hne

end Subscriptions
