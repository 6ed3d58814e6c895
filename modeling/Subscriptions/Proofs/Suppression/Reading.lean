import Subscriptions.Suppression
import Subscriptions.Proofs.Source.Places

namespace Subscriptions

open Text

namespace Directive

/-- Rule ids as they may be written, with blanks and a comma between each two of them. -/
inductive IdList : List String → List Char → Prop
  | last {id : String} (hne : id ≠ "") (hid : id.toList.all isIdChar = true) : IdList [id] id.toList
  | cons {id : String} {ids : List String} {ws ws' text : List Char} (hne : id ≠ "")
    (hid : id.toList.all isIdChar = true) (hws : ws.all isBlank = true)
    (hws' : ws'.all isBlank = true) (h : IdList ids text) :
    IdList (id :: ids) (id.toList ++ (ws ++ ',' :: (ws' ++ text)))

/-- A directive as it may be written, from the opening of its comment to the last of its rule ids.
What stands behind that is a reason and disables nothing. -/
def Head (marker : List Char) (d : Directive) (head : List Char) : Prop :=
  ∃ sign ws ws' ids, (sign = '/' ∨ sign = '*') ∧ ws.all isBlank = true ∧ ws' ≠ [] ∧
    ws'.all isBlank = true ∧ IdList d.ruleIds ids ∧
    head = '/' :: sign :: (ws ++ (marker ++ '-' :: (d.scope.name.toList ++ (ws' ++ ids))))

/-- Reading a line from left to right comes to a directive where `text` is left of the line. -/
inductive Reads (marker : List Char) (d : Directive) (text : List Char) : List Char → Prop
  | here {rest : List Char} (h : atStart? marker text = some (d, rest)) : Reads marker d text text
  | skip {c : Char} {cs : List Char} (h : atStart? marker (c :: cs) = none)
    (hlater : Reads marker d text cs) : Reads marker d text (c :: cs)
  | behind {d' : Directive} {cs rest : List Char} (h : atStart? marker cs = some (d', rest))
    (hlater : Reads marker d text rest) : Reads marker d text cs

section
variable {marker cs rest text : List Char} {d : Directive}

theorem append_skipBlanks (cs : List Char) :
    ∃ ws, ws.all isBlank = true ∧ ws ++ skipBlanks cs = cs :=
  ⟨cs.takeWhile isBlank, List.all_takeWhile, List.takeWhile_append_dropWhile⟩

theorem append_of_afterBlanks? (h : afterBlanks? cs = some rest) :
    ∃ ws, ws ≠ [] ∧ ws.all isBlank = true ∧ ws ++ rest = cs := by
  cases cs with
  | nil => cases h
  | cons c cs =>
    rw [afterBlanks?] at h
    split at h
    · rename_i hc
      obtain ⟨ws, hws, happend⟩ := append_skipBlanks cs
      cases h
      exact ⟨c :: ws, List.cons_ne_nil _ _, by simp [hc, hws], by simp [happend]⟩
    · cases h

theorem append_of_ruleId? {id : String} (h : ruleId? cs = some (id, rest)) :
    id ≠ "" ∧ id.toList.all isIdChar = true ∧ id.toList ++ rest = cs := by
  simp only [ruleId?] at h
  split at h
  · cases h
  · rename_i hne
    cases h
    refine ⟨?_, ?_, ?_⟩
    · intro hempty
      rw [← String.toList_eq_nil_iff, String.toList_ofList] at hempty
      rw [hempty] at hne
      exact hne rfl
    · rw [String.toList_ofList]
      exact List.all_takeWhile
    · rw [String.toList_ofList]
      exact List.takeWhile_append_dropWhile

theorem append_of_ruleIds? {fuel : Nat} {ids : List String}
    (h : ruleIds? fuel cs = some (ids, rest)) : ∃ text, IdList ids text ∧ text ++ rest = cs := by
  induction fuel generalizing cs ids rest with
  | zero => cases h
  | succ fuel ih =>
    rw [ruleIds?] at h
    split at h
    · cases h
    · rename_i id after hfirst
      obtain ⟨hne, hid, rfl⟩ := append_of_ruleId? hfirst
      split at h
      · rename_i more hcomma
        split at h
        · rename_i ids' rest' hlater
          cases h
          obtain ⟨text, htext, hmore⟩ := ih hlater
          obtain ⟨ws, hws, hafter⟩ := append_skipBlanks after
          obtain ⟨ws', hws', hmore'⟩ := append_skipBlanks more
          refine ⟨_, .cons hne hid hws hws' htext, ?_⟩
          rw [← hafter, hcomma, ← hmore', ← hmore]
          simp
        · cases h
          exact ⟨id.toList, .last hne hid, rfl⟩
      · cases h
        exact ⟨id.toList, .last hne hid, rfl⟩

theorem append_of_markerAfterBlanks? (h : inComment?.markerAfterBlanks? marker cs = some rest) :
    ∃ ws, ws.all isBlank = true ∧ ws ++ (marker ++ '-' :: rest) = cs := by
  induction cs with
  | nil =>
    have happend := Scanner.append_of_afterStart? h
    exact ⟨[], rfl, by simp at happend⟩
  | cons c cs ih =>
    rw [inComment?.markerAfterBlanks?] at h
    split at h
    · rename_i after hafter
      cases h
      have happend := Scanner.append_of_afterStart? hafter
      exact ⟨[], rfl, by simpa using happend⟩
    · split at h
      · rename_i hc
        obtain ⟨ws, hws, happend⟩ := ih h
        exact ⟨c :: ws, by simp [hc, hws], by simp [happend]⟩
      · cases h

theorem append_of_scope? {s : Scope} (h : scope? cs = some (s, rest)) :
    s.name.toList ++ rest = cs := by
  obtain ⟨s', -, hfound⟩ := List.exists_of_findSome?_eq_some h
  obtain ⟨after, hafter, heq⟩ := Option.map_eq_some_iff.mp hfound
  cases heq
  exact Scanner.append_of_afterStart? hafter

theorem suffix_of_afterEnd? (h : afterEnd? cs = some rest) : rest <:+ cs := by
  have hskip : skipBlanks cs <:+ cs := List.dropWhile_suffix _
  rw [afterEnd?] at h
  split at h
  · cases h
    exact List.nil_suffix
  · rename_i hend
    cases h
    rw [hend] at hskip
    exact (List.suffix_append ['*', '/'] rest).trans hskip
  · cases h

theorem suffix_of_reason? {r : List Char} (h : reason? cs = some (r, rest)) : rest <:+ cs := by
  induction cs generalizing r with
  | nil => cases h
  | cons c cs ih =>
    rw [reason?] at h
    split at h
    · rename_i hend
      cases h
      exact (suffix_of_afterEnd? hend).trans (List.suffix_cons c cs)
    · obtain ⟨⟨r', rest'⟩, hlater, heq⟩ := Option.map_eq_some_iff.mp h
      cases heq
      exact (ih hlater).trans (List.suffix_cons c cs)

theorem suffix_of_reasonAfter? {r : List Char} (h : reasonAfter? cs = some (r, rest)) :
    rest <:+ cs := by
  have hskip : skipBlanks cs <:+ cs := List.dropWhile_suffix _
  rw [reasonAfter?] at h
  split at h
  · split at h
    · cases h
    · cases h
      exact List.nil_suffix
  · exact (suffix_of_reason? h).trans hskip

theorem suffix_of_markedReason? {r : List Char} (h : markedReason? cs = some (r, rest)) :
    rest <:+ cs := by
  have hskip : skipBlanks cs <:+ cs := List.dropWhile_suffix _
  rw [markedReason?] at h
  split at h
  · rename_i after hmark
    rw [hmark] at hskip
    exact (suffix_of_reasonAfter? h).trans ((List.suffix_cons ':' after).trans hskip)
  · rename_i c after hmark
    rw [hmark] at hskip
    split at h
    · have hmarked : after <:+ '-' :: '-' :: c :: after := List.suffix_append ['-', '-', c] after
      exact (suffix_of_reasonAfter? h).trans (hmarked.trans hskip)
    · cases h
  · cases h

/-- What is read in a comment that has opened, and what follows the comment. -/
theorem written_of_inComment? (h : inComment? marker cs = some (d, rest)) :
    ∃ ws ws' ids tail, ws.all isBlank = true ∧ ws' ≠ [] ∧ ws'.all isBlank = true ∧
      IdList d.ruleIds ids ∧
      ws ++ (marker ++ '-' :: (d.scope.name.toList ++ (ws' ++ ids))) ++ tail = cs ∧
      rest <:+ tail := by
  simp only [inComment?, Option.bind_eq_bind, Option.bind_eq_some_iff] at h
  obtain ⟨cs₁, hmarker, ⟨scope, cs₂⟩, hscope, cs₃, hblanks, ⟨ids, tail⟩, hids, hreason⟩ := h
  obtain ⟨ws, hws, rfl⟩ := append_of_markerAfterBlanks? hmarker
  obtain rfl := append_of_scope? hscope
  obtain ⟨ws', hne, hws', rfl⟩ := append_of_afterBlanks? hblanks
  obtain ⟨text, htext, rfl⟩ := append_of_ruleIds? hids
  have hread : d.scope = scope ∧ d.ruleIds = ids ∧ rest <:+ tail := by
    split at hreason
    · rename_i hmarked
      cases hreason
      exact ⟨rfl, rfl, suffix_of_markedReason? hmarked⟩
    · obtain ⟨after, hend, heq⟩ := Option.bind_eq_some_iff.mp hreason
      cases heq
      exact ⟨rfl, rfl, suffix_of_afterEnd? hend⟩
  obtain ⟨rfl, rfl, hrest⟩ := hread
  exact ⟨ws, ws', text, tail, hws, hne, hws', htext, by simp, hrest⟩

theorem written_of_atStart? (h : atStart? marker cs = some (d, rest)) :
    ∃ head tail, Head marker d head ∧ head ++ tail = cs ∧ rest <:+ tail := by
  unfold atStart? at h
  split at h
  · obtain ⟨ws, ws', ids, tail, hws, hne, hws', hids, rfl, hrest⟩ := written_of_inComment? h
    exact ⟨_, tail, ⟨'/', ws, ws', ids, .inl rfl, hws, hne, hws', hids, rfl⟩, rfl, hrest⟩
  · obtain ⟨ws, ws', ids, tail, hws, hne, hws', hids, rfl, hrest⟩ := written_of_inComment? h
    exact ⟨_, tail, ⟨'*', ws, ws', ids, .inr rfl, hws, hne, hws', hids, rfl⟩, rfl, hrest⟩
  · cases h

theorem slash_not_mem {q : Char → Bool} (hcs : cs.all q = true) (hq : q '/' = false) : '/' ∉ cs := by
  intro hmem
  have hslash := List.all_eq_true.mp hcs '/' hmem
  rw [hq] at hslash
  cases hslash

theorem IdList.slash_not_mem {ids : List String} (h : IdList ids text) : '/' ∉ text := by
  induction h with
  | last _ hid => exact Directive.slash_not_mem hid (by decide)
  | @cons id _ ws ws' _ _ hid hws hws' _ ih =>
    have hid' : '/' ∉ id.toList := Directive.slash_not_mem hid (by decide)
    have hblank : '/' ∉ ws := Directive.slash_not_mem hws (by decide)
    have hblank' : '/' ∉ ws' := Directive.slash_not_mem hws' (by decide)
    simp [hid', hblank, hblank', ih]

/-- Behind its opening a directive holds a slash only in the marker. -/
theorem Head.opening {head : List Char} (h : Head marker d head) :
    ∃ sign tail, head = '/' :: sign :: tail ∧ (sign = '/' ∨ sign = '*') ∧
      ('/' ∈ tail → '/' ∈ marker) := by
  obtain ⟨sign, ws, ws', ids, hsign, hws, -, hws', hids, rfl⟩ := h
  have hblank : '/' ∉ ws := slash_not_mem hws (by decide)
  have hblank' : '/' ∉ ws' := slash_not_mem hws' (by decide)
  have hscope : '/' ∉ d.scope.name.toList := by cases d.scope <;> decide
  refine ⟨sign, _, rfl, hsign, fun hmem => ?_⟩
  simpa [hblank, hblank', hscope, hids.slash_not_mem] using hmem

/-- What follows a directive is shorter. -/
theorem suffix_of_atStart? {c : Char} (h : atStart? marker (c :: cs) = some (d, rest)) :
    rest <:+ cs := by
  obtain ⟨head, tail, ⟨_, _, _, _, -, -, -, -, -, rfl⟩, happend, hrest⟩ := written_of_atStart? h
  obtain ⟨-, rfl⟩ := List.cons.inj happend
  exact hrest.trans (List.suffix_append _ _)

/-- The directives of a line are those that reading comes to. -/
theorem mem_inLine_iff {fuel : Nat} (h : cs.length < fuel) :
    d ∈ inLine marker fuel cs ↔ ∃ text, Reads marker d text cs := by
  induction fuel generalizing cs with
  | zero => exact absurd h (Nat.not_lt_zero _)
  | succ fuel ih =>
    cases cs with
    | nil =>
      constructor
      · intro hmem
        cases hmem
      · rintro ⟨text, ⟨⟨⟩⟩ | - | ⟨⟨⟩, -⟩⟩
    | cons c cs =>
      have hlength : cs.length < fuel := Nat.lt_of_succ_lt_succ h
      rw [inLine]
      cases hstart : atStart? marker (c :: cs) with
      | none =>
        refine (ih hlength).trans ⟨fun ⟨text, hreads⟩ => ⟨text, .skip hstart hreads⟩, ?_⟩
        rintro ⟨text, hreads⟩
        cases hreads with
        | here hfound =>
          rw [hstart] at hfound
          cases hfound
        | skip _ hlater => exact ⟨text, hlater⟩
        | behind hfound _ =>
          rw [hstart] at hfound
          cases hfound
      | some found =>
        obtain ⟨d', rest⟩ := found
        have hrest := (suffix_of_atStart? hstart).length_le
        refine List.mem_cons.trans ⟨?_, ?_⟩
        · rintro (rfl | hlater)
          · exact ⟨_, .here hstart⟩
          · obtain ⟨text, hreads⟩ := (ih (by omega)).mp hlater
            exact ⟨text, .behind hstart hreads⟩
        · rintro ⟨text, hreads⟩
          cases hreads with
          | here hfound =>
            rw [hstart] at hfound
            cases hfound
            exact .inl rfl
          | skip hnone _ =>
            rw [hstart] at hnone
            cases hnone
          | behind hfound hlater =>
            rw [hstart] at hfound
            cases hfound
            exact .inr ((ih (by omega)).mpr ⟨text, hlater⟩)

theorem Reads.suffix (h : Reads marker d text cs) : text <:+ cs := by
  induction h with
  | here => exact List.suffix_refl _
  | skip _ _ ih => exact ih.trans (List.suffix_cons _ _)
  | @behind d' cs rest h _ ih =>
    obtain ⟨_, _, -, rfl, hrest⟩ := written_of_atStart? h
    exact (ih.trans hrest).trans (List.suffix_append _ _)

theorem Reads.head (h : Reads marker d text cs) : ∃ head, Head marker d head ∧ head <+: text := by
  induction h with
  | here h =>
    obtain ⟨head, tail, hhead, happend, -⟩ := written_of_atStart? h
    exact ⟨head, hhead, ⟨tail, happend⟩⟩
  | skip _ _ ih => exact ih
  | behind _ _ ih => exact ih

end

end Directive

namespace Suppressions

open Directive

/-- Reading the source comes to a directive, and its text up to its last rule id is at the span. -/
def Found (marker : String) (source : List Char) (s : Span) (d : Directive) : Prop :=
  ∃ n k line head, lineColumn source s.start = (n + 1, k + 1) ∧ (lines source)[n]? = some line ∧
    Reads marker.toList d (line.drop k) line ∧ head <+: line.drop k ∧
    Head marker.toList d head ∧ s.Covers 0 source head

section
variable {marker : String} {source : List Char} {e : Disable} {n : Nat}

theorem mem_ofLine_iff {number : Nat} {line : List Char} : e ∈ ofLine marker.toList number line ↔
    ∃ d text, Reads marker.toList d text line ∧ e ∈ ofDirective number d := by
  simp only [ofLine, List.mem_flatMap, mem_inLine_iff (Nat.lt_succ_self _), exists_and_right]

theorem mem_ofLines_iff {ls : List (List Char)} {number : Nat} :
    e ∈ ofLines marker.toList number ls ↔ ∃ n line, ls[n]? = some line ∧
      ∃ d text, Reads marker.toList d text line ∧ e ∈ ofDirective (number + n) d := by
  induction ls generalizing number with
  | nil => simp [ofLines]
  | cons l ls ih =>
    have hnumber (n : Nat) : number + 1 + n = number + (n + 1) := by omega
    rw [ofLines, List.mem_append, mem_ofLine_iff, ih]
    constructor
    · rintro (hhere | ⟨n, line, hline, d, text, hreads, he⟩)
      · exact ⟨0, l, rfl, hhere⟩
      · rw [hnumber] at he
        exact ⟨n + 1, line, hline, d, text, hreads, he⟩
    · rintro ⟨n, line, hline, d, text, hreads, he⟩
      cases n with
      | zero =>
        cases hline
        exact .inl ⟨d, text, hreads, he⟩
      | succ n =>
        rw [← hnumber] at he
        exact .inr ⟨n, line, hline, d, text, hreads, he⟩

/-- Where reading a line of a source comes to a directive, the directive is found in the source. -/
theorem exists_found {line text : List Char} {d : Directive} (hline : (lines source)[n]? = some line)
    (hreads : Reads marker.toList d text line) :
    ∃ s, Found marker source s d ∧ (lineColumn source s.start).1 = n + 1 := by
  obtain ⟨ls, after, hsource, hlength, hls, hfree⟩ := exists_ended_of_line hline
  obtain ⟨before, rfl⟩ := hreads.suffix
  obtain ⟨head, hhead, tail, rfl⟩ := hreads.head
  have hbefore : '\n' ∉ before := fun h => hfree (List.mem_append_left _ h)
  have hplace : lineColumn source (byteLength (ended ls ++ before)) = (n + 1, before.length + 1) := by
    rw [hsource, ← List.append_assoc (ended ls), List.append_assoc _ _ after, ← hlength]
    exact lineColumn_ended hls hbefore
  have hdrop : (before ++ (head ++ tail)).drop before.length = head ++ tail := List.drop_left
  refine ⟨⟨byteLength (ended ls ++ before), byteLength (ended ls ++ before) + byteLength head⟩,
    ⟨n, before.length, _, head, hplace, hline, ?_, ?_, hhead, ?_⟩, congrArg Prod.fst hplace⟩
  · rwa [hdrop]
  · rw [hdrop]
    exact List.prefix_append _ _
  · exact ⟨ended ls ++ before, tail ++ after, by simp [hsource], (Nat.zero_add _).symm, rfl⟩

/-- Each disable of a source comes from a directive that is found there, and the other way round. -/
theorem mem_written_iff : e ∈ written marker source ↔
    ∃ s d, Found marker source s d ∧ e ∈ ofDirective (lineColumn source s.start).1 d := by
  rw [written, mem_ofLines_iff]
  constructor
  · rintro ⟨n, line, hline, d, text, hreads, he⟩
    obtain ⟨s, hfound, hnumber⟩ := exists_found hline hreads
    refine ⟨s, d, hfound, ?_⟩
    rwa [hnumber, Nat.add_comm]
  · rintro ⟨s, d, ⟨n, k, line, head, hplace, hline, hreads, -⟩, he⟩
    rw [hplace, Nat.add_comm] at he
    exact ⟨n, line, hline, d, line.drop k, hreads, he⟩

end

end Suppressions

end Subscriptions
