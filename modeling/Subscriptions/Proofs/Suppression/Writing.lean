import Mathlib.Data.List.Dedup
import Mathlib.Data.List.Infix
import Subscriptions.Proofs.Suppression.Listing
import Subscriptions.Proofs.Syntax.Rescanning

namespace Subscriptions

open Text

/-- What sets a reason off from the rule ids. -/
inductive ReasonMark
  | colon
  | hyphens
deriving Repr, DecidableEq, Inhabited

def ReasonMark.text : ReasonMark → List Char
  | .colon => [':', ' ']
  | .hyphens => [' ', '-', '-', ' ']

/-- A disable comment, in one of the forms in which it may be written. -/
structure DisableComment where
  block : Bool
  scope : Scope
  ruleIds : List String
  reason : Option (ReasonMark × String)
deriving Repr, DecidableEq, Inhabited

namespace DisableComment

/-- The character that makes the start of a comment of a slash. -/
def sign (block : Bool) : Char := if block then '*' else '/'

/-- What stands behind the reason, or behind the rule ids if there is none. -/
def closing (block : Bool) : List Char := if block then [' ', '*', '/'] else []

def idList (ids : List String) : List Char := [',', ' '].intercalate (ids.map String.toList)

def reasonText : Option (ReasonMark × String) → List Char
  | none => []
  | some (mark, reason) => mark.text ++ reason.toList

def text (marker : String) (c : DisableComment) : List Char :=
  '/' :: sign c.block :: ' ' :: (marker.toList ++ '-' :: (c.scope.name.toList ++ ' ' ::
    (idList c.ruleIds ++ (reasonText c.reason ++ closing c.block))))

def directive (c : DisableComment) : Directive := ⟨c.scope, c.ruleIds, c.reason.map Prod.snd⟩

/-- A letter or digit of ASCII, an underscore or a hyphen. -/
def isIdSign (x : Char) : Bool := isAsciiAlphanumeric x || x == '_' || x == '-'

def IsRuleId (id : String) : Prop := id ≠ "" ∧ id.toList.all isIdSign = true

instance (id : String) : Decidable (IsRuleId id) :=
  inferInstanceAs (Decidable (id ≠ "" ∧ id.toList.all isIdSign = true))

/-- A text that can be the reason of a comment: there are no blanks at its ends, and it does not end
the comment itself. -/
structure Plain (r : List Char) : Prop where
  nonempty : r ≠ []
  head : ∀ x ∈ r.head?, isBlank x = false
  last : ∀ x ∈ r.getLast?, isBlank x = false
  free : ¬ ['*', '/'] <:+: r

/-- A comment that names some rules, and gives a proper reason if it gives one. -/
structure Writable (c : DisableComment) : Prop where
  some_id : c.ruleIds ≠ []
  id : ∀ id ∈ c.ruleIds, IsRuleId id
  reason : ∀ r ∈ c.reason, Plain r.2.toList

end DisableComment

namespace Directive

open DisableComment Scanner

section
variable {marker p r cs rest : List Char} {block : Bool} {x : Char} {id : String} {ids : List String}

/-- A text that starts with itself behind one more character repeats that character. -/
theorem eq_of_prefix_cons (h : p <+: x :: (p ++ rest)) : ∀ y ∈ p, y = x := by
  induction p generalizing x with
  | nil => simp
  | cons a p ih =>
    obtain ⟨rfl, htail⟩ := List.cons_prefix_cons.mp h
    intro y hy
    rcases List.mem_cons.mp hy with rfl | hy
    · rfl
    · exact ih htail y hy

/-- Behind one blank the marker is found, even if it starts with blanks itself. -/
theorem markerAfterBlanks?_written (marker rest : List Char) :
    inComment?.markerAfterBlanks? marker (' ' :: (marker ++ '-' :: rest)) = some rest := by
  have hsplit : marker ++ '-' :: rest = (marker ++ ['-']) ++ rest := by simp
  have hnone : afterStart? (marker ++ ['-']) (' ' :: ((marker ++ ['-']) ++ rest)) = none := by
    cases hfound : afterStart? (marker ++ ['-']) (' ' :: ((marker ++ ['-']) ++ rest)) with
    | none => rfl
    | some beyond =>
      have hprefix : marker ++ ['-'] <+: ' ' :: ((marker ++ ['-']) ++ rest) :=
        ⟨beyond, append_of_afterStart? hfound⟩
      have hhyphen := eq_of_prefix_cons hprefix '-' (by simp)
      cases hhyphen
  have hblank : isBlank ' ' = true := by decide
  have hthere : afterStart? (marker ++ ['-']) (marker ++ ['-'] ++ rest) = some rest :=
    afterStart?_append _
  rw [hsplit, inComment?.markerAfterBlanks?, hnone]
  simp only [hblank, if_true]
  cases htext : marker ++ ['-'] ++ rest with
  | nil => simp at htext
  | cons c cs =>
    rw [htext] at hthere
    rw [inComment?.markerAfterBlanks?, hthere]

theorem scope?_written (s : Scope) (rest : List Char) :
    scope? (s.name.toList ++ ' ' :: rest) = some (s, ' ' :: rest) := by
  cases s <;> rfl

theorem toNat_lt_of_isIdSign (h : isIdSign x = true) : x.toNat < 0x80 := by
  rw [isIdSign, Bool.or_eq_true, Bool.or_eq_true, beq_iff_eq, beq_iff_eq] at h
  rcases h with (h | rfl) | rfl
  · have hranges : (decide (65 ≤ x.val ∧ x.val ≤ 90) ||
        (decide (97 ≤ x.val) && decide (x.val ≤ 122)) ||
        (decide (48 ≤ x.val) && decide (x.val ≤ 57))) = true := h
    simp only [Bool.or_eq_true, Bool.and_eq_true, decide_eq_true_eq, UInt32.le_iff_toNat_le]
      at hranges
    change ((65 ≤ x.toNat ∧ x.toNat ≤ 90) ∨ (97 ≤ x.toNat ∧ x.toNat ≤ 122)) ∨
      (48 ≤ x.toNat ∧ x.toNat ≤ 57) at hranges
    omega
  · decide
  · decide

theorem isIdChar_of_isIdSign (h : isIdSign x = true) : isIdChar x = true := by
  have hascii := toNat_lt_of_isIdSign h
  rw [isIdChar, isWordChar, if_pos hascii]
  exact h

theorem isBlank_of_isIdSign (h : isIdSign x = true) : isBlank x = false :=
  isBlank_of_class (by decide) h

/-- What may stand behind rule ids: no part of an id, and no further id. -/
def Stops (rest : List Char) : Prop :=
  (∀ x ∈ rest.head?, isIdChar x = false) ∧ ∀ more, skipBlanks rest ≠ ',' :: more

theorem ruleId?_written (h : IsRuleId id) (hrest : ∀ x ∈ rest.head?, isIdChar x = false) :
    ruleId? (id.toList ++ rest) = some (id, rest) := by
  obtain ⟨hne, hid⟩ := h
  have hall : id.toList.all isIdChar = true :=
    List.all_eq_true.mpr fun x hx => isIdChar_of_isIdSign (List.all_eq_true.mp hid x hx)
  have hempty : id.toList.isEmpty = false := by simpa using hne
  simp only [ruleId?, takeWhile_append_stop hall hrest, dropWhile_append_stop hall hrest, hempty,
    String.ofList_toList]
  rfl

theorem idList_cons_cons (id id' : String) (ids : List String) :
    idList (id :: id' :: ids) = id.toList ++ ',' :: ' ' :: idList (id' :: ids) := by
  simp [idList]

theorem skipBlanks_of_head (h : ∀ x ∈ cs.head?, isBlank x = false) : skipBlanks cs = cs := by
  cases cs with
  | nil => rfl
  | cons x cs => simp [skipBlanks, h x rfl]

theorem skipBlanks_blank (cs : List Char) : skipBlanks (' ' :: cs) = skipBlanks cs := rfl

/-- Rule ids start with no blank. -/
theorem head_idList (hne : ids ≠ []) (hids : ∀ id ∈ ids, IsRuleId id) :
    ∀ x ∈ (idList ids ++ rest).head?, isBlank x = false := by
  obtain ⟨id, ids, rfl⟩ := List.exists_cons_of_ne_nil hne
  obtain ⟨⟨hid, hsigns⟩, -⟩ := List.forall_mem_cons.mp hids
  obtain ⟨y, ys, hy⟩ := List.exists_cons_of_ne_nil (mt String.toList_eq_nil_iff.mp hid)
  have htext : ∃ more, idList (id :: ids) ++ rest = y :: more := by
    cases ids with
    | nil => exact ⟨ys ++ rest, by simp [idList, hy]⟩
    | cons id' ids => exact ⟨_, by rw [idList_cons_cons, hy]; rfl⟩
  obtain ⟨more, hmore⟩ := htext
  rw [hmore]
  rintro _ ⟨⟩
  rw [hy, List.all_cons, Bool.and_eq_true] at hsigns
  exact isBlank_of_isIdSign hsigns.1

theorem ruleIds?_written (hne : ids ≠ []) (hids : ∀ id ∈ ids, IsRuleId id) (hrest : Stops rest)
    (fuel : Nat) (hfuel : ids.length ≤ fuel) :
    ruleIds? fuel (idList ids ++ rest) = some (ids, rest) := by
  induction ids generalizing fuel with
  | nil => exact absurd rfl hne
  | cons id ids ih =>
    obtain ⟨fuel, rfl⟩ := Nat.exists_eq_succ_of_ne_zero (Nat.ne_zero_of_lt hfuel)
    obtain ⟨hid, hids⟩ := List.forall_mem_cons.mp hids
    cases ids with
    | nil =>
      have htext : idList [id] ++ rest = id.toList ++ rest := by simp [idList]
      rw [htext, ruleIds?, ruleId?_written hid hrest.1]
      dsimp only
      split
      · rename_i more hmore
        exact absurd hmore (hrest.2 more)
      · rfl
    | cons id' ids =>
      have hlater := ih (List.cons_ne_nil _ _) hids fuel (Nat.le_of_succ_le_succ hfuel)
      have htext : idList (id :: id' :: ids) ++ rest =
          id.toList ++ ',' :: ' ' :: (idList (id' :: ids) ++ rest) := by
        simp [idList_cons_cons]
      have hcomma : ∀ x ∈ (',' :: ' ' :: (idList (id' :: ids) ++ rest)).head?,
          isIdChar x = false := by
        rintro _ ⟨⟩
        decide
      have hskip : skipBlanks (' ' :: (idList (id' :: ids) ++ rest)) =
          idList (id' :: ids) ++ rest :=
        skipBlanks_of_head (head_idList (List.cons_ne_nil _ _) hids)
      have hstay (more : List Char) : skipBlanks (',' :: more) = ',' :: more := rfl
      rw [htext, ruleIds?, ruleId?_written hid hcomma]
      simp only [hstay, hskip, hlater]

theorem length_le_idList (hids : ∀ id ∈ ids, IsRuleId id) : ids.length ≤ (idList ids).length := by
  induction ids with
  | nil => simp
  | cons id ids ih =>
    obtain ⟨hid, hids⟩ := List.forall_mem_cons.mp hids
    have hpos : 0 < id.toList.length :=
      List.length_pos_iff.mpr (mt String.toList_eq_nil_iff.mp hid.1)
    have hlater := ih hids
    cases ids with
    | nil =>
      rw [idList, List.map_singleton, List.intercalate_singleton]
      exact hpos
    | cons id' ids =>
      rw [idList_cons_cons]
      simp only [List.length_cons, List.length_append] at hlater ⊢
      omega

theorem afterEnd?_closing (block : Bool) : afterEnd? (closing block) = some [] := by
  cases block <;> rfl

/-- Blanks in front of a text that does not end in one are skipped whatever follows the text. -/
theorem exists_skipBlanks (hne : r ≠ []) (hlast : ∀ x ∈ r.getLast?, isBlank x = false) :
    ∃ d ds, (d :: ds) <:+ r ∧ ∀ rest, skipBlanks (r ++ rest) = d :: (ds ++ rest) := by
  induction r with
  | nil => exact absurd rfl hne
  | cons x r ih =>
    by_cases hx : isBlank x = true
    · have hr : r ≠ [] := by
        rintro rfl
        rw [hlast x rfl] at hx
        cases hx
      rw [List.getLast?_cons_of_ne_nil hr] at hlast
      obtain ⟨d, ds, hsuffix, hskip⟩ := ih hr hlast
      refine ⟨d, ds, hsuffix.trans (List.suffix_cons x r), fun rest => ?_⟩
      rw [← hskip rest]
      exact List.dropWhile_cons_of_pos hx
    · exact ⟨x, r, List.suffix_refl _, fun rest => List.dropWhile_cons_of_neg hx⟩

/-- Before its last character a reason does not end. -/
theorem afterEnd?_reason (hne : r ≠ []) (hlast : ∀ x ∈ r.getLast?, isBlank x = false)
    (hfree : ¬ ['*', '/'] <:+: r) (block : Bool) : afterEnd? (r ++ closing block) = none := by
  obtain ⟨d, ds, hsuffix, hskip⟩ := exists_skipBlanks hne hlast
  rw [afterEnd?, hskip]
  split
  · rename_i htext
    cases htext
  · rename_i rest htext
    obtain ⟨rfl, htail⟩ := List.cons.inj htext
    cases ds with
    | nil => cases block <;> cases htail
    | cons e ds =>
      obtain ⟨rfl, -⟩ := List.cons.inj htail
      have hend : ['*', '/'] <:+: '*' :: '/' :: ds := (List.prefix_append ['*', '/'] ds).isInfix
      exact absurd (hend.trans hsuffix.isInfix) hfree
  · rfl

theorem reason?_written (hne : r ≠ []) (hlast : ∀ x ∈ r.getLast?, isBlank x = false)
    (hfree : ¬ ['*', '/'] <:+: r) (block : Bool) :
    reason? (r ++ closing block) = some (r, []) := by
  induction r with
  | nil => exact absurd rfl hne
  | cons x r ih =>
    cases r with
    | nil => simp [reason?, afterEnd?_closing]
    | cons y r =>
      have hlast' : ∀ z ∈ (y :: r).getLast?, isBlank z = false := by
        rwa [List.getLast?_cons_cons] at hlast
      have hfree' : ¬ ['*', '/'] <:+: y :: r := fun h => hfree (List.infix_cons h)
      have hlater := ih (List.cons_ne_nil _ _) hlast' hfree'
      rw [List.cons_append, reason?, afterEnd?_reason (List.cons_ne_nil _ _) hlast' hfree', hlater]
      rfl

/-- Blanks in front of a reason are no part of it. -/
theorem reasonAfter?_written (hr : Plain r) (block : Bool) :
    reasonAfter? (' ' :: (r ++ closing block)) = some (r, []) ∧
      reasonAfter? (r ++ closing block) = some (r, []) := by
  have hreason := reason?_written hr.nonempty hr.last hr.free block
  obtain ⟨x, r', rfl⟩ := List.exists_cons_of_ne_nil hr.nonempty
  have hskip : skipBlanks (x :: r' ++ closing block) = x :: r' ++ closing block :=
    skipBlanks_of_head hr.head
  constructor
  · rw [reasonAfter?, skipBlanks_blank, hskip]
    exact hreason
  · rw [reasonAfter?, hskip]
    exact hreason

theorem stops_written (reason : Option (ReasonMark × String)) (block : Bool) :
    Stops (reasonText reason ++ closing block) := by
  rcases reason with - | ⟨mark, reason⟩
  · cases block
    · exact ⟨nofun, nofun⟩
    · exact ⟨by rintro _ ⟨⟩; decide, nofun⟩
  · cases mark
    · exact ⟨by rintro _ ⟨⟩; decide, nofun⟩
    · exact ⟨by rintro _ ⟨⟩; decide, nofun⟩

theorem markedReason?_none (block : Bool) : markedReason? (closing block) = none := by
  cases block <;> rfl

theorem markedReason?_some (mark : ReasonMark) (hr : Plain r) (block : Bool) :
    markedReason? (mark.text ++ (r ++ closing block)) = some (r, []) := by
  obtain ⟨hblank, hplain⟩ := reasonAfter?_written hr block
  cases mark with
  | colon => exact hblank
  | hyphens => exact hplain

/-- A comment is read as the directive that it was written for, and nothing is left behind it. -/
theorem inComment?_written {c : DisableComment} (hc : c.Writable) (marker : String) :
    inComment? marker.toList (' ' :: (marker.toList ++ '-' :: (c.scope.name.toList ++ ' ' ::
      (idList c.ruleIds ++ (reasonText c.reason ++ closing c.block))))) =
        some (c.directive, []) := by
  generalize htail : reasonText c.reason ++ closing c.block = tail
  have hblanks : afterBlanks? (' ' :: (idList c.ruleIds ++ tail)) =
      some (idList c.ruleIds ++ tail) := by
    have hstay : skipBlanks (idList c.ruleIds ++ tail) = idList c.ruleIds ++ tail :=
      skipBlanks_of_head (head_idList hc.some_id hc.id)
    exact congrArg some hstay
  have hids : ruleIds? ((idList c.ruleIds ++ tail).length + 1) (idList c.ruleIds ++ tail) =
      some (c.ruleIds, tail) := by
    refine ruleIds?_written hc.some_id hc.id (htail ▸ stops_written _ _) _ ?_
    have hlength := length_le_idList hc.id
    rw [List.length_append]
    omega
  rw [inComment?, markerAfterBlanks?_written]
  simp only [Option.bind_eq_bind, Option.bind_some, scope?_written, hblanks, hids]
  subst htail
  obtain ⟨block, scope, ids, reason⟩ := c
  cases reason with
  | none =>
    have hnone := markedReason?_none block
    simp only [reasonText, List.nil_append, hnone, afterEnd?_closing]
    rfl
  | some r =>
    have hsome := markedReason?_some r.1 (hc.reason r rfl) block
    simp only [reasonText, List.append_assoc, hsome, String.ofList_toList]
    rfl

/-- A line of a comment holds its directive only. -/
theorem inLine_written {c : DisableComment} (hc : c.Writable) (marker : String) (fuel : Nat) :
    inLine marker.toList (fuel + 1) (c.text marker) = [c.directive] := by
  have hcomment := inComment?_written hc marker
  have hstart : atStart? marker.toList (c.text marker) = some (c.directive, []) := by
    have hsign : sign c.block = '/' ∨ sign c.block = '*' := by cases c.block <;> decide
    rw [text]
    rcases hsign with hsign | hsign
    · rw [hsign]
      exact hcomment
    · rw [hsign]
      exact hcomment
  have hdone : inLine marker.toList fuel [] = [] := by cases fuel <;> rfl
  rw [text] at hstart ⊢
  simp only [inLine, hstart, hdone]

def Free (marker : String) (line : List Char) : Prop :=
  ∀ cs ∈ line.tails, atStart? marker.toList cs = none

instance (marker : String) (line : List Char) : Decidable (Free marker line) :=
  inferInstanceAs (Decidable (∀ cs ∈ line.tails, atStart? marker.toList cs = none))

theorem inLine_free {marker : String} {line : List Char} (h : Free marker line) (fuel : Nat) :
    inLine marker.toList fuel line = [] := by
  induction fuel generalizing line with
  | zero => rfl
  | succ fuel ih =>
    cases line with
    | nil => rfl
    | cons x cs =>
      have hlater : Free marker cs := fun ds hds =>
        h ds ((List.mem_tails _ _).mpr (((List.mem_tails _ _).mp hds).trans (List.suffix_cons x cs)))
      rw [inLine, h _ (by simp), ih hlater]

end

end Directive

namespace Suppressions

open Directive

theorem ofLines_free {marker : String} {ls : List (List Char)} (h : ∀ l ∈ ls, Free marker l)
    (number : Nat) : ofLines marker.toList number ls = [] := by
  induction ls generalizing number with
  | nil => rfl
  | cons l ls ih =>
    obtain ⟨hl, hls⟩ := List.forall_mem_cons.mp h
    rw [ofLines, ofLine, inLine_free hl, ih hls]
    rfl

/-- Only the line of the comment disables anything. -/
theorem ofLines_written {marker : String} {c : DisableComment} (hc : c.Writable)
    {above below : List (List Char)} (h : ∀ l ∈ above ++ below, Free marker l) (number : Nat) :
    ofLines marker.toList number (above ++ c.text marker :: below) =
      ofDirective (number + above.length) c.directive := by
  induction above generalizing number with
  | nil =>
    rw [List.nil_append] at h
    have hbelow := ofLines_free h (number + 1)
    rw [List.nil_append, ofLines, ofLine, inLine_written hc, hbelow]
    simp
  | cons l above ih =>
    obtain ⟨hl, hls⟩ := List.forall_mem_cons.mp h
    have hlater := ih hls (number + 1)
    rw [List.cons_append, ofLines, ofLine, inLine_free hl, hlater, List.length_cons,
      Nat.add_assoc, Nat.add_comm 1]
    rfl

/-- A disable comment round-trips. In a source with the comment on a line of its own, where no other
line holds a directive, each of the rules that it names is disabled once: on the line of the comment
or on the next one or in the file, as the comment says, and with the reason that it gives, if it
gives one. -/
theorem ofSource_reads_back (marker : String) (c : DisableComment) (hc : c.Writable)
    (source : List Char) (above below : List (List Char))
    (hlines : lines source = above ++ c.text marker :: below)
    (hfree : ∀ l ∈ above ++ below, Free marker l) :
    (ofSource marker source).all.Perm (c.ruleIds.dedup.map fun id =>
      ⟨c.scope.target (above.length + 1), id, c.reason.map Prod.snd⟩) := by
  have hs := holds_ofSource marker source
  have hwritten : written marker source =
      c.ruleIds.map fun id => ⟨c.scope.target (above.length + 1), id, c.reason.map Prod.snd⟩ := by
    rw [written, hlines, ofLines_written hc hfree, Nat.add_comm 1]
    rfl
  have hsame : ∀ d ∈ written marker source,
      d.line = c.scope.target (above.length + 1) ∧ d.reason = c.reason.map Prod.snd := by
    intro d hd
    rw [hwritten] at hd
    obtain ⟨id, -, rfl⟩ := List.mem_map.mp hd
    exact ⟨rfl, rfl⟩
  have hnodup : (c.ruleIds.dedup.map fun id =>
      Disable.mk (c.scope.target (above.length + 1)) id (c.reason.map Prod.snd)).Nodup := by
    refine (List.nodup_dedup c.ruleIds).map fun id id' heq => ?_
    exact (Disable.mk.inj heq).2.1
  refine (List.perm_ext_iff_of_nodup (nodup_all hs.tidy) hnodup).mpr fun d => ?_
  rw [hs.mem_all_of_same hsame, hwritten]
  simp only [List.mem_map, List.mem_dedup]

/-- A source with a comment between two other lines. -/
def disablingSource : List Char :=
  "f(); // lint.off-line\r\n/*  lint.off-next-line a, --, x-1, a -- -- b: *x */\n// lint-file c".toList

def disablingComment : DisableComment :=
  ⟨true, .nextLine, ["a", "--", "x-1", "a"], some (.hyphens, "-- b: *x")⟩

theorem ofSource_reads_back_third :
    (disablingComment.Writable ∧
      lines disablingSource = ["f(); // lint.off-line".toList] ++
        disablingComment.text " lint.off" :: ["// lint-file c".toList] ∧
      ∀ l ∈ ["f(); // lint.off-line".toList] ++ ["// lint-file c".toList], Free " lint.off" l) ∧
    (ofSource " lint.off" disablingSource).all.Perm
      [⟨3, "--", some "-- b: *x"⟩, ⟨3, "x-1", some "-- b: *x"⟩, ⟨3, "a", some "-- b: *x"⟩] := by
  have hwritable : disablingComment.Writable := by
    have hreason : "-- b: *x".toList = ['-', '-', ' ', 'b', ':', ' ', '*', 'x'] := rfl
    have hplain : DisableComment.Plain ['-', '-', ' ', 'b', ':', ' ', '*', 'x'] := by
      constructor
      · simp
      · rintro _ ⟨⟩
        decide
      · rintro _ ⟨⟩
        decide
      · decide
    constructor
    · decide
    · decide
    · rintro _ ⟨⟩
      exact hreason ▸ hplain
  have hlines : lines disablingSource = ["f(); // lint.off-line".toList] ++
      disablingComment.text " lint.off" :: ["// lint-file c".toList] := by decide
  have hfree : ∀ l ∈ ["f(); // lint.off-line".toList] ++ ["// lint-file c".toList],
      Free " lint.off" l := by decide
  have hread := ofSource_reads_back " lint.off" disablingComment hwritable disablingSource _ _
    hlines hfree
  have hids : disablingComment.ruleIds.dedup = ["--", "x-1", "a"] := by decide
  rw [hids] at hread
  exact ⟨⟨hwritable, hlines, hfree⟩, hread⟩

end Suppressions

end Subscriptions
