import Subscriptions.Config.Basic
import Subscriptions.Glob.Filter

namespace Subscriptions.Glob

mutual

/-- The token matches no text that starts with the bytes, such that the rest of the match succeeds
after it. What the rest of the match bars is given. -/
def Token.bars (next : List UInt8 → Bool) : Token → List UInt8 → Bool
  | .literal c, bs =>
    match afterBytes? (String.utf8EncodeChar c) bs with
    | some rest => next rest
    | none => !bs.isPrefixOf (String.utf8EncodeChar c)
  | .any, bs => match bs with | [] => false | _ :: rest => next rest
  | .anything, _ => false
  | .leading, _ => false
  | .under, bs => match bs with | [] => false | b :: _ => b != slash
  | .between, bs => match bs with | [] => false | b :: _ => b != slash
  | .oneOf negated ranges, bs =>
    match bs with
    | [] => false
    | b :: rest => (ranges.any fun r => inByteRange r.1 r.2 b) == negated || next rest
  | .choice branches, bs => if allVoid branches then next bs else barsEach next branches bs

/-- Every branch that is not empty bars the bytes. -/
def barsEach (next : List UInt8 → Bool) : List (List Token) → List UInt8 → Bool
  | [], _ => true
  | branch :: branches, bs =>
    (areVoid branch || barsAll next branch bs) && barsEach next branches bs

/-- The tokens one after another bar the bytes. -/
def barsAll (next : List UInt8 → Bool) : List Token → List UInt8 → Bool
  | [], bs => next bs
  | t :: ts, bs => t.bars (fun rest => barsAll next ts rest) bs

end

/-- No text that starts with the bytes is matched by the tokens. -/
def bar (ts : List Token) (bs : List UInt8) : Bool := barsAll (fun rest => !rest.isEmpty) ts bs

/-- A rest of a match that bars bytes fails on each text that starts with them. -/
def Bars (bar run : List UInt8 → Bool) : Prop :=
  ∀ bs, bar bs = true → ∀ tail, run (bs ++ tail) = false

section
variable {next run : List UInt8 → Bool} {bs rest : List UInt8}

theorem afterBytes?_append {as : List UInt8} (h : afterBytes? as bs = some rest)
    (tail : List UInt8) : afterBytes? as (bs ++ tail) = some (rest ++ tail) := by
  induction as generalizing bs with
  | nil =>
    cases h
    rfl
  | cons a as ih =>
    cases bs with
    | nil => cases h
    | cons b bs =>
      rw [afterBytes?] at h
      rw [List.cons_append, afterBytes?]
      split at h
      · rename_i hbyte
        rw [if_pos hbyte, ih h]
      · cases h

/-- Bytes that differ from others within their length still differ from them with more behind. -/
theorem afterBytes?_append_none {as : List UInt8} (h : afterBytes? as bs = none)
    (hdiffers : bs.isPrefixOf as = false) (tail : List UInt8) :
    afterBytes? as (bs ++ tail) = none := by
  induction as generalizing bs with
  | nil => cases h
  | cons a as ih =>
    cases bs with
    | nil => cases hdiffers
    | cons b bs =>
      rw [afterBytes?] at h
      rw [List.cons_append, afterBytes?]
      split at h
      · rename_i hbyte
        rw [List.isPrefixOf, eq_of_beq hbyte, BEq.rfl, Bool.true_and] at hdiffers
        rw [if_pos hbyte, ih h hdiffers]
      · rename_i hbyte
        exact if_neg hbyte

mutual

theorem Token.bars_sound : ∀ (t : Token) {next run : List UInt8 → Bool}, Bars next run →
    Bars (t.bars next) (t.run run)
  | .literal c, next, run, hnext, bs, h, tail => by
    rw [Token.bars] at h
    rw [Token.run]
    split at h
    · rename_i rest hafter
      rw [afterBytes?_append hafter, Option.any_some, hnext rest h]
    · rename_i hafter
      rw [Bool.not_eq_true'] at h
      rw [afterBytes?_append_none hafter h]
      rfl
  | .any, next, run, hnext, bs, h, tail => by
    cases bs with
    | nil => cases h
    | cons b bs => exact hnext bs h tail
  | .anything, _, _, _, bs, h, tail => by cases h
  | .leading, _, _, _, bs, h, tail => by cases h
  | .under, next, run, hnext, bs, h, tail => by
    cases bs with
    | nil => cases h
    | cons b bs =>
      have hslash : (b == slash) = false := beq_false_of_ne (bne_iff_ne.mp h)
      simp [Token.run, hslash]
  | .between, next, run, hnext, bs, h, tail => by
    cases bs with
    | nil => cases h
    | cons b bs =>
      have hslash : (b == slash) = false := beq_false_of_ne (bne_iff_ne.mp h)
      simp [Token.run, hslash]
  | .oneOf negated ranges, next, run, hnext, bs, h, tail => by
    cases bs with
    | nil => cases h
    | cons b bs =>
      simp only [Token.bars, Bool.or_eq_true, beq_iff_eq] at h
      simp only [List.cons_append, Token.run, Bool.and_eq_false_iff, bne_eq_false_iff_eq]
      exact h.imp_right fun hrest => hnext bs hrest tail
  | .choice branches, next, run, hnext, bs, h, tail => by
    rw [Token.bars] at h
    rw [Token.run]
    split at h
    · rename_i hvoid
      rw [if_pos hvoid, hnext bs h tail]
    · rename_i hvoid
      rw [if_neg hvoid, barsEach_sound branches hnext bs h tail]

theorem barsEach_sound : ∀ (branches : List (List Token)) {next run : List UInt8 → Bool},
    Bars next run → Bars (barsEach next branches) (runSome run branches)
  | [], _, _, _, _, _, _ => rfl
  | branch :: branches, _, _, hnext, bs, h, tail => by
    rw [barsEach, Bool.and_eq_true, Bool.or_eq_true] at h
    rw [runSome, barsEach_sound branches hnext bs h.2 tail, Bool.or_false]
    rcases h.1 with hvoid | hbars
    · rw [hvoid]
      rfl
    · rw [barsAll_sound branch hnext bs hbars tail, Bool.and_false]

theorem barsAll_sound : ∀ (ts : List Token) {next run : List UInt8 → Bool},
    Bars next run → Bars (barsAll next ts) (runAll run ts)
  | [], _, _, hnext, bs, h, tail => hnext bs h tail
  | t :: ts, _, _, hnext, bs, h, tail =>
    Token.bars_sound t (fun rest hrest more => barsAll_sound ts hnext rest hrest more) bs h tail

end

theorem bar_sound {ts : List Token} (h : bar ts bs = true) (tail : List UInt8) :
    runAll List.isEmpty ts (bs ++ tail) = false := by
  refine barsAll_sound ts (fun rest hrest more => ?_) bs h tail
  cases rest with
  | nil => cases hrest
  | cons b rest => rfl

end

def dotSlash : List UInt8 := [0x2E, slash]

/-- The tokens begin in any directory, and what they look for there cannot begin in the `./` that a
path may have in front. -/
def Token.float : List Token → Bool
  | .leading :: .anything :: ts => bar ts dotSlash && bar ts [slash]
  | .leading :: ts => bar ts dotSlash
  | .anything :: ts => bar ts dotSlash && bar ts [slash]
  | _ => false

def floats (g : Glob) : Bool :=
  match g.tokens with
  | [.leading] => true
  | ts => Token.float ts

theorem bytesOf_dotSlash (path : String) :
    bytesOf ("./" ++ path).toList = dotSlash ++ bytesOf path.toList := by
  have hfront : bytesOf "./".toList = dotSlash := by decide
  rw [String.toList_append, ← hfront]
  simp only [bytesOf, List.flatMap_append]

theorem runAll_anything_dotSlash {ts : List Token} (hdot : bar ts dotSlash = true)
    (hslash : bar ts [slash] = true) (bs : List UInt8) :
    runAll List.isEmpty (.anything :: ts) (dotSlash ++ bs) =
      runAll List.isEmpty (.anything :: ts) bs := by
  have hfirst : runAll List.isEmpty ts (0x2E :: slash :: bs) = false := bar_sound hdot bs
  have hsecond : runAll List.isEmpty ts (slash :: bs) = false := bar_sound hslash bs
  simp only [runAll, Token.run, dotSlash, List.cons_append, List.nil_append, afterAny, hfirst,
    hsecond, Bool.false_or]

/-- Behind directories in front, a match goes on at the `./` or behind it as without it. -/
theorem runAll_leading_dotSlash (ts : List Token) (bs : List UInt8) :
    runAll List.isEmpty (.leading :: ts) (dotSlash ++ bs) =
      (runAll List.isEmpty ts (dotSlash ++ bs) || runAll List.isEmpty (.leading :: ts) bs) := by
  have hdot : ((0x2E : UInt8) == slash) = false := by decide
  simp only [runAll, Token.run, dotSlash, List.cons_append, List.nil_append, afterSlash, hdot,
    BEq.rfl, Bool.false_and, Bool.true_and, Bool.false_or]

theorem runAll_dotSlash {ts : List Token} (h : Token.float ts = true) (bs : List UInt8) :
    runAll List.isEmpty ts (dotSlash ++ bs) = runAll List.isEmpty ts bs := by
  unfold Token.float at h
  split at h
  · rw [Bool.and_eq_true] at h
    rw [runAll_leading_dotSlash, runAll_anything_dotSlash h.1 h.2]
    -- A match without directories in front is one with them.
    simp only [runAll, Token.run, ← Bool.or_assoc, Bool.or_self]
  · rw [runAll_leading_dotSlash, bar_sound h, Bool.false_or]
  · rw [Bool.and_eq_true] at h
    exact runAll_anything_dotSlash h.1 h.2 bs
  · cases h

theorem matchesPath_eq {g : Glob} (h : g.tokens ≠ [.leading]) (path : String) :
    g.matchesPath path = runAll List.isEmpty g.tokens (bytesOf path.toList) := by
  rw [matchesPath]
  split
  · rename_i htokens
    exact absurd htokens h
  · rfl

/-- A glob that begins in any directory matches a path with `./` in front as it matches the path. -/
theorem picks_dotSlash {g : Glob} (h : g.floats = true) (path : String) :
    g.picks ("./" ++ path) = g.picks path := by
  have hmatches : g.matchesPath ("./" ++ path) = g.matchesPath path := by
    unfold floats at h
    split at h
    · rename_i htokens
      rw [matchesPath, matchesPath, htokens]
    · rename_i htokens
      rw [matchesPath_eq htokens, matchesPath_eq htokens, bytesOf_dotSlash, runAll_dotSlash h]
  rw [picks, picks, hmatches]

/-- All globs of the default settings are of this kind. -/
theorem floats_of_default : ∃ filter,
    FileFilter.ofTexts ({} : FileSettings).included ({} : FileSettings).excluded = .ok filter ∧
      ∀ g ∈ filter.included ++ filter.excluded, g.floats = true := by
  have hdefault : (FileFilter.ofTexts ({} : FileSettings).included
      ({} : FileSettings).excluded).toOption.any
        (fun filter => (filter.included ++ filter.excluded).all floats) = true := by decide +kernel
  obtain ⟨filter, hfilter, hfloats⟩ := (Option.any_eq_true _ _).mp hdefault
  refine ⟨filter, ?_, List.all_eq_true.mp hfloats⟩
  generalize FileFilter.ofTexts _ _ = read at hfilter ⊢
  cases read with
  | error e => cases hfilter
  | ok found => exact congrArg Except.ok (Option.some.inj hfilter)

end Subscriptions.Glob
