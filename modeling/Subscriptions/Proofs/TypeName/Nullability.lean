import Subscriptions.Proofs.TypeName.Members

namespace Subscriptions.TypeName

open Text topLevelPieces

/-- The depth in brackets behind a text that starts at some depth, unless it closes more of them than
are open. The angle bracket of an arrow is none. -/
def depthAfter? : Nat → List Char → Option Nat
  | n, [] => some n
  | n, '=' :: '>' :: cs => depthAfter? n cs
  | n, c :: cs =>
    if ['(', '[', '{', '<'].contains c then depthAfter? (n + 1) cs
    else if [')', ']', '}', '>'].contains c then
      match n with
      | 0 => none
      | n + 1 => depthAfter? n cs
    else depthAfter? n cs

/-- All brackets that the text opens close, and no others. -/
def Balanced (cs : List Char) : Prop := depthAfter? 0 cs = some 0

instance : DecidablePred Balanced := fun cs => inferInstanceAs (Decidable (depthAfter? 0 cs = some 0))

section
variable {n m : Nat} {cs text : List Char}

/-- Inside of a bracket one character more is one character more of the piece. -/
theorem one_piece_cons {c : Char} {k : Nat} (hc : ∀ rest, c = '=' → cs = '>' :: rest → False)
    (hk : (k : Int) = n + step c)
    (h : rise cs = (m : Int) - k ∧
      ∀ separator, ∀ d : Int, 1 ≤ d → topLevelPieces separator (d + k) cs = some [cs]) :
    rise (c :: cs) = (m : Int) - n ∧
      ∀ separator, ∀ d : Int, 1 ≤ d → topLevelPieces separator (d + n) (c :: cs) = some [c :: cs] := by
  refine ⟨?_, fun separator d hd => ?_⟩
  · rw [rise, h.1]
    · omega
    · exact hc
  · have hdepth : d + n + step c = d + k := by omega
    rw [topLevelPieces_cons hc, hdepth, h.2 separator d hd, if_neg (by omega)]
    rfl

/-- Inside of a bracket a text that never leaves it is one piece. -/
theorem one_piece_of_depthAfter? (h : depthAfter? n cs = some m) : rise cs = (m : Int) - n ∧
    ∀ separator, ∀ d : Int, 1 ≤ d → topLevelPieces separator (d + n) cs = some [cs] := by
  fun_induction depthAfter? n cs with
  | case1 n =>
    obtain rfl := Option.some.inj h
    exact ⟨(Int.sub_self _).symm, fun _ _ _ => by rw [topLevelPieces]⟩
  | case2 n cs ih =>
    obtain ⟨hrise, hwhole⟩ := ih h
    refine ⟨by rw [rise, hrise], fun separator d hd => ?_⟩
    rw [topLevelPieces_arrow, if_neg (by omega), hwhole separator d hd]
    rfl
  | case3 n c cs hc hopen ih =>
    refine one_piece_cons hc ?_ (ih h)
    rw [step, if_pos hopen, Int.natCast_succ]
  | case4 c cs hc hopen hclose => cases h
  | case5 c cs hc hopen hclose n ih =>
    refine one_piece_cons hc ?_ (ih h)
    rw [step, if_neg hopen, if_pos hclose]
    omega
  | case6 n c cs hc hopen hclose ih =>
    refine one_piece_cons hc ?_ (ih h)
    rw [step, if_neg hopen, if_neg hclose, Int.add_zero]

theorem Balanced.passed (h : Balanced cs) (separator : Char) : Passed separator 1 cs := by
  obtain ⟨hrise, hwhole⟩ := one_piece_of_depthAfter? h
  refine ⟨hrise, fun d hd => ?_⟩
  have hinside := hwhole separator d hd
  rwa [Int.natCast_zero, Int.add_zero] at hinside

/-- What stands behind a word in front does not change it. -/
theorem firstWord_append {ds : List Char} (hds : ∀ c ∈ ds.head?, Scanner.isWordPart c = false)
    (h : text.dropWhile isBlank ≠ []) : firstWord (text ++ ds) = firstWord text := by
  have hdrop : (text ++ ds).dropWhile isBlank = text.dropWhile isBlank ++ ds := by
    rw [List.dropWhile_append, if_neg (by simpa using h)]
  rw [firstWord, hdrop, firstWord, List.takeWhile_append]
  split
  · rename_i hall
    have hnone : ds.takeWhile Scanner.isWordPart = [] := by
      cases ds with
      | nil => rfl
      | cons d ds => exact List.takeWhile_cons_of_neg (by simp [hds d rfl])
    rw [hnone, List.append_nil]
    exact (List.takeWhile_prefix _).eq_of_length hall |>.symm
  · rfl

/-- A text with a bar outside of brackets is not a single word. -/
theorem strip_ne_of_bar {word : List Char} (hbar : '|' ∈ text) (hword : '|' ∉ word) :
    strip isBlank text ≠ word := by
  rintro rfl
  obtain ⟨a, b, htext, ha, hb⟩ := exists_append_strip isBlank text
  rw [htext, List.mem_append, List.mem_append] at hbar
  rcases hbar with hbar | hbar | hbar
  · cases ha '|' hbar
  · exact hword hbar
  · cases hb '|' hbar

section
variable (hreadonly : firstWord text ≠ "readonly".toList)
  (hnull : strip isBlank text ≠ "null".toList)
  (hundefined : strip isBlank text ≠ "undefined".toList)
include hreadonly hnull hundefined

/-- `null` behind a type leaves its symbol. -/
theorem symbolOf_or_null (hlevel : rise text = 0) :
    symbolOf (text ++ " | null".toList) = symbolOf text := by
  have hword : firstWord (text ++ " | null".toList) ≠ "readonly".toList := by
    by_cases hblank : text.dropWhile isBlank = []
    · have hdrop : (text ++ " | null".toList).dropWhile isBlank = "| null".toList := by
        rw [List.dropWhile_append, if_pos (by simp [hblank])]
        decide
      rw [firstWord, hdrop]
      decide
    · have hstop : ∀ c ∈ " | null".toList.head?, Scanner.isWordPart c = false := by
        rintro _ ⟨⟩
        decide
      rw [firstWord_append hstop hblank]
      exact hreadonly
  have hapart : Apart text " | null".toList := fun _ hhead => by cases hhead
  have hnone : topLevelPieces '|' 0 " | null".toList = some [[' '], " null".toList] := by decide
  have hnothing : members [" null".toList] = [] := rfl
  have hblank : ∀ c ∈ [' '], isBlank c = true := List.forall_mem_singleton.mpr (by decide)
  have hbar : '|' ∈ text ++ " | null".toList := List.mem_append_right _ (by decide)
  rw [symbolOf_eq_onlySymbol? hword (strip_ne_of_bar hbar (by decide))
      (strip_ne_of_bar hbar (by decide)),
    symbolOf_eq_onlySymbol? hreadonly hnull hundefined, topLevelPieces_append hapart, hlevel,
    Int.add_zero, hnone]
  cases hpieces : topLevelPieces '|' 0 text with
  | none => rfl
  | some ps =>
    simp only [Option.bind_some, Option.map_some]
    rw [members_glue hblank (ne_nil_of_topLevelPieces hpieces), hnothing, List.append_nil]

/-- `undefined` before a type leaves its symbol. -/
theorem symbolOf_undefined_or : symbolOf ("undefined | ".toList ++ text) = symbolOf text := by
  have hword : firstWord ("undefined | ".toList ++ text) ≠ "readonly".toList := by
    change firstWord ('u' :: ("ndefined | ".toList ++ text)) ≠ _
    rw [firstWord, List.dropWhile_cons_of_neg (by decide), List.takeWhile_cons_of_pos (by decide)]
    exact fun h => absurd (List.cons.inj h).1 (by decide)
  have hapart : Apart "undefined | ".toList text := fun hlast => by cases hlast
  have hnone : topLevelPieces '|' 0 "undefined | ".toList = some ["undefined ".toList, [' ']] := by
    decide
  have hnothing : members ["undefined ".toList] = [] := rfl
  have hlevel : rise "undefined | ".toList = 0 := by decide
  have hblank : ∀ c ∈ [' '], isBlank c = true := List.forall_mem_singleton.mpr (by decide)
  have hbar : '|' ∈ "undefined | ".toList ++ text := List.mem_append_left _ (by decide)
  rw [symbolOf_eq_onlySymbol? hword (strip_ne_of_bar hbar (by decide))
      (strip_ne_of_bar hbar (by decide)),
    symbolOf_eq_onlySymbol? hreadonly hnull hundefined, topLevelPieces_append hapart, hlevel,
    Int.add_zero, hnone]
  cases hpieces : topLevelPieces '|' 0 text with
  | none => rfl
  | some ps =>
    simp only [Option.bind_some, Option.map_some]
    rw [glue, members_cons, hnothing, glue, List.nil_append,
      members_prepend hblank (ne_nil_of_topLevelPieces hpieces)]

end

/-- Parentheses around a type, `null` behind it and `undefined` before it leave its symbol, if its
brackets are balanced and it is neither a literal of the two nor starts with the word `readonly`. -/
theorem symbol?_parens_nullable (text : String) (hbalanced : Balanced text.toList)
    (hreadonly : firstWord text.toList ≠ "readonly".toList) (hnull : trim text ≠ "null")
    (hundefined : trim text ≠ "undefined") :
    symbol? ("(" ++ text ++ ")") = symbol? text ∧ symbol? (text ++ " | null") = symbol? text ∧
      symbol? ("undefined | " ++ text) = symbol? text := by
  have hstrip {word : String} (h : trim text ≠ word) : strip isBlank text.toList ≠ word.toList := by
    intro heq
    rw [trim, heq, String.ofList_toList] at h
    exact h rfl
  refine ⟨?_, ?_, ?_⟩
  · have hparens : ("(" ++ text ++ ")").toList = '(' :: (text.toList ++ [')']) := by simp
    have hapart : Apart text.toList [')'] := fun _ hhead => by cases hhead
    rw [symbol?_eq, hparens, symbolOf_parens (fun separator _ => hbalanced.passed separator) hapart, symbol?_eq]
  · rw [symbol?_eq, String.toList_append,
      symbolOf_or_null hreadonly (hstrip hnull) (hstrip hundefined)
        (hbalanced.passed '|').level, symbol?_eq]
  · rw [symbol?_eq, String.toList_append,
      symbolOf_undefined_or hreadonly (hstrip hnull) (hstrip hundefined), symbol?_eq]

/-- A type with arrows, brackets and a member that is dropped. -/
def nullableText : String := " Map<K, (x: [A] | B) => \x7b a: C \x7d>[] | undefined "

theorem symbol?_parens_nullable_array :
    (Balanced nullableText.toList ∧ firstWord nullableText.toList ≠ "readonly".toList ∧
      trim nullableText ≠ "null" ∧ trim nullableText ≠ "undefined") ∧
    symbol? ("(" ++ nullableText ++ ")") = some "Array" ∧
      symbol? (nullableText ++ " | null") = some "Array" ∧
      symbol? ("undefined | " ++ nullableText) = some "Array" := by
  have hbalanced : Balanced nullableText.toList := by decide
  have hreadonly : firstWord nullableText.toList ≠ "readonly".toList := by decide
  have hnull : trim nullableText ≠ "null" := by decide
  have hundefined : trim nullableText ≠ "undefined" := by decide
  have hsymbol : symbol? nullableText = some "Array" := by decide
  have hsame := symbol?_parens_nullable nullableText hbalanced hreadonly hnull hundefined
  rw [hsymbol] at hsame
  exact ⟨⟨hbalanced, hreadonly, hnull, hundefined⟩, hsame⟩

/-- Behind a blank, too, `readonly` is cut off a union of which it belongs to the first member only. -/
theorem readonly_behind_blank : Balanced " readonly null".toList ∧
    ¬ "readonly".toList <+: " readonly null".toList ∧ trim " readonly null" ≠ "null" ∧
    trim " readonly null" ≠ "undefined" ∧ symbol? " readonly null" = some "null" ∧
    symbol? (" readonly null" ++ " | null") = none := by
  decide

end

end Subscriptions.TypeName
