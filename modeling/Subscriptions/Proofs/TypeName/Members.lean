import Subscriptions.Proofs.Syntax.Rescanning
import Subscriptions.Proofs.TypeName.Pieces

namespace Subscriptions.TypeName

open Text topLevelPieces

/-- The characters that a scan may not just pass over. -/
def signs : List Char := ['(', '[', '{', '<', ')', ']', '}', '>', '=', '|', '&']

/-- A character that is no bracket, separates nothing and starts no arrow. -/
def isPlain (c : Char) : Bool := !signs.contains c

/-- What unions and intersections have between their members. -/
def separators : List Char := ['|', '&']

/-- At a depth from the given one on, the text is one piece, and it ends as deep as it starts. -/
structure Passed (separator : Char) (least : Int) (cs : List Char) : Prop where
  level : rise cs = 0
  whole : ∀ d, least ≤ d → topLevelPieces separator d cs = some [cs]

section
variable {c o separator : Char} {cs ds : List Char} {least : Int}

theorem rise_append (h : Apart cs ds) : rise (cs ++ ds) = rise cs + rise ds := by
  fun_induction rise cs with
  | case1 => simp
  | case2 cs ih =>
    have htail : Apart cs ds := fun hlast => h (by cases cs <;> simp_all)
    rw [List.cons_append, List.cons_append, rise, ih htail]
  | case3 c cs hc ih =>
    have htail : Apart cs ds := fun hlast => h (by cases cs <;> simp_all)
    rw [List.cons_append, rise, ih htail, Int.add_assoc]
    rintro rest rfl hrest
    cases cs with
    | nil => exact h rfl (by rw [← List.nil_append ds, hrest]; rfl)
    | cons e cs => exact hc cs rfl (by rw [(List.cons.inj hrest).1])

theorem Passed.mono {more : Int} (h : Passed separator least cs) (hle : least ≤ more) :
    Passed separator more cs :=
  ⟨h.level, fun d hd => h.whole d (Int.le_trans hle hd)⟩

theorem Passed.append (hcs : Passed separator least cs) (hds : Passed separator least ds)
    (h : Apart cs ds) : Passed separator least (cs ++ ds) where
  level := by rw [rise_append h, hcs.level, hds.level]; rfl
  whole d hd := by
    rw [topLevelPieces_append h, hcs.whole d hd, hcs.level, Int.add_zero, Option.bind_some,
      hds.whole d hd]
    rfl

theorem step_of_isPlain (h : isPlain c = true) : step c = 0 ∧ c ≠ '=' ∧ c ∉ separators := by
  simp only [isPlain, signs, List.contains_eq_mem, Bool.not_eq_true', decide_eq_false_iff_not,
    List.mem_cons, not_or] at h
  simp [step, separators, h]

theorem step_of_separator (h : c ∈ separators) : step c = 0 ∧ c ≠ '=' := by
  simp only [separators, List.mem_cons, List.not_mem_nil, or_false] at h
  rcases h with rfl | rfl <;> decide

/-- A class without the signs holds plain characters only. -/
theorem isPlain_of_class {q : Char → Bool} (hnone : signs.all (!q ·) = true) (h : q c = true) :
    isPlain c = true := by
  rw [isPlain, Bool.not_eq_true', ← Bool.not_eq_true, List.contains_iff_mem]
  intro hmem
  have hno := List.all_eq_true.mp hnone c hmem
  rw [h] at hno
  cases hno

theorem passed_of_plain (hseparator : separator ∈ separators) (h : cs.all isPlain = true) :
    Passed separator least cs := by
  induction cs with
  | nil => exact ⟨rfl, fun _ _ => by rw [topLevelPieces]⟩
  | cons c cs ih =>
    rw [List.all_cons, Bool.and_eq_true] at h
    obtain ⟨hstep, hequals, hseparates⟩ := step_of_isPlain h.1
    have hrest := ih h.2
    refine ⟨?_, fun d hd => ?_⟩
    · rw [rise, hstep, hrest.level, Int.zero_add]
      exact fun _ heq => absurd heq hequals
    · have hother : c ≠ separator := fun heq => hseparates (heq ▸ hseparator)
      rw [topLevelPieces_cons fun _ heq => absurd heq hequals, hstep, Int.add_zero,
        hrest.whole d hd, if_neg fun h => hother h.2.1]
      rfl

/-- A bracket around a text that is passed over. -/
theorem Passed.bracket (h : Passed separator (least + 1) cs) (hopen : step o = 1)
    (hclose : step c = -1) (hapart : Apart cs [c]) :
    Passed separator least (o :: (cs ++ [c])) := by
  have ho : o ≠ '=' := by rintro rfl; cases hopen
  have hc : c ≠ '=' := by rintro rfl; cases hclose
  have hlast : rise [c] = -1 := by
    rw [rise, hclose, rise]
    · rfl
    · exact fun _ heq => absurd heq hc
  refine ⟨?_, fun d hd => ?_⟩
  · rw [rise, rise_append hapart, h.level, hopen, hlast]
    · rfl
    · exact fun _ heq => absurd heq ho
  · have hend : topLevelPieces separator (d + 1) [c] = some [[c]] := by
      rw [topLevelPieces_cons fun _ heq => absurd heq hc, hclose, if_neg (by omega), topLevelPieces]
      rfl
    rw [topLevelPieces_cons fun _ heq => absurd heq ho, hopen, if_neg (by omega),
      topLevelPieces_append hapart, h.whole _ (by omega), h.level, Int.add_zero, Option.bind_some,
      hend]
    rfl

end

/-- The pieces that say something about the type, without the blanks around them. -/
def members (pieces : List (List Char)) : List (List Char) :=
  (pieces.map (strip isBlank)).filter (!isNullish ·)

def onlySymbol? : List (List Char) → Option (List Char)
  | [text] => symbolOf text
  | _ => none

def firstWord (text : List Char) : List Char :=
  (text.dropWhile isBlank).takeWhile Scanner.isWordPart

section
variable {text p q : List Char} {ps qs : List (List Char)}

theorem isNullish_eq_false : isNullish p = false ↔
    p ≠ [] ∧ p ≠ "null".toList ∧ p ≠ "undefined".toList := by
  simp only [isNullish, Bool.or_eq_false_iff, List.isEmpty_eq_false_iff, beq_eq_false_iff_ne,
    and_assoc, ne_eq]

theorem members_append (ps qs : List (List Char)) :
    members (ps ++ qs) = members ps ++ members qs := by
  simp [members]

theorem members_cons (p : List Char) (ps : List (List Char)) :
    members (p :: ps) = members [p] ++ members ps := members_append [p] ps

theorem members_congr (h : strip isBlank p = strip isBlank q) : members [p] = members [q] := by
  simp [members, h]

/-- Blanks in front of a union do not matter. -/
theorem members_prepend (hp : ∀ c ∈ p, isBlank c = true) (h : qs ≠ []) :
    members (prepend p qs) = members qs := by
  obtain ⟨q, qs, rfl⟩ := List.exists_cons_of_ne_nil h
  rw [prepend, members_cons, members_congr (strip_append_left hp), ← members_cons]

/-- Blanks at the end of a union do not matter. -/
theorem members_glue (hq : ∀ c ∈ q, isBlank c = true) (h : ps ≠ []) :
    members (glue ps (q :: qs)) = members ps ++ members qs := by
  induction ps with
  | nil => exact absurd rfl h
  | cons p ps ih =>
    cases ps with
    | nil => rw [glue, prepend, members_cons, members_congr (strip_append_right hq)]
    | cons p' ps =>
      rw [glue, members_cons, ih (List.cons_ne_nil _ _), members_cons p (p' :: ps), List.append_assoc]

theorem passed_of_blank {separator : Char} {least : Int} (hseparator : separator ∈ separators)
    (h : ∀ c ∈ p, isBlank c = true) : Passed separator least p :=
  passed_of_plain hseparator (List.all_eq_true.mpr fun c hc =>
    isPlain_of_class (by decide) (h c hc))

/-- Blanks at the ends do not matter to the symbol. -/
@[simp] theorem symbolOf_strip (text : List Char) : symbolOf (strip isBlank text) = symbolOf text := by
  rw [symbolOf_eq, symbolOf_eq text, form, form, bare, strip_strip, ← bare]

theorem bare_eq_strip (h : firstWord text ≠ "readonly".toList) : bare text = strip isBlank text := by
  rw [bare, withoutStart]
  cases hstart : Scanner.afterStart? "readonly ".toList (strip isBlank text) with
  | none => exact strip_strip
  | some rest =>
    obtain ⟨dropped, hdropped, -⟩ := dropEnd_append_dropped isBlank (text.dropWhile isBlank)
    rw [← strip, ← Scanner.append_of_afterStart? hstart] at hdropped
    have hword : firstWord text = "readonly".toList := by
      have hsplit : text.dropWhile isBlank = "readonly".toList ++ (' ' :: (rest ++ dropped)) := by
        rw [hdropped]
        simp
      rw [firstWord, hsplit]
      exact Scanner.takeWhile_append_stop (by decide) (by simp; decide)
    exact absurd hword h

/-- The pieces of a type with the blanks around it are those without, but for the blanks. -/
theorem topLevelPieces_strip (text : List Char) :
    (topLevelPieces '|' 0 text).map members =
      (topLevelPieces '|' 0 (strip isBlank text)).map members := by
  obtain ⟨a, b, htext, ha, hb⟩ := exists_append_strip isBlank text
  have hin : '|' ∈ separators := List.mem_cons_self
  have houter : Apart a (strip isBlank text ++ b) := by
    intro hlast
    cases ha '=' (List.mem_of_getLast? hlast)
  have hinner : Apart (strip isBlank text) b := by
    intro _ hhead
    cases hb '>' (List.mem_of_head? hhead)
  have hfront : Passed '|' 0 a := passed_of_blank hin ha
  have hback : Passed '|' (rise (strip isBlank text)) b := passed_of_blank hin hb
  have hpieces : topLevelPieces '|' 0 text =
      (topLevelPieces '|' 0 (strip isBlank text)).map fun ps => prepend a (glue ps [b]) := by
    refine (congrArg (topLevelPieces '|' 0) htext).trans ?_
    rw [topLevelPieces_append houter, hfront.whole 0 (Int.le_refl _), hfront.level,
      topLevelPieces_append hinner, Option.bind_some, Int.add_zero, Int.zero_add,
      hback.whole _ (Int.le_refl _)]
    cases topLevelPieces '|' 0 (strip isBlank text) <;> rfl
  rw [hpieces, Option.map_map]
  refine Option.map_congr fun ps hps => ?_
  have hne := ne_nil_of_topLevelPieces hps
  have hglue : glue ps [b] ≠ [] := by
    match ps with
    | [p] => exact List.cons_ne_nil _ _
    | p :: p' :: ps => exact List.cons_ne_nil _ _
  rw [Function.comp_apply, members_prepend ha hglue, members_glue hb hne]
  exact List.append_nil _

/-- A type with an arrow outside of brackets is a function type. -/
theorem symbolOf_of_arrow (h : topLevelPieces '|' 0 (bare text) = none) : symbolOf text = none := by
  have hform : form text = .noSymbol := by
    simp only [form, h, ite_self]
  rw [symbolOf_eq, hform]

/-- A type of several pieces is a union. -/
theorem symbolOf_of_many (h : topLevelPieces '|' 0 (bare text) = some ps) (hmany : 1 < ps.length) :
    symbolOf text = onlySymbol? (members ps) := by
  have hne : (bare text).isEmpty = false := by
    cases hbare : bare text with
    | nil =>
      rw [hbare, topLevelPieces, Option.some.injEq] at h
      rw [← h] at hmany
      exact absurd hmany (Nat.lt_irrefl 1)
    | cons c cs => rfl
  have hform : form text = unionForm ps := by
    simp only [form, hne, h, if_pos hmany, Bool.false_eq_true, if_false]
  have hunion : unionForm ps = match members ps with
    | [single] => .inner single
    | _ => .noSymbol := rfl
  rw [symbolOf_eq, hform, hunion]
  rcases members ps with _ | ⟨p, _ | ⟨q, rest⟩⟩ <;> rfl

/-- The symbol of a type is that of the only member of it that says something. -/
theorem symbolOf_eq_onlySymbol? (hreadonly : firstWord text ≠ "readonly".toList)
    (hnull : strip isBlank text ≠ "null".toList)
    (hundefined : strip isBlank text ≠ "undefined".toList) :
    symbolOf text = ((topLevelPieces '|' 0 text).map members).bind onlySymbol? := by
  have hbare := bare_eq_strip hreadonly
  rw [topLevelPieces_strip]
  cases hpieces : topLevelPieces '|' 0 (strip isBlank text) with
  | none => exact symbolOf_of_arrow (hbare ▸ hpieces)
  | some ps =>
    by_cases hmany : 1 < ps.length
    · exact symbolOf_of_many (hbare ▸ hpieces) hmany
    · obtain ⟨p, rfl⟩ : ∃ p, ps = [p] := by
        have hne := List.length_pos_iff.mpr (ne_nil_of_topLevelPieces hpieces)
        exact List.length_eq_one_iff.mp (by omega)
      obtain rfl : p = strip isBlank text := by
        simpa using intercalate_of_topLevelPieces hpieces
      by_cases hempty : strip isBlank text = []
      · have hform : form text = .noSymbol := by
          simp only [form, hbare, hempty, List.isEmpty_nil, if_true]
        rw [symbolOf_eq, hform, hempty]
        rfl
      · have hkept : members [strip isBlank text] = [strip isBlank text] := by
          have hsays := isNullish_eq_false.mpr ⟨hempty, hnull, hundefined⟩
          simp [members, hsays]
        rw [Option.map_some, Option.bind_some, hkept, onlySymbol?, symbolOf_strip]

/-- A type in parentheses has the symbol of the type. -/
theorem symbolOf_parens (h : ∀ separator ∈ separators, Passed separator 1 text)
    (hapart : Apart text [')']) : symbolOf ('(' :: (text ++ [')'])) = symbolOf text := by
  have hwhole (separator : Char) (hseparator : separator ∈ separators) :
      topLevelPieces separator 0 ('(' :: (text ++ [')'])) = some ['(' :: (text ++ [')'])] :=
    ((h separator hseparator).bracket rfl rfl hapart).whole 0 (Int.le_refl 0)
  have hword : firstWord ('(' :: (text ++ [')'])) ≠ "readonly".toList := by
    have hblank : isBlank '(' = false := by decide
    have hpart : Scanner.isWordPart '(' = false := by decide
    simp [firstWord, hblank, hpart]
  have hstrip : strip isBlank ('(' :: (text ++ [')'])) = '(' :: (text ++ [')']) := by
    apply strip_eq_self
    · rintro _ ⟨⟩
      decide
    · rw [← List.cons_append, List.getLast?_concat]
      rintro _ ⟨⟩
      decide
  have hbare : bare ('(' :: (text ++ [')'])) = '(' :: (text ++ [')']) := by
    rw [bare_eq_strip hword, hstrip]
  have hparens : inParentheses? ('(' :: (text ++ [')'])) = some text := by
    simp [inParentheses?]
  have hunion := hwhole '|' (by simp [separators])
  have hintersection := hwhole '&' (by simp [separators])
  have hform : form ('(' :: (text ++ [')'])) = .inner text := by
    simp [form, hbare, hunion, hintersection, simpleForm, hparens]
  rw [symbolOf_eq, hform]

end

end Subscriptions.TypeName
