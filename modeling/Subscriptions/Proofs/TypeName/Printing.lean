import Subscriptions.Proofs.TypeName.Language
import Subscriptions.Proofs.TypeName.Members

namespace Subscriptions.TypeName

open Subscriptions.Types Scanner
open Text (isBlank strip strip_append_left strip_eq_self)

abbrev Separator := {c : Char // c ∈ separators}

def bar : Separator := ⟨'|', by decide⟩

/-- A text that a scan passes over and that may not begin an arrow. -/
structure Closed (s : Separator) (least : Int) (cs : List Char) : Prop where
  passed : Passed s least cs
  ends : cs.getLast? ≠ some '='

section
variable {s : Separator} {least : Int} {cs ds : List Char} {c o : Char}

theorem closed_of_plain (h : cs.all isPlain = true) : Closed s least cs where
  passed := passed_of_plain s.property h
  ends hlast := by cases List.all_eq_true.mp h '=' (List.mem_of_getLast? hlast)

theorem Closed.mono {more : Int} (h : Closed s least cs) (hle : least ≤ more) : Closed s more cs :=
  ⟨h.passed.mono hle, h.ends⟩

theorem Closed.append (hcs : Closed s least cs) (hds : Closed s least ds) : Closed s least (cs ++ ds) where
  passed := hcs.passed.append hds.passed fun hlast => absurd hlast hcs.ends
  ends := by
    rw [List.getLast?_append]
    cases hlast : ds.getLast? with
    | none => exact hcs.ends
    | some d =>
      rw [← hlast, Option.or_eq_left_of_isSome (hlast ▸ rfl)]
      exact hds.ends

theorem Closed.bracket (h : Closed s 1 cs) (hopen : step o = 1) (hclose : step c = -1) :
    Closed s 0 (o :: (cs ++ [c])) where
  passed := h.passed.bracket hopen hclose fun hlast => absurd hlast h.ends
  ends := by
    rw [← List.cons_append, List.getLast?_concat]
    rintro ⟨⟩
    cases hclose

theorem isBlank_of_mem_blanks {n : Nat} : ∀ c ∈ blanks n, isBlank c = true := fun _ hc =>
  List.eq_of_mem_replicate hc ▸ by decide

theorem closed_blanks (n : Nat) : Closed s least (blanks n) :=
  closed_of_plain (List.all_eq_true.mpr fun c hc =>
    isPlain_of_class (by decide) (isBlank_of_mem_blanks c hc))

theorem closed_joined {before after : Nat} (hcs : Closed s least cs) (hsign : Closed s least [c])
    (hds : Closed s least ds) : Closed s least (joined cs before c after ds) :=
  hcs.append ((closed_blanks before).append (hsign.append ((closed_blanks after).append hds)))

theorem closed_bracketed {before after : Nat} (h : Closed s 1 cs) (hopen : step o = 1)
    (hclose : step c = -1) : Closed s 0 (bracketed o before cs after c) :=
  Closed.bracket ((closed_blanks before).append (h.append (closed_blanks after))) hopen hclose

theorem closed_suffixed {gap before after : Nat} (hcs : Closed s 0 cs) (hds : Closed s 1 ds)
    (hopen : step o = 1) (hclose : step c = -1) : Closed s 0 (suffixed cs gap o before ds after c) :=
  hcs.append ((closed_blanks gap).append (closed_bracketed hds hopen hclose))

theorem closed_arrayed {gap inside : Nat} (h : Closed s 0 cs) : Closed s 0 (arrayed cs gap inside) :=
  closed_suffixed h (closed_of_plain rfl) rfl rfl

theorem closed_prefixed {keyword : String} {wordy : Bool} {lead : Nat}
    (hkeyword : keyword.toList.all isPlain = true) (h : Closed s least cs) :
    Closed s least (prefixed keyword wordy lead cs) :=
  (closed_of_plain hkeyword).append ((closed_blanks _).append h)

/-- A separator that the scan does not cut at, or not at this depth. -/
theorem closed_separator (h : c ∈ separators) (hpass : c = s → 1 ≤ least) : Closed s least [c] := by
  have hsign := step_of_separator h
  have hlone : ∀ rest, c = '=' → [] = '>' :: rest → False := fun _ heq => absurd heq hsign.2
  refine ⟨⟨?_, fun d hd => ?_⟩, fun hlast => hsign.2 (Option.some.inj hlast)⟩
  · rw [rise, hsign.1, rise]
    · rfl
    · exact hlone
  · have hcut : ¬ (step c = 0 ∧ c = s ∧ d = 0) := by
      rintro ⟨-, hc, rfl⟩
      exact absurd (Int.le_trans (hpass hc) hd) (by decide)
    rw [topLevelPieces_cons hlone, if_neg hcut, topLevelPieces]
    rfl

theorem closed_arrow : Closed s 1 ['=', '>'] := by
  refine ⟨⟨rfl, fun d hd => ?_⟩, by decide⟩
  rw [topLevelPieces_arrow, if_neg (by omega), topLevelPieces]
  rfl

theorem all_isWordPart (x : Ident) : x.chars.all isWordPart = true := by
  rw [Ident.chars, List.all_cons, isWordPart_of_isWordStart x.starts, x.goesOn]
  rfl

theorem closed_ident (x : Ident) : Closed s least x.chars :=
  closed_of_plain (List.all_eq_true.mpr fun c hc =>
    isPlain_of_class (by decide) (List.all_eq_true.mp (all_isWordPart x) c hc))

theorem closed_name (d : Name) : Closed s least d.chars := by
  induction d with
  | word x => exact closed_ident x.toIdent
  | member d before after x ih =>
    exact closed_joined ih (closed_of_plain (by decide)) (closed_ident x)

theorem closed_literal (l : Literal) : Closed s least l.chars := by
  have hquote : isPlain l.quote = true := by
    rw [Literal.quote]
    split <;> decide
  refine closed_of_plain ?_
  rw [Literal.chars, List.all_cons, List.all_append, hquote, List.all_cons, hquote]
  simpa using fun c hc =>
    isPlain_of_class (by decide) (List.all_eq_true.mp l.alphanumeric c hc)

mutual
theorem Primary.closed : ∀ p : Primary, Closed s 0 p.chars
  | .name d => closed_name d
  | .generic d _ _ args _ => closed_suffixed (closed_name d) args.closed rfl rfl
  | .array element gap inside => closed_arrayed element.closed
  | .paren before t after => closed_bracketed t.closed rfl rfl
  | .literal l => closed_literal l
  | .tuple before elements after => closed_bracketed elements.closed rfl rfl
  | .emptyTuple inside => closed_bracketed (closed_of_plain rfl) rfl rfl
  | .object before fields after => closed_bracketed (fields.closed ';' rfl) rfl rfl
  | .query gap d => closed_prefixed (by decide) (closed_name d)
  | .indexed base _ _ key _ => closed_suffixed base.closed (closed_literal key) rfl rfl

theorem Operator.closed : ∀ o : Operator, Closed s 0 o.chars
  | .primary p => p.closed
  | .readonlyArray lead element gap inside =>
    closed_prefixed (by decide) (closed_arrayed element.closed)
  | .keyof lead o => closed_prefixed (by decide) o.closed

theorem Intersection.closed : ∀ i : Intersection, Closed s 1 i.chars
  | .one o => o.closed.mono (by decide)
  | .more o before after i =>
    closed_joined (o.closed.mono (by decide)) (closed_separator (by decide) fun _ => Int.le_refl 1) i.closed

theorem Union.closed : ∀ u : Union, Closed s 1 u.chars
  | .one i => i.closed
  | .more i before after u => closed_joined i.closed (closed_separator (by decide) fun _ => Int.le_refl 1) u.closed

theorem Ty.closed : ∀ t : Ty, Closed s 1 t.chars
  | .union u => u.closed
  | .function before params after arrowBefore arrowAfter result =>
    ((closed_bracketed (params.closed ',' rfl) rfl rfl).mono (by decide)).append
      ((closed_blanks arrowBefore).append
        (closed_arrow.append ((closed_blanks arrowAfter).append result.closed)))

theorem Args.closed : ∀ args : Args, Closed s 1 args.chars
  | .last t => t.closed
  | .more t before after args => closed_joined t.closed (closed_of_plain (by decide)) args.closed

theorem Fields.closed (separator : Char) (hseparator : isPlain separator = true) :
    ∀ fields : Fields, Closed s 1 (fields.chars separator)
  | .none => closed_of_plain rfl
  | .last x before after t => closed_joined (closed_ident x) (closed_of_plain (by decide)) t.closed
  | .more x before after t gap next fields =>
    closed_joined
      (closed_joined (closed_ident x) (closed_of_plain (by decide)) t.closed)
      (closed_of_plain (by simp [hseparator])) (fields.closed separator hseparator)
end

/-- An intersection is one member of a union. -/
theorem Intersection.closed_bar : ∀ i : Intersection, Closed bar 0 i.chars
  | .one o => o.closed
  | .more o _ _ i =>
    closed_joined o.closed (closed_separator (by decide) fun h => by cases h) i.closed_bar

end

/-- The text without `readonly`, if a blank stands behind it. -/
def Operator.body : Operator → List Char
  | .readonlyArray lead element gap inside =>
    if lead + element.wordy.toNat = 0 then
      prefixed "readonly" element.wordy lead (arrayed element.chars gap inside)
    else arrayed element.chars gap inside
  | o => o.chars

def Intersection.body : Intersection → List Char
  | .one o => o.body
  | .more o before after i => joined o.body before '&' after i.chars

/-- Text that begins and ends with something else than a blank. -/
structure Edged (cs : List Char) : Prop where
  first : ∃ c ∈ cs.head?, isBlank c = false
  last : ∃ c ∈ cs.getLast?, isBlank c = false

section
variable {cs ds tail : List Char} {c o : Char}

theorem getLast?_bracketed {before after : Nat} :
    (bracketed o before cs after c).getLast? = some c := by
  rw [bracketed, ← List.cons_append, List.getLast?_concat]

theorem Edged.ne_nil (h : Edged cs) : cs ≠ [] := by
  rintro rfl
  obtain ⟨c, hc, -⟩ := h.first
  cases hc

theorem Edged.head (h : Edged cs) : ∀ c ∈ cs.head?, isBlank c = false := by
  obtain ⟨d, hd, hfirst⟩ := h.first
  intro c hc
  rwa [Option.mem_unique hc hd]

theorem Edged.getLast (h : Edged cs) : ∀ c ∈ cs.getLast?, isBlank c = false := by
  obtain ⟨d, hd, hlast⟩ := h.last
  intro c hc
  rwa [Option.mem_unique hc hd]

theorem Edged.strip (h : Edged cs) : strip isBlank cs = cs := strip_eq_self h.head h.getLast

theorem Edged.append (hcs : Edged cs) (hds : Edged ds) (middle : List Char) :
    Edged (cs ++ (middle ++ ds)) where
  first := by
    obtain ⟨c, hc, hfirst⟩ := hcs.first
    exact ⟨c, by rw [List.head?_append, Option.mem_def.mp hc]; rfl, hfirst⟩
  last := by
    obtain ⟨c, hc, hlast⟩ := hds.last
    refine ⟨c, ?_, hlast⟩
    rw [← List.append_assoc, List.getLast?_append, Option.mem_def.mp hc]
    rfl

theorem Edged.joined {before after : Nat} (hcs : Edged cs) (hds : Edged ds) :
    Edged (joined cs before c after ds) := by
  have h := hcs.append hds (blanks before ++ c :: blanks after)
  rwa [List.append_assoc, List.cons_append] at h

theorem edged_bracketed {before after : Nat} (ho : isBlank o = false) (hc : isBlank c = false) :
    Edged (bracketed o before cs after c) :=
  ⟨⟨o, rfl, ho⟩, c, getLast?_bracketed, hc⟩

theorem edged_of_isWordPart (hne : cs ≠ []) (h : cs.all isWordPart = true) : Edged cs where
  first := by
    cases cs with
    | nil => exact absurd rfl hne
    | cons c cs => exact ⟨c, rfl, isBlank_of_isWordPart (List.all_eq_true.mp h c List.mem_cons_self)⟩
  last := ⟨cs.getLast hne, List.getLast?_eq_some_getLast hne,
    isBlank_of_isWordPart (List.all_eq_true.mp h _ (List.getLast_mem hne))⟩

theorem edged_ident (x : Ident) : Edged x.chars :=
  edged_of_isWordPart (List.cons_ne_nil _ _) (all_isWordPart x)

theorem Name.edged : ∀ d : Name, Edged d.chars
  | .word x => edged_ident x.toIdent
  | .member d _ _ x => d.edged.joined (edged_ident x)

theorem edged_prefixed {keyword : String} {wordy : Bool} {lead : Nat}
    (hkeyword : Edged keyword.toList) (h : Edged cs) : Edged (prefixed keyword wordy lead cs) :=
  hkeyword.append h _

theorem Edged.suffixed {gap before after : Nat} (h : Edged cs) (hc : isBlank c = false)
    (ho : isBlank o = false) : Edged (suffixed cs gap o before ds after c) :=
  h.append (edged_bracketed ho hc) _

theorem Literal.quote_sign (l : Literal) : isBlank l.quote = false ∧ isWordPart l.quote = false := by
  rw [Literal.quote]
  split <;> decide

theorem Literal.getLast?_chars (l : Literal) : l.chars.getLast? = some l.quote := by
  rw [Literal.chars, ← List.cons_append, List.getLast?_concat]

theorem Literal.edged (l : Literal) : Edged l.chars :=
  ⟨⟨_, rfl, l.quote_sign.1⟩, l.quote, l.getLast?_chars, l.quote_sign.1⟩

theorem Primary.edged : ∀ p : Primary, Edged p.chars
  | .name d => d.edged
  | .generic d _ _ _ _ => d.edged.suffixed (by decide) (by decide)
  | .array element _ _ => element.edged.suffixed (by decide) (by decide)
  | .paren _ _ _ => edged_bracketed (by decide) (by decide)
  | .literal l => l.edged
  | .tuple _ _ _ => edged_bracketed (by decide) (by decide)
  | .emptyTuple _ => edged_bracketed (by decide) (by decide)
  | .object _ _ _ => edged_bracketed (by decide) (by decide)
  | .query _ d => edged_prefixed (edged_of_isWordPart (by decide) (by decide)) d.edged
  | .indexed base _ _ _ _ => base.edged.suffixed (by decide) (by decide)

theorem edged_arrayed (element : Primary) (gap inside : Nat) :
    Edged (arrayed element.chars gap inside) :=
  element.edged.suffixed (by decide) (by decide)

theorem Operator.edged : ∀ o : Operator, Edged o.chars
  | .primary p => p.edged
  | .readonlyArray _ element gap inside =>
    edged_prefixed (edged_of_isWordPart (by decide) (by decide)) (edged_arrayed element gap inside)
  | .keyof _ o => edged_prefixed (edged_of_isWordPart (by decide) (by decide)) o.edged

theorem Intersection.edged : ∀ i : Intersection, Edged i.chars
  | .one o => o.edged
  | .more o _ _ i => o.edged.joined i.edged

theorem Union.edged : ∀ u : Union, Edged u.chars
  | .one i => i.edged
  | .more i _ _ u => i.edged.joined u.edged

/-- The body is the text, but for `readonly` in front of it. -/
theorem Operator.chars_eq_or (o : Operator) :
    o.chars = o.body ∨ ∃ n, o.chars = "readonly ".toList ++ (blanks n ++ o.body) := by
  cases o with
  | primary p => exact .inl rfl
  | keyof lead o => exact .inl rfl
  | readonlyArray lead element gap inside =>
    rw [Operator.chars, Operator.body]
    split
    · exact .inl rfl
    · rename_i hlead
      obtain ⟨n, hn⟩ := Nat.exists_eq_succ_of_ne_zero hlead
      exact .inr ⟨n, by rw [prefixed, hn, blanks, List.replicate_succ]; rfl⟩

theorem readonlyArray_body (lead : Nat) (element : Primary) (gap inside : Nat) :
    ∃ front, (Operator.readonlyArray lead element gap inside).body =
      front ++ bracketed '[' inside [] 0 ']' := by
  rw [Operator.body, prefixed, arrayed, suffixed]
  split
  · exact ⟨"readonly".toList ++
      (blanks (lead + element.wordy.toNat) ++ (element.chars ++ blanks gap)), by
        simp only [List.append_assoc]⟩
  · exact ⟨element.chars ++ blanks gap, (List.append_assoc ..).symm⟩

theorem Operator.edged_body (o : Operator) : Edged o.body := by
  cases o with
  | primary p => exact p.edged
  | keyof lead o => exact (Operator.keyof lead o).edged
  | readonlyArray lead element gap inside =>
    rw [Operator.body]
    split
    · exact (Operator.readonlyArray lead element gap inside).edged
    · exact edged_arrayed element gap inside

theorem stops_blanks {n : Nat} (h : isWordPart c = false) :
    ∀ d ∈ (blanks n ++ c :: cs).head?, isWordPart d = false := by
  cases n with
  | zero =>
    rintro _ ⟨⟩
    exact h
  | succ n =>
    rintro _ ⟨⟩
    decide

/-- A word with no word part behind it is the first word. -/
theorem firstWord_of_word (hne : cs ≠ []) (hword : cs.all isWordPart = true)
    (htail : ∀ c ∈ tail.head?, isWordPart c = false) : firstWord (cs ++ tail) = cs := by
  obtain ⟨c, cs, rfl⟩ := List.exists_cons_of_ne_nil hne
  have hblank := isBlank_of_isWordPart (List.all_eq_true.mp hword c List.mem_cons_self)
  rw [firstWord, List.cons_append, List.dropWhile_cons_of_neg (by simp [hblank]), ← List.cons_append]
  exact takeWhile_append_stop hword htail

theorem firstWord_of_sign (hblank : isBlank c = false) (hsign : isWordPart c = false) :
    firstWord (c :: cs) = [] := by
  rw [firstWord, List.dropWhile_cons_of_neg (by simp [hblank]),
    List.takeWhile_cons_of_neg (by simp [hsign])]

theorem firstWord_suffixed {gap before after : Nat} {word : List Char} (ho : isWordPart o = false)
    (h : ∀ tail, (∀ c ∈ tail.head?, isWordPart c = false) → firstWord (cs ++ tail) ≠ word) :
    firstWord (suffixed cs gap o before ds after c ++ tail) ≠ word := by
  rw [suffixed, List.append_assoc]
  apply h
  rw [List.append_assoc]
  exact stops_blanks ho

theorem Name.firstWord_ne (d : Name) : ∀ tail, (∀ c ∈ tail.head?, isWordPart c = false) →
    firstWord (d.chars ++ tail) ≠ "readonly".toList := by
  induction d with
  | word x =>
    intro tail htail hword
    have hx : x.chars ≠ [] := List.cons_ne_nil _ _
    exact x.free ((firstWord_of_word hx (all_isWordPart x.toIdent) htail).symm.trans hword)
  | member d before after x ih =>
    intro tail htail
    rw [Name.chars, joined, List.append_assoc]
    apply ih
    rw [List.append_assoc]
    exact stops_blanks (by decide)

theorem head?_suffixed {gap before after : Nat} (h : cs ≠ []) :
    (suffixed cs gap o before ds after c).head? = cs.head? := by
  obtain ⟨d, cs, rfl⟩ := List.exists_cons_of_ne_nil h
  rfl

theorem Primary.head_sign : ∀ p : Primary, p.wordy = false →
    ∀ c ∈ p.chars.head?, isWordPart c = false
  | .array element gap inside, h => by
    rw [Primary.chars, arrayed, head?_suffixed element.edged.ne_nil]
    exact element.head_sign h
  | .indexed base gap before key after, h => by
    rw [Primary.chars, head?_suffixed base.edged.ne_nil]
    exact base.head_sign h
  | .paren _ _ _, _ => by rintro _ ⟨⟩; decide
  | .literal l, _ => by rintro _ ⟨⟩; exact l.quote_sign.2
  | .tuple _ _ _, _ => by rintro _ ⟨⟩; decide
  | .emptyTuple _, _ => by rintro _ ⟨⟩; decide
  | .object _ _ _, _ => by rintro _ ⟨⟩; decide

theorem firstWord_prefixed {keyword : String} {wordy : Bool} {lead : Nat}
    (hne : keyword.toList ≠ []) (hkeyword : keyword.toList.all isWordPart = true)
    (hcs : cs ≠ []) (h : wordy = false → ∀ c ∈ cs.head?, isWordPart c = false) :
    firstWord (prefixed keyword wordy lead cs ++ tail) = keyword.toList := by
  rw [prefixed, List.append_assoc]
  refine firstWord_of_word hne hkeyword ?_
  obtain ⟨c, cs, rfl⟩ := List.exists_cons_of_ne_nil hcs
  cases wordy with
  | true =>
    rintro _ ⟨⟩
    decide
  | false =>
    rw [List.append_assoc]
    exact stops_blanks (h rfl c rfl)

theorem Primary.firstWord_ne : ∀ (p : Primary) (tail : List Char),
    (∀ c ∈ tail.head?, isWordPart c = false) → firstWord (p.chars ++ tail) ≠ "readonly".toList
  | .name d => d.firstWord_ne
  | .generic d _ _ _ _ => fun _ _ => firstWord_suffixed (by decide) d.firstWord_ne
  | .array element _ _ => fun _ _ => firstWord_suffixed (by decide) element.firstWord_ne
  | .indexed base _ _ _ _ => fun _ _ => firstWord_suffixed (by decide) base.firstWord_ne
  | .query gap d => fun tail _ => by
    have hword : firstWord (prefixed "typeof" true gap d.chars ++ tail) = "typeof".toList :=
      firstWord_prefixed (by decide) (by decide) d.edged.ne_nil nofun
    rw [Primary.chars, hword]
    decide
  | .literal l => fun _ _ => by
    rw [Primary.chars, Literal.chars, List.cons_append,
      firstWord_of_sign l.quote_sign.1 l.quote_sign.2]
    decide
  | .paren _ _ _ | .tuple _ _ _ | .emptyTuple _ | .object _ _ _ => fun _ _ => by
    rw [Primary.chars, bracketed, List.cons_append, firstWord_of_sign (by decide) (by decide)]
    decide

theorem Operator.wordy_head (o : Operator) (h : o.wordy = false) :
    ∀ c ∈ o.chars.head?, isWordPart c = false := by
  cases o with
  | primary p => exact p.head_sign h
  | readonlyArray lead element gap inside => cases h
  | keyof lead o => cases h

theorem Operator.not_readonly (o : Operator) (htail : ∀ c ∈ tail.head?, isWordPart c = false) :
    ¬ "readonly ".toList <+: o.body ++ tail := by
  rintro ⟨rest, hrest⟩
  have hword : firstWord (o.body ++ tail) = "readonly".toList := by
    have hsplit : "readonly ".toList ++ rest = "readonly".toList ++ ' ' :: rest := rfl
    rw [← hrest, hsplit]
    refine firstWord_of_word (by decide) (by decide) ?_
    rintro _ ⟨⟩
    decide
  cases o with
  | primary p => exact p.firstWord_ne tail htail hword
  | keyof lead o =>
    have hkeyof : firstWord (prefixed "keyof" o.wordy lead o.chars ++ tail) = "keyof".toList :=
      firstWord_prefixed (by decide) (by decide) o.edged.ne_nil o.wordy_head
    exact absurd (hkeyof.symm.trans hword) (by decide)
  | readonlyArray lead element gap inside =>
    rw [Operator.body] at hrest hword
    split at hrest
    · rename_i hlead
      rw [prefixed, hlead, blanks_zero, List.nil_append] at hrest
      obtain ⟨c, hc, hblank⟩ := (edged_arrayed element gap inside).first
      have hhead : ' ' :: rest = arrayed element.chars gap inside ++ tail := by
        simpa using hrest
      have hspace := congrArg List.head? hhead
      rw [List.head?_append, Option.mem_def.mp hc] at hspace
      obtain rfl : ' ' = c := Option.some.inj hspace
      cases hblank
    · rename_i hlead
      rw [if_neg hlead] at hword
      exact (Primary.array element gap inside).firstWord_ne tail htail hword

theorem bare_of_edged (h : Edged cs) (hstart : ¬ "readonly ".toList <+: cs) : bare cs = cs := by
  rw [bare, h.strip, withoutStart]
  cases hafter : afterStart? "readonly ".toList cs with
  | none => exact h.strip
  | some rest => exact absurd ⟨rest, append_of_afterStart? hafter⟩ hstart

theorem bare_readonly (h : Edged cs) (n : Nat) :
    bare ("readonly ".toList ++ (blanks n ++ cs)) = cs := by
  have hreadonly : Edged "readonly".toList := edged_of_isWordPart (by decide) (by decide)
  have hedged : Edged ("readonly ".toList ++ (blanks n ++ cs)) := hreadonly.append h (' ' :: blanks n)
  have hafter : afterStart? "readonly ".toList ("readonly ".toList ++ (blanks n ++ cs)) =
      some (blanks n ++ cs) := afterStart?_append _
  rw [bare, hedged.strip, withoutStart, hafter, Option.getD_some, strip_append_left isBlank_of_mem_blanks,
    h.strip]

theorem Operator.bare_append (o : Operator) (hedged : Edged (o.body ++ tail))
    (htail : ∀ c ∈ tail.head?, isWordPart c = false) :
    bare (o.chars ++ tail) = o.body ++ tail ∧ bare (o.body ++ tail) = o.body ++ tail := by
  have hbody := bare_of_edged hedged (o.not_readonly htail)
  refine ⟨?_, hbody⟩
  rcases o.chars_eq_or with h | ⟨n, h⟩
  · rw [h, hbody]
  · rw [h, List.append_assoc, List.append_assoc, bare_readonly hedged]

theorem Intersection.edged_body : ∀ i : Intersection, Edged i.body
  | .one o => o.edged_body
  | .more o _ _ i => o.edged_body.joined i.edged

theorem Intersection.bare_append (i : Intersection) (hedged : Edged (i.body ++ tail))
    (htail : ∀ c ∈ tail.head?, isWordPart c = false) :
    bare (i.chars ++ tail) = i.body ++ tail ∧ bare (i.body ++ tail) = i.body ++ tail := by
  cases i with
  | one o => exact o.bare_append hedged htail
  | more o before after i =>
    rw [Intersection.body, joined, List.append_assoc] at hedged ⊢
    rw [Intersection.chars, joined, List.append_assoc]
    exact o.bare_append hedged (by rw [List.append_assoc]; exact stops_blanks (by decide))

theorem Operator.closed_body {s : Separator} (o : Operator) : Closed s 0 o.body := by
  cases o with
  | primary p => exact p.closed
  | keyof lead o => exact (Operator.keyof lead o).closed
  | readonlyArray lead element gap inside =>
    rw [Operator.body]
    split
    · exact (Operator.readonlyArray lead element gap inside).closed
    · exact closed_arrayed element.closed

theorem Intersection.closed_body : ∀ i : Intersection, Closed bar 0 i.body
  | .one o => o.closed_body
  | .more o _ _ i =>
    closed_joined o.closed_body (closed_separator (by decide) fun h => by cases h) i.closed_bar

theorem Intersection.bare_chars (i : Intersection) : bare i.chars = i.body ∧ bare i.body = i.body := by
  have hedged : Edged (i.body ++ []) := by rw [List.append_nil]; exact i.edged_body
  obtain ⟨hchars, hbody⟩ := i.bare_append hedged nofun
  rw [List.append_nil] at hbody
  rw [List.append_nil, List.append_nil] at hchars
  exact ⟨hchars, hbody⟩

/-- `readonly` in front does not matter to the symbol. -/
theorem Intersection.symbolOf_body (i : Intersection) : symbolOf i.body = symbolOf i.chars := by
  rw [symbolOf_eq, symbolOf_eq i.chars, form, form, i.bare_chars.1, i.bare_chars.2]

end

end Subscriptions.TypeName
