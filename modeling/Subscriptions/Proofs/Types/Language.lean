import Subscriptions.Proofs.Syntax.Touching

namespace Subscriptions.Types

open Text Scanner Piece Ink

/-- A word that names may be made of. -/
structure Ident where
  first : Char
  others : List Char
  starts : isWordStart first = true
  goesOn : others.all isWordPart = true

namespace Ident

def chars (x : Ident) : List Char := x.first :: x.others

def text (x : Ident) : String := String.ofList x.chars

/-- `A`, as it stands in examples. -/
def sampleType : Ident := ⟨'A', [], by decide, List.all_nil⟩

/-- `x`, as it stands in examples. -/
def sampleName : Ident := ⟨'x', [], by decide, List.all_nil⟩

end Ident

/-- The words that are no identifiers. -/
def reserved : List String := [
  "await", "break", "case", "catch", "class", "const", "continue", "debugger", "default", "delete",
  "do", "else", "enum", "export", "extends", "false", "finally", "for", "function", "if", "import",
  "in", "instanceof", "new", "null", "return", "super", "switch", "this", "throw", "true", "try",
  "typeof", "var", "void", "while", "with", "yield"]

structure Identifier extends Ident where
  free : toIdent.text ∉ reserved

/-- A dotted name. -/
inductive Path
  | word (x : Ident)
  | member (d : Path) (x : Ident)

mutual
inductive Ty
  | name (d : Path)
  | generic (d : Path) (args : Args)
  | array (t : Ty)
  | union (a b : Ty)
  | function (params : Fields) (result : Ty)
  | object (fields : Fields)
  | paren (t : Ty)

inductive Args
  | last (t : Ty)
  | more (t : Ty) (args : Args)

/-- Names with their types: the parameters of a function type or the members of an object type. A
separator may also stand behind the last. -/
inductive Fields
  | none
  | last (x : Ident) (t : Ty)
  | more (x : Ident) (t : Ty) (fields : Fields)
end

def blanks (n : Nat) : List Char := List.replicate n ' '

def Path.chars : Path → List Char
  | .word x => x.chars
  | .member d x => d.chars ++ '.' :: x.chars

mutual
/-- The text of a type, with so many blanks wherever a type may have some. -/
def Ty.chars (gap : Nat) : Ty → List Char
  | .name d => d.chars
  | .generic d args => d.chars ++ '<' :: (args.chars gap ++ ['>'])
  | .array t => t.chars gap ++ ['[', ']']
  | .union a b => a.chars gap ++ (blanks gap ++ '|' :: (blanks gap ++ b.chars gap))
  | .function params result => '(' :: (params.chars gap ',' 0 ++
    ')' :: (blanks gap ++ '=' :: '>' :: (blanks gap ++ result.chars gap)))
  | .object fields => '{' :: (fields.chars gap ';' gap ++ (blanks gap ++ ['}']))
  | .paren t => '(' :: (t.chars gap ++ [')'])

def Args.chars (gap : Nat) : Args → List Char
  | .last t => t.chars gap
  | .more t args => t.chars gap ++ ',' :: (blanks gap ++ args.chars gap)

/-- Fields with a separator between each two, and so many blanks before the first. -/
def Fields.chars (gap : Nat) (separator : Char) (lead : Nat) : Fields → List Char
  | .none => []
  | .last x t => blanks lead ++ (x.chars ++ ':' :: (blanks gap ++ t.chars gap))
  | .more x t fields => blanks lead ++ (x.chars ++ ':' :: (blanks gap ++ (t.chars gap ++
    separator :: fields.chars gap separator gap)))
end

def Ty.text (gap : Nat) (t : Ty) : String := String.ofList (t.chars gap)

def mark (lead : Nat) (p : String) : Ink := behind (blanks lead) (punct p)

def Ident.ink (lead : Nat) (x : Ident) : Ink := behind (blanks lead) (word x.text)

def closing : Nat → List Ink
  | 0 => []
  | 1 => [mark 0 ">"]
  | 2 => [mark 0 ">>"]
  | n + 3 => mark 0 ">>>" :: closing n

def Path.inks (lead : Nat) : Path → List Ink
  | .word x => [x.ink lead]
  | .member d x => d.inks lead ++ [mark 0 ".", x.ink 0]

mutual
/-- The tokens of a type behind so many blanks, and of `n` closing angle brackets that touch it. -/
def Ty.inks (gap lead : Nat) : Ty → Nat → List Ink
  | .name d, n => d.inks lead ++ closing n
  | .generic d args, n => d.inks lead ++ mark 0 "<" :: args.inks gap 0 (n + 1)
  | .array t, n => t.inks gap lead 0 ++ mark 0 "[" :: mark 0 "]" :: closing n
  | .union a b, n => a.inks gap lead 0 ++ mark gap "|" :: b.inks gap gap n
  | .function params result, n => mark lead "(" :: (params.inks gap "," 0 ++
    mark 0 ")" :: mark gap "=>" :: result.inks gap gap n)
  | .object fields, n => mark lead "\x7b" :: (fields.inks gap ";" gap ++
    mark gap "\x7d" :: closing n)
  | .paren t, n => mark lead "(" :: (t.inks gap 0 0 ++ mark 0 ")" :: closing n)

def Args.inks (gap lead : Nat) : Args → Nat → List Ink
  | .last t, n => t.inks gap lead n
  | .more t args, n => t.inks gap lead 0 ++ mark 0 "," :: args.inks gap gap n

def Fields.inks (gap : Nat) (separator : String) (lead : Nat) : Fields → List Ink
  | .none => []
  | .last x t => x.ink lead :: mark 0 ":" :: t.inks gap gap 0
  | .more x t fields => x.ink lead :: mark 0 ":" ::
    (t.inks gap gap 0 ++ mark 0 separator :: fields.inks gap separator gap)
end

mutual
/-- The number of closing angle brackets with which a type ends. -/
def Ty.tail : Ty → Nat
  | .generic _ args => args.tail + 1
  | .union _ b => b.tail
  | .function _ result => result.tail
  | _ => 0

def Args.tail : Args → Nat
  | .last t => t.tail
  | .more _ args => args.tail
end

mutual
/-- The tokens of a type without the closing angle brackets with which it ends. -/
def Ty.front (gap lead : Nat) : Ty → List Ink
  | .name d => d.inks lead
  | .generic d args => d.inks lead ++ mark 0 "<" :: args.front gap 0
  | .array t => t.inks gap lead 0 ++ [mark 0 "[", mark 0 "]"]
  | .union a b => a.inks gap lead 0 ++ mark gap "|" :: b.front gap gap
  | .function params result => mark lead "(" :: (params.inks gap "," 0 ++
    mark 0 ")" :: mark gap "=>" :: result.front gap gap)
  | .object fields => mark lead "\x7b" :: (fields.inks gap ";" gap ++ [mark gap "\x7d"])
  | .paren t => mark lead "(" :: (t.inks gap 0 0 ++ [mark 0 ")"])

def Args.front (gap lead : Nat) : Args → List Ink
  | .last t => t.front gap lead
  | .more t args => t.inks gap lead 0 ++ mark 0 "," :: args.front gap gap
end

section
variable (gap : Nat)

mutual
theorem Ty.inks_eq_front : ∀ (t : Ty) (lead n : Nat),
    t.inks gap lead n = t.front gap lead ++ closing (t.tail + n)
  | .name d, lead, n => by simp [Ty.inks, Ty.front, Ty.tail]
  | .generic d args, lead, n => by
    simp [Ty.inks, Ty.front, Ty.tail, args.inks_eq_front, Nat.add_assoc, Nat.add_comm 1 n]
  | .array t, lead, n => by simp [Ty.inks, Ty.front, Ty.tail]
  | .union a b, lead, n => by simp [Ty.inks, Ty.front, Ty.tail, b.inks_eq_front]
  | .function params result, lead, n => by
    simp [Ty.inks, Ty.front, Ty.tail, result.inks_eq_front]
  | .object fields, lead, n => by simp [Ty.inks, Ty.front, Ty.tail]
  | .paren t, lead, n => by simp [Ty.inks, Ty.front, Ty.tail]

theorem Args.inks_eq_front : ∀ (args : Args) (lead n : Nat),
    args.inks gap lead n = args.front gap lead ++ closing (args.tail + n)
  | .last t, lead, n => t.inks_eq_front lead n
  | .more t args, lead, n => by simp [Args.inks, Args.front, Args.tail, args.inks_eq_front]
end

end

section
variable (gap lead n : Nat)

@[simp] theorem mark_piece (p : String) : (mark lead p).piece = punct p := rfl

@[simp] theorem mark_lead (p : String) : (mark lead p).lead.toList = blanks lead := by
  simp [mark, behind]

@[simp] theorem Ident.ink_piece (x : Ident) : (x.ink lead).piece = word x.text := rfl

@[simp] theorem Ident.ink_lead (x : Ident) : (x.ink lead).lead.toList = blanks lead := by
  simp [Ident.ink, behind]

@[simp] theorem Ident.text_toList (x : Ident) : x.text.toList = x.chars := String.toList_ofList

def startsWord (p : String) : Bool := p.toList.head?.any isWordStart

theorem Ident.text_ne {p : String} (x : Ident) (hp : startsWord p = false) : x.text ≠ p := by
  rintro rfl
  have hstarts : startsWord x.text = true := by
    rw [startsWord, x.text_toList]
    exact x.starts
  rw [hstarts] at hp
  cases hp

@[simp] theorem Ty.text_toList (t : Ty) : (t.text gap).toList = t.chars gap := String.toList_ofList

@[simp] theorem punct_text (p : String) : (punct p).text = p := rfl

@[simp] theorem word_text (w : String) : (word w).text = w := rfl

@[simp] theorem blanks_zero : blanks 0 = [] := rfl

@[simp] theorem chars_closing : chars (closing n) = List.replicate n '>' := by
  fun_induction closing n with
  | case4 n ih => simp [ih, List.replicate_succ]
  | _ => rfl

@[simp] theorem Path.chars_inks (d : Path) : Ink.chars (d.inks lead) = blanks lead ++ d.chars := by
  induction d with
  | word x => simp [Path.inks, Path.chars]
  | member d x ih => simp [Path.inks, Path.chars, ih]

mutual
@[simp] theorem Ty.chars_inks : ∀ (t : Ty) (lead n : Nat),
    Ink.chars (t.inks gap lead n) = blanks lead ++ (t.chars gap ++ List.replicate n '>')
  | .name d, lead, n => by simp [Ty.inks, Ty.chars]
  | .generic d args, lead, n => by
    simp [Ty.inks, Ty.chars, args.chars_inks, List.replicate_succ]
  | .array t, lead, n => by simp [Ty.inks, Ty.chars, t.chars_inks]
  | .union a b, lead, n => by simp [Ty.inks, Ty.chars, a.chars_inks, b.chars_inks]
  | .function params result, lead, n => by
    simp [Ty.inks, Ty.chars, result.chars_inks,
      params.chars_inks "," ',' rfl]
  | .object fields, lead, n => by
    simp [Ty.inks, Ty.chars, fields.chars_inks ";" ';' rfl]
  | .paren t, lead, n => by simp [Ty.inks, Ty.chars, t.chars_inks]

@[simp] theorem Args.chars_inks : ∀ (args : Args) (lead n : Nat),
    Ink.chars (args.inks gap lead n) = blanks lead ++ (args.chars gap ++ List.replicate n '>')
  | .last t, lead, n => by simp [Args.inks, Args.chars, t.chars_inks]
  | .more t args, lead, n => by
    simp [Args.inks, Args.chars, t.chars_inks, args.chars_inks]

theorem Fields.chars_inks (separator : String) (c : Char) (hc : separator.toList = [c]) :
    ∀ (fields : Fields) (lead : Nat),
      Ink.chars (fields.inks gap separator lead) = fields.chars gap c lead
  | .none, lead => rfl
  | .last x t, lead => by simp [Fields.inks, Fields.chars, t.chars_inks]
  | .more x t fields, lead => by
    simp [Fields.inks, Fields.chars, t.chars_inks, hc,
      fields.chars_inks separator c hc]
end

end

section
variable {gap lead n : Nat} {p : String} {is : List Ink} {c : Char} {cs ds rest : List Char}

theorem written_behind {q : Piece} (hq : ScansAt [] q [] (chars is ++ rest))
    (h : Written [] is [] rest) : Written [] (behind (blanks lead) q :: is) [] rest := by
  refine .cons ?_ ?_ hq h
  · exact List.all_eq_true.mpr fun c hc => (List.eq_of_mem_replicate hc) ▸ by decide
  · rw [← Bool.not_eq_true, List.contains_iff_mem]
    exact fun hc => absurd (List.eq_of_mem_replicate hc) (by decide)

theorem written_mark (hp : p ∈ touchingPuncts) (hstops : Stops p (chars is ++ rest))
    (h : Written [] is [] rest) : Written [] (mark lead p :: is) [] rest :=
  written_behind (scansAt_punct hp hstops) h

/-- Punctuators that no longer one begins with. -/
def singlePuncts : List String := ["(", ")", "[", "]", ",", ";", ":", "=>"]

theorem written_single (hp : p ∈ singlePuncts) (h : Written [] is [] rest) :
    Written [] (mark lead p :: is) [] rest := by
  have hsingle : ∀ p ∈ singlePuncts, p ∈ touchingPuncts ∧ extensions p = [] ∧ p ≠ "." := by
    decide
  obtain ⟨hmem, hnone, hdot⟩ := hsingle p hp
  exact written_mark hmem (stops_of_extensions_eq_nil hnone hdot) h

theorem written_brace (hp : p ∈ ["\x7b", "\x7d"]) (h : Written [] is [] rest) :
    Written [] (mark lead p :: is) [] rest := written_behind (scansAt_brace hp) h

theorem Ident.written (x : Ident) (hrest : ∀ d ∈ (Ink.chars is ++ rest).head?, isWordPart d = false)
    (h : Written [] is [] rest) : Written [] (x.ink lead :: is) [] rest := by
  refine written_behind (scansAt_word ?_ x.goesOn hrest) h
  rw [x.starts, Bool.true_or]

def opens (c : Char) : Bool := isWordStart c || ['(', '{'].contains c

def Opens (cs : List Char) : Prop := ∃ c ds, cs = c :: ds ∧ opens c = true

theorem Opens.append (h : Opens cs) : Opens (cs ++ ds) := by
  obtain ⟨c, others, rfl, hc⟩ := h
  exact ⟨c, others ++ ds, rfl, hc⟩

theorem Ident.opens (x : Ident) : Opens x.chars :=
  ⟨x.first, x.others, rfl, by rw [Types.opens, x.starts, Bool.true_or]⟩

theorem Path.opens (d : Path) : Opens d.chars := by
  induction d with
  | word x => exact x.opens
  | member d x ih => exact ih.append

theorem Ty.opens : ∀ t : Ty, Opens (t.chars gap)
  | .name d => d.opens
  | .generic d _ => d.opens.append
  | .array t => t.opens.append
  | .union a _ => a.opens.append
  | .function _ _ => ⟨'(', _, rfl, by decide⟩
  | .object _ => ⟨'{', _, rfl, by decide⟩
  | .paren _ => ⟨'(', _, rfl, by decide⟩

/-- What stands before the closing angle brackets at the end starts as the type does. -/
theorem Ty.chars_front (t : Ty) (lead : Nat) :
    ∃ cs, Ink.chars (t.front gap lead) = blanks lead ++ cs ∧ Opens cs := by
  cases t with
  | name d => exact ⟨d.chars, by simp [Ty.front], d.opens⟩
  | generic d args =>
    exact ⟨d.chars ++ '<' :: Ink.chars (args.front gap 0), by simp [Ty.front], d.opens.append⟩
  | array t => exact ⟨t.chars gap ++ ['[', ']'], by simp [Ty.front], t.opens.append⟩
  | union a b =>
    exact ⟨a.chars gap ++ (blanks gap ++ '|' :: Ink.chars (b.front gap gap)), by simp [Ty.front],
      a.opens.append⟩
  | function params result =>
    exact ⟨'(' :: Ink.chars (params.inks gap "," 0 ++ mark 0 ")" :: mark gap "=>" ::
      result.front gap gap), by simp [Ty.front], '(', _, rfl, by decide⟩
  | object fields =>
    exact ⟨'{' :: Ink.chars (fields.inks gap ";" gap ++ [mark gap "\x7d"]), by simp [Ty.front],
      '{', _, rfl, by decide⟩
  | paren t => exact ⟨'(' :: (t.chars gap ++ [')']), by simp [Ty.front], '(', _, rfl, by decide⟩

theorem Args.chars_front (args : Args) (lead : Nat) :
    ∃ cs, Ink.chars (args.front gap lead) = blanks lead ++ cs ∧ Opens cs := by
  cases args with
  | last t => exact t.chars_front lead
  | more t args =>
    exact ⟨t.chars gap ++ ',' :: Ink.chars (args.front gap gap), by simp [Args.front],
      t.opens.append⟩

/-- No punctuator goes on with a type or with the blanks before it. -/
theorem Opens.stops (hp : p ∈ touchingPuncts) (h : Opens cs) (n : Nat) :
    Stops p (blanks n ++ cs) := by
  have hnone : ∀ p ∈ touchingPuncts,
      ((extensions p).all fun d => !Types.opens d && d != ' ') = true := by decide
  have hextends {d : Char} (hd : d ∈ extensions p) : Types.opens d = false ∧ d ≠ ' ' := by
    simpa using List.all_eq_true.mp (hnone p hp) d hd
  have hdigits : (['(', '{'].all fun c => !c.isDigit) = true := by decide
  obtain ⟨c, ds, rfl, hc⟩ := h
  intro d hd
  cases n with
  | zero =>
    obtain rfl : c = d := Option.some.inj hd
    refine ⟨fun hmem => ?_, fun _ => ?_⟩
    · rw [(hextends hmem).1] at hc
      cases hc
    · rw [Types.opens, Bool.or_eq_true] at hc
      rcases hc with hc | hc
      · rw [← Bool.not_eq_true]
        intro hdigit
        have hstart := (digit_start hdigit).1
        rw [hc] at hstart
        cases hstart
      · simpa using List.all_eq_true.mp hdigits c (List.contains_iff_mem.mp hc)
  | succ n =>
    obtain rfl : ' ' = d := Option.some.inj hd
    exact ⟨fun hmem => (hextends hmem).2 rfl, fun _ => by decide⟩

/-- Behind a type that ends in so many closing angle brackets the text goes on neither with a word
nor with a longer punctuator. -/
def Free (n : Nat) (rest : List Char) : Prop :=
  ∀ d ∈ rest.head?, isWordPart d = false ∧ (0 < n → d ∉ ['>', '='])

theorem free_blank : Free n (' ' :: cs) := by
  intro d hd
  obtain rfl : ' ' = d := Option.some.inj hd
  exact ⟨by decide, fun _ => by decide⟩

theorem free_mark (hc : isWordPart c = false ∧ c ∉ ['>', '=']) : Free n (c :: cs) := by
  intro d hd
  obtain rfl : c = d := Option.some.inj hd
  exact ⟨hc.1, fun _ => hc.2⟩

theorem free_behind (hc : isWordPart c = false ∧ c ∉ ['>', '=']) :
    Free n (blanks lead ++ c :: cs) := by
  cases lead with
  | zero => exact free_mark hc
  | succ lead => exact free_blank

theorem Free.isWordPart_head (h : Free n rest) :
    ∀ d ∈ (List.replicate n '>' ++ rest).head?, isWordPart d = false := by
  cases n with
  | zero => exact fun d hd => (h d hd).1
  | succ n =>
    intro d hd
    obtain rfl : '>' = d := Option.some.inj hd
    decide

theorem written_closing (h : Free n rest) : Written [] (closing n) [] rest := by
  have hextensions : ∀ p ∈ [">", ">>", ">>>"], p ∈ touchingPuncts ∧ p ≠ "." ∧
      (extensions p).all ['>', '='].contains = true := by decide
  have hstops (hn : 0 < n) (p : String) (hp : p ∈ [">", ">>", ">>>"]) : Stops p rest := by
    obtain ⟨-, hdot, hwithin⟩ := hextensions p hp
    intro d hd
    refine ⟨fun hmem => (h d hd).2 hn ?_, fun heq => absurd heq hdot⟩
    exact List.contains_iff_mem.mp (List.all_eq_true.mp hwithin d hmem)
  fun_induction closing n with
  | case1 => exact .nil _ _
  | case2 => exact written_mark (by decide) (hstops (by omega) _ (by decide)) (.nil _ _)
  | case3 => exact written_mark (by decide) (hstops (by omega) _ (by decide)) (.nil _ _)
  | case4 n ih =>
    cases n with
    | zero => exact written_mark (by decide) (hstops (by omega) _ (by decide)) (.nil _ _)
    | succ n =>
      have hlater : Free (n + 1) rest := fun d hd => ⟨(h d hd).1, fun _ => (h d hd).2 (by omega)⟩
      refine written_mark (by decide) ?_ (ih hlater fun _ => hstops (by omega))
      rw [chars_closing]
      intro d hd
      obtain rfl : '>' = d := Option.some.inj hd
      decide

theorem Path.written (d : Path) (hrest : ∀ d ∈ (Ink.chars is ++ rest).head?, isWordPart d = false)
    (h : Written [] is [] rest) : Written [] (d.inks lead ++ is) [] rest := by
  induction d generalizing is with
  | word x => exact x.written hrest h
  | member d x ih =>
    rw [Path.inks, List.append_assoc]
    apply ih
    · intro c hc
      obtain rfl : '.' = c := by simpa using hc
      decide
    · refine written_mark (by decide) ?_ (x.written hrest h)
      simpa using x.opens.append.stops (by decide) 0

theorem Opens.stops_front {is : List Ink} (hp : p ∈ touchingPuncts)
    (h : ∃ cs, Ink.chars is = blanks lead ++ cs ∧ Opens cs) : Stops p (Ink.chars is ++ rest) := by
  obtain ⟨cs, hcs, hopens⟩ := h
  rw [hcs, List.append_assoc]
  exact hopens.append.stops hp lead

theorem Ty.written_of_front (t : Ty) (hfree : Free (t.tail + n) rest)
    (h : ∀ rest, (∀ d ∈ rest.head?, isWordPart d = false) → Written [] (t.front gap lead) [] rest) :
    Written [] (t.inks gap lead n) [] rest := by
  rw [t.inks_eq_front]
  refine Written.append (h _ ?_) (written_closing hfree)
  simpa using hfree.isWordPart_head

mutual
/-- The tokens of a type are scanned as they are, up to where closing angle brackets may touch what
comes next. -/
theorem Ty.written_front : ∀ (t : Ty) (lead : Nat) (rest : List Char),
    (∀ d ∈ rest.head?, isWordPart d = false) → Written [] (t.front gap lead) [] rest
  | .name d, lead, rest, h => by
    rw [Ty.front, ← List.append_nil (d.inks lead)]
    exact d.written h (.nil _ _)
  | .generic d args, lead, rest, h => by
    refine d.written ?_ (written_mark (by decide) ?_ (args.written_front 0 rest h))
    · intro c hc
      obtain rfl : '<' = c := by simpa using hc
      decide
    · exact Opens.stops_front (by decide) (args.chars_front 0)
  | .array t, lead, rest, h => by
    refine (t.written_of_front (n := 0) ?_ (t.written_front lead)).append
      (written_single (by decide) (written_single (by decide) (.nil _ _)))
    simpa using free_mark (c := '[') (by decide)
  | .union a b, lead, rest, h => by
    refine (a.written_of_front (n := 0) ?_ (a.written_front lead)).append
      (written_mark (by decide) ?_ (b.written_front gap rest h))
    · simpa using free_behind (c := '|') (by decide)
    · exact Opens.stops_front (by decide) (b.chars_front gap)
  | .function params result, lead, rest, h => by
    refine written_single (by decide) ((params.written "," (by decide) 0 fun _ => ?_).append ?_)
    · simpa using free_mark (c := ')') (by decide)
    · exact written_single (by decide)
        (written_single (by decide) (result.written_front gap rest h))
  | .object fields, lead, rest, h => by
    refine written_brace (by decide) ((fields.written ";" (by decide) gap fun _ => ?_).append ?_)
    · simpa using free_behind (c := '}') (by decide)
    · exact written_brace (by decide) (.nil _ _)
  | .paren t, lead, rest, h => by
    refine written_single (by decide)
      ((t.written_of_front (n := 0) ?_ (t.written_front 0)).append ?_)
    · simpa using free_mark (c := ')') (by decide)
    · exact written_single (by decide) (.nil _ _)

theorem Args.written_front : ∀ (args : Args) (lead : Nat) (rest : List Char),
    (∀ d ∈ rest.head?, isWordPart d = false) → Written [] (args.front gap lead) [] rest
  | .last t, lead, rest, h => t.written_front lead rest h
  | .more t args, lead, rest, h => by
    refine (t.written_of_front (n := 0) ?_ (t.written_front lead)).append
      (written_single (by decide) (args.written_front gap rest h))
    simpa using free_mark (c := ',') (by decide)

theorem Fields.written (separator : String) (hseparator : separator ∈ [",", ";"]) :
    ∀ (fields : Fields) (lead : Nat) {rest : List Char}, (∀ n, Free n rest) →
      Written [] (fields.inks gap separator lead) [] rest
  | .none, lead, rest, _ => .nil _ _
  | .last x t, lead, rest, h => by
    refine x.written ?_ (written_single (by decide)
      (t.written_of_front (n := 0) (h _) (t.written_front gap)))
    simp
    decide
  | .more x t fields, lead, rest, h => by
    have hsingle : ∀ p ∈ [",", ";"], p ∈ singlePuncts := by decide
    refine x.written ?_ (written_single (by decide)
      ((t.written_of_front (n := 0) ?_ (t.written_front gap)).append
        (written_single (hsingle _ hseparator) (fields.written separator hseparator gap h))))
    · simp
      decide
    · simp only [List.mem_cons, List.not_mem_nil, or_false] at hseparator
      rcases hseparator with rfl | rfl
      · simpa using free_mark (c := ',') (by decide)
      · simpa using free_mark (c := ';') (by decide)
end

/-- The same of the whole type, where the text behind does not go on with it. -/
theorem Ty.written (t : Ty) (lead n : Nat) (h : Free (t.tail + n) rest) :
    Written [] (t.inks gap lead n) [] rest := t.written_of_front h (t.written_front lead)

end

end Subscriptions.Types
