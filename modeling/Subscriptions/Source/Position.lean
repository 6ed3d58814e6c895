namespace Subscriptions

/-- Byte offsets into a source, the end exclusive. -/
structure Span where
  start : Nat
  stop : Nat
deriving Repr, DecidableEq, Inhabited

namespace Span

/-- The number of bytes covered; a span that ends before it starts has none. -/
def length? (s : Span) : Option Nat :=
  if s.start ≤ s.stop then some (s.stop - s.start) else none

def isEmpty (s : Span) : Bool := s.start == s.stop

def merge (s t : Span) : Span := ⟨min s.start t.start, max s.stop t.stop⟩

def contains (s t : Span) : Bool := s.start ≤ t.start && t.stop ≤ s.stop

theorem contains_refl (s : Span) : s.contains s = true := by simp [contains]

theorem contains_trans {r s t : Span} (h₁ : r.contains s = true) (h₂ : s.contains t = true) :
    r.contains t = true := by
  simp only [contains, Bool.and_eq_true, decide_eq_true_eq] at *
  omega

theorem merge_contains_left (s t : Span) : (s.merge t).contains s = true := by
  have h₁ : min s.start t.start ≤ s.start := Nat.min_le_left ..
  have h₂ : s.stop ≤ max s.stop t.stop := Nat.le_max_left ..
  exact Bool.and_eq_true_iff.mpr ⟨decide_eq_true h₁, decide_eq_true h₂⟩

theorem merge_contains_right (s t : Span) : (s.merge t).contains t = true := by
  have h₁ : min s.start t.start ≤ t.start := Nat.min_le_right ..
  have h₂ : t.stop ≤ max s.stop t.stop := Nat.le_max_right ..
  exact Bool.and_eq_true_iff.mpr ⟨decide_eq_true h₁, decide_eq_true h₂⟩

end Span

/-- Bytes of a text in UTF-8. -/
def byteLength : List Char → Nat
  | [] => 0
  | c :: cs => c.utf8Size + byteLength cs

@[simp] theorem byteLength_nil : byteLength [] = 0 := rfl

@[simp] theorem byteLength_cons (c : Char) (cs : List Char) :
    byteLength (c :: cs) = c.utf8Size + byteLength cs := rfl

@[simp] theorem byteLength_append (as bs : List Char) :
    byteLength (as ++ bs) = byteLength as + byteLength bs := by
  induction as with
  | nil => simp
  | cons a as ih => simp [ih, Nat.add_assoc]

/-- The first characters, as many as fit into a number of bytes, and whether they fill it. -/
def takeBytes : Nat → List Char → List Char × Bool
  | n, [] => ([], n == 0)
  | n, c :: cs =>
    if n == 0 then ([], true)
    else if n < c.utf8Size then ([], false)
    else let r := takeBytes (n - c.utf8Size) cs; (c :: r.1, r.2)

/-- The rest after a number of bytes, if a character starts there. -/
def dropBytes? : Nat → List Char → Option (List Char)
  | 0, cs => some cs
  | _ + 1, [] => none
  | n + 1, c :: cs => if n + 1 < c.utf8Size then none else dropBytes? (n + 1 - c.utf8Size) cs

/-- The text between two byte offsets, when both stand between characters and in order. -/
def slice? (source : List Char) (s : Span) : Option (List Char) :=
  if s.start ≤ s.stop then
    (dropBytes? s.start source).bind fun rest =>
      match takeBytes (s.stop - s.start) rest with
      | (text, true) => some text
      | (_, false) => none
  else none

/-- The text of a span, empty where it does not fit the source. -/
def textOf (source : List Char) (s : Span) : String :=
  String.ofList ((slice? source s).getD [])

/-- The byte offsets at which the lines of a source start, the first line left out. -/
def laterLineStarts : Nat → List Char → List Nat
  | _, [] => []
  | n, c :: cs =>
    if c == '\n' then (n + 1) :: laterLineStarts (n + 1) cs
    else laterLineStarts (n + c.utf8Size) cs

/-- A line starts at offset zero and after each line feed. -/
def lineStarts (source : List Char) : List Nat := 0 :: laterLineStarts 0 source

/-- The line and column of a byte offset, both from one. The column counts characters; an offset
inside a character, or past the end from a line that starts inside one, counts bytes instead. -/
def lineColumn (source : List Char) (offset : Nat) : Nat × Nat :=
  let before := (lineStarts source).takeWhile (· ≤ offset)
  let start := before.getLastD 0
  let stop := min offset (byteLength source)
  let column := match slice? source ⟨start, stop⟩ with
    | some text => text.length
    | none => stop - start
  (before.length, column + 1)

def lineCount (source : List Char) : Nat := (lineStarts source).length

end Subscriptions
