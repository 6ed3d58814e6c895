namespace Subscriptions.Text

/-- The text up to the first line feed, and what follows the line feed, if there is one. -/
def cutLine : List Char → List Char × Option (List Char)
  | [] => ([], none)
  | c :: cs =>
    if c == '\n' then ([], some cs)
    else let r := cutLine cs; (c :: r.1, r.2)

/-- A line that ended in a line feed, without a carriage return before it. -/
def withoutReturn (line : List Char) : List Char :=
  if line.getLast? == some '\r' then line.dropLast else line

/-- The lines of a text, one for each unit of fuel at most. -/
def linesFrom : Nat → List Char → List (List Char)
  | 0, _ => []
  | _, [] => []
  | fuel + 1, cs =>
    match cutLine cs with
    | (line, none) => [line]
    | (line, some rest) => withoutReturn line :: linesFrom fuel rest

/-- The lines of a text without their ends. A line feed at the end starts no further line, and a
carriage return belongs to the end only before a line feed. -/
def lines (cs : List Char) : List (List Char) := linesFrom (cs.length + 1) cs

theorem not_mem_cutLine (cs : List Char) : '\n' ∉ (cutLine cs).1 := by
  induction cs with
  | nil => simp [cutLine]
  | cons c cs ih =>
    by_cases h : c = '\n'
    · simp [cutLine, h]
    · simp [cutLine, h, ih, Ne.symm h]

end Subscriptions.Text
