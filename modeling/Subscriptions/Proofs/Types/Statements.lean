import Subscriptions.Proofs.Types.Reading

namespace Subscriptions.Types

open Grammar Piece Scanner Ink

variable {gap lead n depth fuel : Nat} {go : Recur} {S : Shape} {is js : List Ink}

/-- A list of one statement. -/
theorem loops_statement {V : Type} [Seen V] {is js : List V} {turn : Parse (List Node × Bool)}
    (hne : js.length < is.length)
    (hturn : Reads turn depth is js fun r => r.2 = true ∧ Node.shapes r.1 = [S])
    (hstop : Reads turn depth js js fun r => r.2 = false ∧ Node.shapes r.1 = []) :
    Loops turn depth is js [S] := Loops.more hturn hne (Loops.last hstop)

/-- A block of one statement. -/
theorem reads_block {i : Ink} (hi : i.piece.isPunct "\x7d" = false)
    (h : Reads (go .statement) depth (i :: is ++ mark n "\x7d" :: js) (mark n "\x7d" :: js)
      (·.shape = S)) :
    Reads (block go) depth (mark lead "\x7b" :: (i :: is ++ mark n "\x7d" :: js)) js
      (·.shape = .node .block none none [S]) := by
  have hshorter : (mark n "\x7d" :: js).length < (i :: is ++ mark n "\x7d" :: js).length := by
    simp only [List.length_cons, List.length_append]
    omega
  exact Core.reads_braced rfl rfl (loops_statement hshorter (Core.reads_blockTurn hi hshorter h)
    (Core.reads_blockTurn_stop rfl))

/-- A source of one statement. -/
theorem reads_statements {V : Type} [Seen V] {is : List V} (hne : is ≠ [])
    (h : Reads (go .statement) 0 is [] (·.shape = S)) :
    Reads (statements go) 0 is [] (Node.shapes · = [S]) := by
  have hshorter : ([] : List V).length < is.length := List.length_pos_iff.mpr hne
  exact (loops_statement hshorter (Core.reads_sourceTurn hshorter h)
    Core.reads_sourceTurn_stop).gather

def returnInks (lead : Nat) (x : Identifier) : List Ink :=
  [key lead "return", x.ink 1, mark 0 ";"]

theorem reads_returning (x : Identifier) (hdepth : depth + 4 ≤ maxNesting) :
    Reads (rule (fuel + 5) .statement) depth (returnInks lead x ++ js) js
      (·.shape = .node .returnStatement none none [x.shape]) := by
  have hvalue : Reads (expression (rule (fuel + 4))) (depth + 1) (x.ink 1 :: mark 0 ";" :: js)
      (mark 0 ";" :: js) (·.shape = x.shape) :=
    Core.reads_uncommaed rfl (reads_identifier x rfl (by omega))
  exact Core.reads_returned rfl rfl ⟨rfl, rfl, rfl⟩ rfl (by omega) hvalue

theorem written_returnInks (x : Identifier) (rest : List Char) :
    Written [] (returnInks lead x) [] rest := by
  refine written_key (by decide) ?_ (x.written ?_ (written_single (by decide) (.nil _ _)))
  · simp [blanks]
    decide
  · simp
    decide

/-- A constant, around what is read as its type and its value. -/
theorem reads_const (v : Identifier) {equals : Ink} {type value : List Ink}
    {declared : Option String} (hequals : equals.piece = punct "=")
    (hfirst : ∀ i ∈ type.head?, i.piece = punct ":") (hdepth : depth < maxNesting)
    (htype : Reads ( annotation Core.variableStops) (depth + 1)
      (type ++ equals :: (value ++ mark n ";" :: js)) (equals :: (value ++ mark n ";" :: js))
      (· = declared))
    (hvalue : Reads (rule fuel .assignment) (depth + 1) (value ++ mark n ";" :: js)
      (mark n ";" :: js) (·.shape = S)) :
    Reads (rule (fuel + 1) .statement) depth
      (key lead "const" :: v.ink 1 :: (type ++ equals :: (value ++ mark n ";" :: js))) js
      (·.shape = .node .variableStatement none none
        [.node .variableDeclaration (some v.text) declared [S]]) := by
  refine Core.reads_constant rfl rfl hequals rfl (v.ne_reserved (by decide)) hdepth ?_ htype hvalue
  cases type with
  | nil => exact ⟨_, _, rfl, by rw [show Seen.piece equals = punct "=" from hequals]; rfl⟩
  | cons i is => exact ⟨_, _, rfl, by rw [show Seen.piece i = punct ":" from hfirst i rfl]; rfl⟩

end Subscriptions.Types
