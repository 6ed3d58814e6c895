import Subscriptions.Proofs.Core.Writing

namespace Subscriptions.Core

open Grammar Piece Scanner

variable {α : Type} {go : Recur} {fuel depth start n : Nat} {q r : Piece}
  {qs rs rest after : List Piece} {S T : Shape} {s : State} {ns : List Node} {node : Node}

def endPuncts : List String := [")", "]", ",", ";"]

/-- The pieces that come after an expression. -/
inductive Ends : Piece → Prop
  | punct {p : String} (hp : p ∈ endPuncts) : Ends (Piece.punct p)
  | middle (cs : List Char) : Ends (templateMiddle cs)
  | tail (cs : List Char) : Ends (templateTail cs)

theorem Ends.isPunctOf_eq_false (h : Ends q) {ps : List String} (hps : ∀ p ∈ endPuncts, p ∉ ps) :
    q.isPunctOf ps = false := by
  cases h with
  | punct hp => simpa [Piece.isPunctOf, Piece.punct] using hps _ hp
  | middle cs => rfl
  | tail cs => rfl

theorem Ends.isPunct_eq_false (h : Ends q) {p : String} (hp : p ∉ endPuncts) :
    q.isPunct p = false := by
  cases h with
  | @punct p' hp' =>
    have hne : p' ≠ p := fun heq => hp (heq ▸ hp')
    simpa [Piece.isPunct, Piece.punct] using hne
  | middle cs => rfl
  | tail cs => rfl

theorem Word.ne_keyword (x : Word) {w : String} (hw : w ∈ keywords) : x.text ≠ w := by
  rintro rfl
  exact x.plain hw

theorem Starts.isPunct_eq_false (h : Starts q) {p : String} (hp : p ≠ "(") :
    q.isPunct p = false := by
  cases h with
  | paren => simpa [Piece.isPunct, punct] using hp.symm
  | _ => rfl

theorem Expr.isAt_eq_false (a : Expr) (hs : s.pieces = a.pieces ++ qs) {p : String}
    (hp : p ≠ "(") : s.isAt p = false := by
  obtain ⟨q, qs', heq, hq⟩ := a.starts
  rw [heq] at hs
  rw [State.isAt_eq hs, hq.isPunct_eq_false hp]

theorem Starts.isPunctOf_eq_false (h : Starts q) {ps : List String} (hp : "(" ∉ ps) :
    q.isPunctOf ps = false := by
  cases h with
  | paren => simpa [Piece.isPunctOf, punct] using hp
  | _ => rfl

theorem Starts.isTheWord_eq_false (h : Starts q) {w : String} (hw : w ∈ keywords)
    (hthis : "this" ≠ w) (hnew : "new" ≠ w) : q.isTheWord w = false := by
  cases h with
  | word x => simpa [Piece.isTheWord, Piece.word] using x.ne_keyword hw
  | this => simpa [Piece.isTheWord, Piece.word] using hthis
  | new => simpa [Piece.isTheWord, Piece.word] using hnew
  | _ => rfl

/-- Words that are no operand, at the start of an assignment. -/
def operatorWords : List String := ["typeof", "void", "delete", "await", "yield"]

/-- No operator starts with the piece. -/
structure Operand (q : Piece) : Prop where
  punct : q.isPunctOf ["!", "-", "+", "~", "++", "--"] = false
  word : ∀ w ∈ operatorWords, q.isTheWord w = false

theorem Starts.operand (h : Starts q) : Operand q where
  punct := h.isPunctOf_eq_false (by decide)
  word w hw := by
    have hwords : ∀ w ∈ operatorWords, w ∈ keywords ∧ "this" ≠ w ∧ "new" ≠ w := by decide
    obtain ⟨hkey, hthis, hnew⟩ := hwords w hw
    exact h.isTheWord_eq_false hkey hthis hnew

theorem isUnaryOperator_of_operand (hs : s.pieces = q :: qs) (h : Operand q) :
    isUnaryOperator s = false := by
  have hwords : ∀ w ∈ ["typeof", "void", "delete", "await"], w ∈ operatorWords := by decide
  have hword : (s.current.isWord && ["typeof", "void", "delete", "await"].contains s.current.text) =
      false := by
    rw [State.isWord_eq hs, State.text_current hs, Bool.and_eq_false_imp]
    intro hkind
    rw [← Bool.not_eq_true, List.contains_iff_mem]
    intro hmem
    have hother := h.word q.text (hwords _ hmem)
    rw [Piece.isTheWord, show (q.kind == .word) = true from hkind, beq_self_eq_true] at hother
    cases hother
  rw [isUnaryOperator, State.isPunctOf_eq hs, h.punct, isWordOperator, hword]
  rfl

/-- Nothing goes on with an operand at the piece. -/
structure Closes (q : Piece) : Prop where
  punct : q.isPunctOf [".", "?.", "[", "(", "<", "!", "++", "--"] = false
  template : q.kind ≠ .template ∧ q.kind ≠ .templateHead
  word : q.kind ≠ .word
  operator : q.kind = .punct → precedence? q.text = none

theorem closes_punct {p : String} (hp : p ∉ [".", "?.", "[", "(", "<", "!", "++", "--"])
    (hnone : precedence? p = none) : Closes (punct p) where
  punct := by simpa [Piece.isPunctOf, Piece.punct] using hp
  template := ⟨nofun, nofun⟩
  word := nofun
  operator _ := hnone

theorem Ends.closes (h : Ends q) : Closes q where
  punct := h.isPunctOf_eq_false (by decide)
  template := by cases h <;> exact ⟨nofun, nofun⟩
  word := by cases h <;> exact nofun
  operator hkind := by
    cases h with
    | punct hp =>
      have hnone : ∀ p ∈ endPuncts, precedence? p = none := by decide
      exact hnone _ hp
    | middle cs => cases hkind
    | tail cs => cases hkind

theorem operator?_of_closes (hs : s.pieces = q :: qs) (h : Closes q) (above : Nat) :
    operator? above s.current = none := by
  have htext := State.text_current hs
  have hkind := State.kind_current hs
  by_cases hpunct : q.kind = .punct
  · simp [operator?, htext, h.operator hpunct]
  · simp [operator?, isCast, Token.isTheWord, hkind, hpunct, h.word]

theorem nested_run {p : Parse Node} (hdepth : depth < maxNesting) :
    nested p depth s = p (depth + 1) s := by rw [nested, if_neg (Nat.not_le_of_lt hdepth)]

theorem climb_stay {turn : Node → Parse (Node × Bool)}
    (h : turn node depth s = some ((node, false), s)) : climb turn node depth s = some (node, s) := by
  simp only [climb, climbs, look, Parse.bind_run, Option.bind_some, h, Bool.false_eq_true, if_false,
    Parse.pure_run]

section
variable {s' : State}

/-- No operator comes before or after an access. -/
theorem unary_run (hs : s.pieces = q :: qs) (hq : Operand q) (hs' : s'.pieces = r :: rs)
    (hr : Closes r) (hdepth : depth < maxNesting)
    (h : access (rule fuel) (depth + 1) s = some (node, s')) :
    rule (fuel + 2) .unary depth s = some (node, s') := by
  have haccess : rule (fuel + 1) .access (depth + 1) s = some (node, s') := h
  have hmark : (s'.current.isPunctOf ["++", "--"] && !s'.current.newlineBefore) = false := by
    rw [State.isPunctOf_eq hs', isPunctOf_of_subset hr.punct (by decide)]
    rfl
  change nested (unary (rule (fuel + 1))) depth s = _
  rw [nested_run hdepth]
  simp only [unary, here, look, Parse.bind_run, Option.bind_some, isUnaryOperator_of_operand hs hq,
    haccess, hmark, Bool.false_eq_true, if_false, Parse.pure_run]

theorem binary_run (hs : s.pieces = q :: qs) (hq : Operand q) (hs' : s'.pieces = r :: rs)
    (hr : Closes r) (hdepth : depth + 1 < maxNesting) (above : Nat)
    (h : access (rule fuel) (depth + 2) s = some (node, s')) :
    rule (fuel + 3) (.binary above) depth s = some (node, s') := by
  have hstep (start : Nat) : binaryStep (rule (fuel + 2)) above start node (depth + 1) s' =
      some ((node, false), s') := by
    simp only [binaryStep, look, Parse.bind_run, Option.bind_some, operator?_of_closes hs' hr,
      Parse.pure_run]
  change nested (binary (rule (fuel + 2)) above) depth s = _
  rw [nested_run (by omega)]
  simp only [binary, here, Parse.bind_run, Option.bind_some, unary_run hs hq hs' hr hdepth h,
    climb_stay (hstep _)]

/-- An access that no operator comes before or after is an assignment. -/
theorem assignment_run (hs : s.pieces = q :: qs) (hq : Operand q) (hs' : s'.pieces = r :: rs)
    (hr : Closes r) (hlast : r.isPunctOf ("?" :: assignmentOperators) = false)
    (hdepth : depth + 3 ≤ maxNesting)
    (h : access (rule fuel) (depth + 3) s = some (node, s')) :
    rule (fuel + 4) .assignment depth s = some (node, s') := by
  have hyield : s.isAtWord "yield" = false := by
    rw [State.isAtWord_eq hs]
    exact hq.word _ (by decide)
  have haccept : s'.isAt "?" = false := by
    rw [State.isAt_eq hs']
    exact isPunct_of_isPunctOf hlast List.mem_cons_self
  have hassign : s'.current.isPunctOf assignmentOperators = false := by
    rw [State.isPunctOf_eq hs']
    exact isPunctOf_of_subset hlast (List.subset_cons_self _ _)
  change nested (assignment (rule (fuel + 3))) depth s = _
  rw [nested_run (by omega)]
  simp only [assignment, conditional, accept, here, look, Parse.bind_run, Option.bind_some, hyield,
    binary_run hs hq hs' hr (by omega) 0 h, haccept, hassign, Bool.false_eq_true, if_false,
    Parse.pure_run]

end

section
variable {V : Type} [Seen V] {v u : V} {vs us : List V}

/-- What is read as an access is read so where the parse comes to what an access does. -/
theorem reads_of_access {p : Parse Node} {n : Nat}
    (hrun : ∀ s node s', s.pieces = Seen.piece v :: vs.map Seen.piece →
      s'.pieces = Seen.piece u :: us.map Seen.piece → access (rule fuel) n s = some (node, s') →
      p depth s = some (node, s'))
    (h : Reads (access (rule fuel)) n (v :: vs) (u :: us) (·.shape = S)) :
    Reads p depth (v :: vs) (u :: us) (·.shape = S) := by
  intro s hs hend
  obtain ⟨node, s', haccess, hs', hread⟩ := h s hs hend
  exact ⟨node, s', hrun s node s' (State.pieces_of_seen hs) (State.pieces_of_seen hs') haccess, hs',
    hread⟩

theorem reads_binary (hv : Operand (Seen.piece v)) (hu : Closes (Seen.piece u))
    (hdepth : depth + 1 < maxNesting) (above : Nat)
    (h : Reads (access (rule fuel)) (depth + 2) (v :: vs) (u :: us) (·.shape = S)) :
    Reads (rule (fuel + 3) (.binary above)) depth (v :: vs) (u :: us) (·.shape = S) :=
  reads_of_access (fun _ _ _ hs hs' => binary_run hs hv hs' hu hdepth above) h

/-- What is read as a conditional is an assignment where nothing is assigned. -/
theorem reads_unassigned (hv : Operand (Seen.piece v))
    (hu : (Seen.piece u).isPunctOf assignmentOperators = false) (hdepth : depth < maxNesting)
    (h : Reads (conditional (rule fuel)) (depth + 1) (v :: vs) (u :: us) (·.shape = S)) :
    Reads (rule (fuel + 1) .assignment) depth (v :: vs) (u :: us) (·.shape = S) := by
  apply reads_nested hdepth
  apply reads_here
  intro start
  apply reads_look
  intro s hs
  have hyield : s.isAtWord "yield" = false := by
    rw [State.isAtWord_eq (State.pieces_of_seen hs)]
    exact hv.word _ (by decide)
  rw [hyield, if_neg Bool.false_ne_true]
  refine h.bind fun node hnode => ?_
  apply reads_look
  intro s hs
  rw [State.isPunctOf_eq (State.pieces_of_seen hs), hu, if_neg Bool.false_ne_true]
  exact reads_pure hnode

theorem reads_assignment (hv : Operand (Seen.piece v)) (hu : Closes (Seen.piece u))
    (hlast : (Seen.piece u).isPunctOf ("?" :: assignmentOperators) = false)
    (hdepth : depth + 3 ≤ maxNesting)
    (h : Reads (access (rule fuel)) (depth + 3) (v :: vs) (u :: us) (·.shape = S)) :
    Reads (rule (fuel + 4) .assignment) depth (v :: vs) (u :: us) (·.shape = S) :=
  reads_of_access (fun _ _ _ hs hs' => assignment_run hs hv hs' hu hlast hdepth) h

end

/-- An assignment that no comma comes behind is an expression. -/
theorem expression_run {s' : State} (h : go .assignment depth s = some (node, s'))
    (hcomma : s'.isAt "," = false) : expression go depth s = some (node, s') := by
  simp only [expression, here, look, Parse.bind_run, Option.bind_some, h, hcomma,
    Bool.false_eq_true, if_false, Parse.pure_run]

theorem reads_uncommaed {V : Type} [Seen V] {u : V} {vs us : List V}
    (hcomma : (Seen.piece u).isPunct "," = false)
    (h : Reads (go .assignment) depth vs (u :: us) (·.shape = S)) :
    Reads (expression go) depth vs (u :: us) (·.shape = S) := by
  intro s hs hend
  obtain ⟨node, s', hrun, hs', hread⟩ := h s hs hend
  have hcomma : s'.isAt "," = false := by rw [State.isAt_eq (State.pieces_of_seen hs'), hcomma]
  exact ⟨node, s', expression_run hrun hcomma, hs', hread⟩

/-- Fuel and depth that are left are enough for `n` levels of expressions. -/
structure Room (n fuel depth : Nat) : Prop where
  fuel_le : 5 * n ≤ fuel
  depth_le : depth + 5 * n ≤ maxNesting

theorem Room.mono {m : Nat} (h : Room n fuel depth) (hm : m ≤ n) : Room m fuel depth := by
  obtain ⟨hfuel, hdepth⟩ := h
  constructor <;> omega

theorem Room.depth_lt (h : Room n fuel (depth + 1)) : depth < maxNesting := by
  have hdepth := h.depth_le
  omega

/-- One rule further out there is room too. -/
theorem Room.out (h : Room n fuel (depth + 1)) : Room n (fuel + 1) depth := by
  obtain ⟨hfuel, hdepth⟩ := h
  constructor <;> omega

/-- The grammar reads the text of an expression as what it stands for, whatever comes next. -/
def Readable (a : Expr) : Prop := ∀ fuel depth r rs, Ends r → Room a.levels fuel depth →
  Reads (rule fuel .assignment) depth (a.pieces ++ r :: rs) (r :: rs) (·.shape = a.shape)

variable {a : Expr} {as : List Expr}

theorem reads_expression (ha : Readable a) (hroom : Room a.levels fuel depth) (hr : Ends r)
    (hcomma : r.isPunct "," = false) :
    Reads (expression (rule fuel)) depth (a.pieces ++ r :: rs) (r :: rs) (·.shape = a.shape) :=
  reads_uncommaed hcomma (ha fuel depth r rs hr hroom)

theorem reads_spreadOrAssignment (ha : Readable a) (hroom : Room a.levels fuel depth)
    (hr : Ends r) : Reads (spreadOrAssignment (rule fuel)) depth (a.pieces ++ r :: rs) (r :: rs)
      (·.shape = a.shape) := by
  apply reads_look
  intro s hs
  rw [a.isAt_eq_false hs (by decide), if_neg Bool.false_ne_true]
  exact ha fuel depth r rs hr hroom

/-- A turn of a loop over items between commas up to a closing parenthesis. -/
def itemTurn (item : Parse Node) : Parse (List Node × Bool) := do
  let s ← look
  if s.isAt ")" || s.atEnd then return ([], false)
  else
    let node ← item
    return ([node], ← accept ",")

def separatedBy {V : Type} (v : V) : List (List V) → List V
  | [] => []
  | [vs] => vs
  | vs :: us :: rest => vs ++ v :: separatedBy v (us :: rest)

theorem separatedBy_cons {V : Type} (v : V) (vs : List V) (rest : List (List V)) :
    separatedBy v (vs :: rest) = vs ++ rest.flatMap fun us => v :: us := by
  induction rest generalizing vs with
  | nil => simp [separatedBy]
  | cons us rest ih => rw [separatedBy, ih, List.flatMap_cons, List.cons_append]

theorem separated_eq_separatedBy (pss : List (List Piece)) :
    separated pss = separatedBy (punct ",") pss := by
  fun_induction separated pss with
  | case1 => rfl
  | case2 => rfl
  | case3 ps qs rest ih => rw [separatedBy, ih]

/-- Items, each with the shape of what it is read as. -/
theorem loops_separated {V : Type} [Seen V] {comma close : V} {rest : List V} {item : Parse Node}
    (hcomma : Seen.piece comma = punct ",") (hclose : Seen.piece close = punct ")")
    (xs : List (List V × Shape))
    (hfirst : ∀ x ∈ xs, ∃ v vs, x.1 = v :: vs ∧ (Seen.piece v).isPunct ")" = false)
    (hitem : ∀ x ∈ xs, ∀ u us, u = comma ∨ u = close → Reads item depth (x.1 ++ u :: us) (u :: us)
      (·.shape = x.2)) :
    Loops (itemTurn item) depth (separatedBy comma (xs.map Prod.fst) ++ close :: rest)
      (close :: rest) (xs.map Prod.snd) := by
  have hturn : ∀ x ∈ xs, ∀ u us after b, u = comma ∨ u = close →
      Reads (accept ",") depth (u :: us) after (· = b) →
      Reads (itemTurn item) depth (x.1 ++ u :: us) after
        fun r => r.2 = b ∧ Node.shapes r.1 = [x.2] := by
    intro x hx u us after b hu haccept
    obtain ⟨v, vs, heq, hv⟩ := hfirst x hx
    have hread := hitem x hx u us hu
    rw [heq] at hread ⊢
    apply reads_look
    intro s hs
    have hs := State.pieces_of_seen hs
    rw [State.isAt_eq hs, hv, State.atEnd_eq hs, Bool.or_false, if_neg Bool.false_ne_true]
    refine hread.bind fun node hnode => ?_
    refine haccept.bind ?_
    rintro _ rfl
    exact reads_pure ⟨rfl, by rw [Node.shapes, hnode, Node.shapes]⟩
  clear hitem
  induction xs with
  | nil =>
    apply Loops.last
    apply reads_look
    intro s hs
    rw [State.isAt_eq (State.pieces_of_seen hs), hclose]
    exact reads_pure ⟨rfl, rfl⟩
  | cons x xs ih =>
    cases xs with
    | nil =>
      apply Loops.last
      refine hturn x List.mem_cons_self close rest _ false (.inr rfl) (.stay (reads_accept_not ?_))
      rw [hclose]
      rfl
    | cons y ys =>
      have hlater := ih (fun z hz => hfirst z (List.mem_cons_of_mem x hz))
        (fun z hz => hturn z (List.mem_cons_of_mem x hz))
      have haccept : Reads (accept ",") depth
          (comma :: (separatedBy comma ((y :: ys).map Prod.fst) ++ close :: rest)) _ (· = true) :=
        .step (by rw [hcomma]; exact reads_accept)
      have hnow := hturn x List.mem_cons_self comma
        (separatedBy comma ((y :: ys).map Prod.fst) ++ close :: rest) _ true (.inl rfl) haccept
      have heq : separatedBy comma ((x :: y :: ys).map Prod.fst) ++ close :: rest =
          x.1 ++ comma :: (separatedBy comma ((y :: ys).map Prod.fst) ++ close :: rest) := by
        simp [separatedBy]
      rw [heq]
      refine Loops.more hnow ?_ hlater
      simp only [List.length_append, List.length_cons]
      omega

theorem loops_items {ι : Type} {pieces : ι → List Piece} {shape : ι → Shape} {item : Parse Node}
    (xs : List ι) (hfirst : ∀ x ∈ xs, ∃ q qs, pieces x = q :: qs ∧ q.isPunct ")" = false)
    (hitem : ∀ x ∈ xs, ∀ p rs, p ∈ [",", ")"] → Reads item depth (pieces x ++ punct p :: rs)
      (punct p :: rs) (·.shape = shape x)) :
    Loops (itemTurn item) depth (separated (xs.map pieces) ++ punct ")" :: rest)
      (punct ")" :: rest) (xs.map shape) := by
  have hloop : Loops (itemTurn item) depth
      (separatedBy (punct ",") ((xs.map fun x => (pieces x, shape x)).map Prod.fst) ++
        punct ")" :: rest) (punct ")" :: rest) ((xs.map fun x => (pieces x, shape x)).map Prod.snd) := by
    apply loops_separated rfl rfl
    · intro y hy
      obtain ⟨x, hx, rfl⟩ := List.mem_map.mp hy
      exact hfirst x hx
    · intro y hy u us hu
      obtain ⟨x, hx, rfl⟩ := List.mem_map.mp hy
      rcases hu with rfl | rfl <;> exact hitem x hx _ us (by decide)
  rw [separated_eq_separatedBy]
  simpa [List.map_map, Function.comp_def] using hloop

theorem Expr.piecesEach_eq_map (as : List Expr) : Expr.piecesEach as = as.map Expr.pieces := by
  induction as with
  | nil => rfl
  | cons a as ih => rw [Expr.piecesEach, ih, List.map_cons]

theorem Expr.shapes_eq_map (as : List Expr) : Expr.shapes as = as.map Expr.shape := by
  induction as with
  | nil => rfl
  | cons a as ih => rw [Expr.shapes, ih, List.map_cons]

theorem Expr.levels_le_levelsAll (ha : a ∈ as) : a.levels ≤ Expr.levelsAll as := by
  induction as with
  | nil => cases ha
  | cons b bs ih =>
    rw [Expr.levelsAll]
    rcases List.mem_cons.mp ha with rfl | ha
    · exact Nat.le_max_left ..
    · exact Nat.le_trans (ih ha) (Nat.le_max_right ..)

theorem reads_arguments (has : ∀ a ∈ as, Readable a) (hroom : Room (Expr.levelsAll as) fuel depth) :
    Reads (arguments (rule fuel)) depth
      (punct "(" :: (separated (Expr.piecesEach as) ++ punct ")" :: rest)) rest
      (Node.shapes · = Expr.shapes as) := by
  have hloop : Loops (itemTurn (spreadOrAssignment (rule fuel))) depth
      (separated (as.map Expr.pieces) ++ punct ")" :: rest) (punct ")" :: rest)
      (as.map Expr.shape) := by
    apply loops_items
    · intro a _
      obtain ⟨q, qs, heq, hq⟩ := a.starts
      exact ⟨q, qs, heq, hq.isPunct_eq_false (by decide)⟩
    · intro a ha p rs hp
      have hends : ∀ p ∈ [",", ")"], p ∈ endPuncts := by decide
      exact reads_spreadOrAssignment (has a ha) (hroom.mono (Expr.levels_le_levelsAll ha))
        (.punct (hends p hp))
  rw [Expr.piecesEach_eq_map, Expr.shapes_eq_map]
  refine reads_expect.bind fun _ _ => ?_
  refine hloop.gather.bind fun nodes hnodes => ?_
  refine reads_expect.bind fun _ _ => ?_
  exact reads_pure hnodes

/-- A word is no text that starts otherwise. -/
theorem Word.text_ne (x : Word) {w : String}
    (hw : ∀ c ∈ w.toList.head?, (isWordStart c || c == '#') = false) : x.text ≠ w := by
  rintro rfl
  have hfirst := hw x.first (by simp [Word.text])
  rw [x.starts] at hfirst
  cases hfirst

/-- A word has no blanks around it. -/
theorem Word.trim_text (x : Word) : Text.trim x.text = x.text := by
  have hparts : ∀ c ∈ x.first :: x.others, Text.isBlank c = false := by
    intro c hc
    rcases List.mem_cons.mp hc with rfl | hc
    · exact isBlank_of_starts x.starts
    · exact isBlank_of_isWordPart (List.all_eq_true.mp x.goesOn c hc)
  rw [Word.text, Text.trim, String.toList_ofList, Text.strip_eq_self]
  · exact fun c hc => hparts c (List.mem_of_head? hc)
  · exact fun c hc => hparts c (List.mem_of_getLast? hc)

/-- Texts of which a plain word is none. -/
def noWord (w : String) : Bool :=
  keywords.contains w || !(w.toList.head?.any fun c => isWordStart c || c == '#')

theorem Word.text_ne_of_noWord (x : Word) {w : String} (hw : noWord w = true) : x.text ≠ w := by
  rw [noWord, Bool.or_eq_true, List.contains_iff_mem] at hw
  rcases hw with hw | hw
  · exact x.ne_keyword hw
  · apply x.text_ne
    intro c hc
    rw [Bool.not_eq_true', Option.any_eq_false] at hw
    exact hw c hc

/-- A word up to a punctuator that ends the type. -/
theorem typeTokens_word {stops : List String} {t u : Token} {ts : List Token} {x : Word} {p : String}
    (ht : t.piece = word x.text) (hu : u.piece = punct p) (hp : p ∈ stops)
    (hstops : ∀ w ∈ stops, noWord w = true) :
    typeTokens stops none 0 (t :: u :: ts) = ([t], u :: ts) := by
  have htkind : t.kind = .word := congrArg Piece.kind ht
  have httext : t.text = x.text := congrArg Piece.text ht
  have hukind : u.kind = .punct := congrArg Piece.kind hu
  have hutext : u.text = p := congrArg Piece.text hu
  have hnot : x.text ∉ stops := fun h => x.text_ne_of_noWord (hstops _ h) rfl
  have hgoes : endsType stops none t = false := by
    simp [endsType, Token.isPunctOf, Token.isWord, htkind, httext, hnot]
  have hends : endsType stops (some t) u = true := by
    simp [endsType, Token.isPunctOf, hukind, hutext, hp]
  rw [typeTokens, hgoes]
  simp only [beq_self_eq_true, Bool.and_false, Token.isPunctOf, Token.isPunct, htkind,
    reduceCtorEq, beq_iff_eq, Bool.and_eq_true, false_and, if_false, Nat.lt_irrefl, Nat.sub_zero]
  rw [typeTokens, hends]
  rfl

theorem reads_typed (type : Option Word) {stops : List String} {p : String} (hp : p ∈ stops)
    (hcolon : p ≠ ":") (hstops : ∀ w ∈ stops, noWord w = true) :
    Reads ( annotation stops) depth (typed type ++ punct p :: rs) (punct p :: rs)
      (· = type.map Word.text) := by
  cases type with
  | none =>
    apply reads_untyped
    simpa [Piece.isPunct, punct] using hcolon
  | some x =>
    refine reads_accept.bind ?_
    rintro _ rfl
    have hskip : Reads (skip (typeTokens stops none 0)) depth (word x.text :: punct p :: rs)
        (punct p :: rs) (typeText · = some x.text) := by
      refine reads_skip fun tokens htokens => ?_
      obtain ⟨t, ts, rfl, ht, hts⟩ := List.map_eq_cons_iff.mp htokens
      obtain ⟨u, us, rfl, hu, hus⟩ := List.map_eq_cons_iff.mp hts
      refine ⟨[t], u :: us, typeTokens_word ht hu hp hstops, List.suffix_cons _ _, hts, ?_⟩
      have hne : x.text.isEmpty = false := by
        simp [Word.text, ← String.toList_eq_nil_iff]
      have hone : textOfTokens [t] = x.text := by
        rw [textOfTokens, show t.text = x.text from congrArg Piece.text ht]
        simp
      simp [typeText, hone, x.trim_text, hne]
    exact hskip.bind fun tokens htext => reads_pure htext

def parameterPuncts : List String := [":", ",", ")"]

/-- A word before a punctuator that goes on with a parameter is no modifier. -/
theorem fieldModifierCount_name {t u : Token} {ts : List Token} {p : String}
    (hu : u.piece = punct p) (hp : p ∈ parameterPuncts) : fieldModifierCount (t :: u :: ts) = 0 := by
  have hkind : u.kind = .punct := congrArg Piece.kind hu
  have htext : u.text = p := congrArg Piece.text hu
  have hnone : ∀ p ∈ parameterPuncts, p ∉ ["\x7b", "["] := by decide
  simp only [fieldModifierCount, Token.isWord, Token.isPunctOf, hkind, htext,
    List.contains_eq_mem, decide_eq_false (hnone p hp)]
  simp

theorem reads_advanceBy_zero {V : Type} [Seen V] {vs : List V} :
    Reads (advanceBy 0) depth vs vs fun _ => True := by
  intro s hs _
  refine ⟨(), _, rfl, ?_, ?_, rfl, rfl, trivial⟩
  · simpa [State.read, State.seen] using hs
  · simp [State.read]

theorem reads_decorators_not (h : q.isPunct "@" = false) :
    Reads (decorators go) depth (q :: qs) (q :: qs) (Node.shapes · = []) := by
  apply Loops.gather
  apply Loops.last
  apply reads_look
  intro s hs
  rw [State.isAt_eq hs, h, if_neg Bool.false_ne_true]
  exact reads_pure ⟨rfl, rfl⟩

theorem reads_initializer_not (h : q.isPunct "=" = false) :
    Reads (initializer go) depth (q :: qs) (q :: qs) (Node.shapes · = []) := by
  refine (reads_accept_not h).bind ?_
  rintro _ rfl
  exact reads_pure rfl

section
variable {V : Type} [Seen V] {v u : V} {vs us ts : List V} {declared : Option String} {x : String}

/-- A parameter that is a word, with what is read as its type. -/
theorem reads_namedParameter (hv : Seen.piece v = word x)
    (hnext : ∃ w ws p, ts ++ u :: us = w :: ws ∧ Seen.piece w = punct p ∧ p ∈ parameterPuncts)
    (hu : (Seen.piece u).isPunct "=" = false)
    (htype : Reads ( annotation [",", ")", "="]) depth (ts ++ u :: us) (u :: us) (· = declared)) :
    Reads (parameter go) depth (v :: (ts ++ u :: us)) (u :: us)
      (·.shape = .node .parameter (some x) declared []) := by
  obtain ⟨w, ws, p, hrest, hw, hp⟩ := hnext
  have hnone : ∀ p ∈ parameterPuncts, (punct p).isPunct "?" = false := by decide
  rw [hrest] at htype ⊢
  apply reads_here
  intro start
  refine Reads.bind (.stay (reads_decorators_not (by rw [hv]; rfl))) fun decorations hdecorations => ?_
  apply reads_look
  intro s hs
  have hs := State.pieces_of_seen hs
  obtain ⟨t, rest, hs', -, hrest'⟩ := State.rest_of_pieces hs
  obtain ⟨t', rest, rfl, ht', -⟩ := List.map_eq_cons_iff.mp hrest'
  rw [hs', fieldModifierCount_name (ht'.trans hw) hp]
  refine reads_advanceBy_zero.bind fun _ _ => ?_
  refine Reads.bind (.stay (reads_optional_not (by rw [hv]; rfl))) fun _ _ => ?_
  have hname : Reads parameterName depth (v :: w :: ws) (w :: ws) (·.map Name.text = some x) := by
    refine .step ?_
    rw [hv]
    apply reads_look
    intro s hs
    rw [State.isWord_eq hs]
    refine reads_takeName.bind fun name hname => ?_
    exact reads_pure (congrArg some hname)
  refine hname.bind fun name hname => ?_
  refine Reads.bind (.stay (reads_optional_not (by rw [hw]; exact hnone p hp))) fun _ _ => ?_
  refine htype.bind ?_
  rintro _ rfl
  refine Reads.bind (.stay (reads_initializer_not hu)) fun value hvalue => ?_
  refine reads_build.imp fun node hnode => ?_
  rw [Node.shapes_eq_map] at hdecorations hvalue hnode
  rw [hnode, List.map_append, hdecorations, hvalue, hname]
  rfl

/-- Parameters in parentheses, each with the shape of what it is read as. -/
theorem reads_separatedParameters {start comma close : V} {rest : List V}
    (hstart : Seen.piece start = punct "(") (hcomma : Seen.piece comma = punct ",")
    (hclose : Seen.piece close = punct ")") (xs : List (List V × Shape))
    (hfirst : ∀ x ∈ xs, ∃ v vs, x.1 = v :: vs ∧ (Seen.piece v).isPunct ")" = false)
    (hitem : ∀ x ∈ xs, ∀ u us, u = comma ∨ u = close → Reads (parameter go) depth (x.1 ++ u :: us)
      (u :: us) (·.shape = x.2)) :
    Reads (parameters go) depth
      (start :: (separatedBy comma (xs.map Prod.fst) ++ close :: rest)) rest
      (Node.shapes · = xs.map Prod.snd) := by
  have hloop := @loops_separated _ _ _ _ _ rest _ hcomma hclose xs hfirst hitem
  refine Reads.bind (.step (by rw [hstart]; exact reads_accept)) ?_
  rintro _ rfl
  refine hloop.gather.bind fun nodes hnodes => ?_
  refine Reads.bind (.step (by rw [hclose]; exact reads_expect)) fun _ _ => ?_
  exact reads_pure hnodes

end

theorem reads_parameter (x : Param) {p : String} (hp : p ∈ [",", ")"]) :
    Reads (parameter go) depth (x.pieces ++ punct p :: rs) (punct p :: rs) (·.shape = x.shape) := by
  have hstops : ∀ p ∈ [",", ")"], p ∈ [",", ")", "="] ∧ p ≠ ":" ∧ p ∈ parameterPuncts ∧
      (punct p).isPunct "=" = false := by decide
  obtain ⟨hstop, hcolon, hmember, hequals⟩ := hstops p hp
  have hnext : ∃ w ws p', typed x.type ++ punct p :: rs = w :: ws ∧ w = punct p' ∧
      p' ∈ parameterPuncts := by
    cases x.type with
    | none => exact ⟨_, _, _, rfl, rfl, hmember⟩
    | some t => exact ⟨_, _, ":", rfl, rfl, by decide⟩
  exact reads_namedParameter rfl hnext hequals (reads_typed x.type hstop hcolon (by decide))

theorem reads_parameters (xs : List Param) :
    Reads (parameters go) depth (punct "(" :: (separated (xs.map Param.pieces) ++ punct ")" :: rest))
      rest (Node.shapes · = xs.map Param.shape) := by
  have hread : Reads (parameters go) depth (punct "(" :: (separatedBy (punct ",")
      ((xs.map fun x => (x.pieces, x.shape)).map Prod.fst) ++ punct ")" :: rest)) rest
      (Node.shapes · = (xs.map fun x => (x.pieces, x.shape)).map Prod.snd) := by
    apply reads_separatedParameters rfl rfl rfl
    · intro y hy
      obtain ⟨x, -, rfl⟩ := List.mem_map.mp hy
      exact ⟨_, _, rfl, rfl⟩
    · intro y hy u us hu
      obtain ⟨x, -, rfl⟩ := List.mem_map.mp hy
      rcases hu with rfl | rfl <;> exact reads_parameter x (by decide)
  rw [separated_eq_separatedBy]
  simpa [List.map_map, Function.comp_def] using hread

/-- An arrow function behind its parameters, around what is read as its return type and its body. -/
theorem reads_behindParameters {V : Type} [Seen V] {arrow : V} {mid vs after : List V}
    {shapes : List Shape} {declared : Option String} (harrow : Seen.piece arrow = punct "=>")
    (htype : Reads ( annotation ["=>"]) depth mid (arrow :: vs) (· = declared))
    (hbody : ∀ s : State, s.seen = vs →
      Reads (if s.isAt "\x7b" then block go else go .assignment) depth vs after (·.shape = S))
    {nodes : List Node} (hnodes : Node.shapes nodes = shapes) :
    Reads (do
      let returned ← annotation ["=>"]
      expect "=>"
      let body ← if (← look).isAt "\x7b" then block go else go .assignment
      buildNamed .arrowFunction start none returned (nodes ++ [body])) depth mid after
      (·.shape = .node .arrowFunction none declared (shapes ++ [S])) := by
  refine htype.bind ?_
  rintro _ rfl
  refine Reads.bind (.step (by rw [harrow]; exact reads_expect)) fun _ _ => ?_
  apply reads_look
  intro s hs
  refine (hbody s hs).ite_bind fun body hbody => ?_
  refine reads_build.imp fun node hnode => ?_
  rw [Node.shapes_eq_map] at hnodes hnode
  rw [hnode, List.map_append, hnodes, List.map_singleton, hbody]
  rfl

/-- An arrow function from its parameters on, around what is read as its body. -/
theorem reads_arrow (params : Params) (hbody : ∀ s : State, s.pieces = qs →
      Reads (if s.isAt "\x7b" then block go else go .assignment) depth qs after (·.shape = S)) :
    Reads (arrow go start) depth (params.pieces ++ punct "=>" :: qs) after
      (·.shape = .node .arrowFunction none none (params.shapes ++ [S])) := by
  apply reads_look
  intro s hs
  cases params with
  | bare x =>
    rw [if_pos (show s.current.isWord = true from State.isWord_eq hs)]
    apply reads_here
    intro paramStart
    refine reads_takeName.bind fun name hname => ?_
    refine reads_build.bind fun node hnode => ?_
    apply reads_behindParameters rfl (reads_untyped _ rfl) hbody
    rw [Node.shapes, hnode, Option.map_some, hname]
    rfl
  | listed xs =>
    have hnot : ¬ s.current.isWord = true := by
      rw [State.isWord_eq hs]
      exact Bool.false_ne_true
    rw [if_neg hnot, Params.pieces, List.cons_append, List.append_assoc]
    exact (reads_parameters xs).bind fun nodes hnodes =>
      reads_behindParameters rfl (reads_untyped _ rfl) hbody hnodes

end Subscriptions.Core
