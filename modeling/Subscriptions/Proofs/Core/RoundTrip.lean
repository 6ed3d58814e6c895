import Subscriptions.Proofs.Core.Statements

namespace Subscriptions

namespace Core

open Grammar Piece Scanner

variable {go : Recur} {fuel depth start n : Nat} {q r : Piece} {qs rs rest after : List Piece}
  {S T : Shape} {s : State} {a : Expr} {ss : List Stmt}

theorem reads_primary_arrow (params : Params) (hbody : ∀ s : State, s.pieces = qs →
      Reads (if s.isAt "\x7b" then block go else go .assignment) depth qs after (·.shape = S)) :
    Reads (primary go) depth (params.pieces ++ punct "=>" :: qs) after
      (·.shape = .node .arrowFunction none none (params.shapes ++ [S])) := by
  have harrow (start : Nat) : Reads (arrow go start) depth (params.pieces ++ punct "=>" :: qs) after
      (·.shape = .node .arrowFunction none none (params.shapes ++ [S])) := reads_arrow params hbody
  cases params with
  | bare x =>
    apply reads_primary_of_word rfl
    apply reads_here
    intro start
    apply reads_look
    intro s hs
    rw [wordForm_plain x hs]
    exact harrow start
  | listed xs =>
    have heq : (Params.listed xs).pieces ++ punct "=>" :: qs =
        punct "(" :: (separated (xs.map Param.pieces) ++ punct ")" :: punct "=>" :: qs) := by
      simp [Params.pieces]
    rw [heq] at harrow ⊢
    apply reads_primary_of_paren rfl
    intro start s hs
    rw [opensArrow_of_arrow (closed_params xs) hs, if_pos rfl]
    exact harrow start

theorem reads_access_arrow (params : Params) (hr : Ends r) (hbody : ∀ s : State, s.pieces = qs →
      Reads (if s.isAt "\x7b" then block go else go .assignment) depth qs (r :: rs) (·.shape = S)) :
    Reads (access go) depth (params.pieces ++ punct "=>" :: qs) (r :: rs)
      (·.shape = .node .arrowFunction none none (params.shapes ++ [S])) := by
  have hprimary := reads_primary_arrow params hbody
  have hfirst : ∃ q qs', params.pieces ++ punct "=>" :: qs = q :: qs' ∧
      q.isTheWord "new" = false := by
    cases params with
    | bare x =>
      refine ⟨_, _, rfl, ?_⟩
      simpa [Piece.isTheWord, Piece.word] using x.ne_keyword (by decide)
    | listed xs => exact ⟨_, _, rfl, rfl⟩
  obtain ⟨q, qs', heq, hnew⟩ := hfirst
  rw [heq] at hprimary ⊢
  exact reads_access hnew hprimary (climbs_stay hr.closes)

/-- The access that is all of an expression, where the expressions inside of it read as they are
written. -/
theorem Expr.reads_access (hin : ∀ a : Expr, a.levels ≤ n → Readable a)
    (hroom : Room n fuel (depth + 1)) (a : Expr) (ha : a.levels ≤ n + 1) (hr : Ends r)
    (rs : List Piece) :
    Reads (access (rule (fuel + 1))) depth (a.pieces ++ r :: rs) (r :: rs)
      (·.shape = a.shape) := by
  cases a with
  | member m =>
    have hm : m.levels ≤ n := Nat.le_of_succ_le_succ ha
    exact m.reads_access hin hroom hm (hr.isPunct_eq_false (by decide))
      (hr.isPunct_eq_false (by decide)) (climbs_stay hr.closes)
  | arrow params body =>
    have hbody : body.levels ≤ n := Nat.le_of_succ_le_succ ha
    have hread := hin body hbody _ _ r rs hr (hroom.out.mono hbody)
    rw [Expr.pieces, List.append_assoc]
    apply reads_access_arrow params hr
    intro s hs
    rw [body.isAt_eq_false hs (by decide), if_neg Bool.false_ne_true]
    exact hread
  | arrowBlock params body =>
    have hbody : Stmt.levelsAll body ≤ n := Nat.le_of_succ_le_succ ha
    have hss : ∀ t ∈ body, ReadableStmt t := fun t ht =>
      t.readable hin (Nat.le_trans (Stmt.levels_le_levelsAll ht) hbody)
    have hread := reads_block hss (hroom.mono hbody) (r :: rs)
    have heq : (Expr.arrowBlock params body).pieces ++ r :: rs = params.pieces ++ punct "=>" ::
        punct "\x7b" :: (Stmt.piecesAll body ++ punct "\x7d" :: r :: rs) := by
      simp [Expr.pieces]
    rw [heq]
    apply reads_access_arrow params hr
    intro s hs
    rw [if_pos (State.isAt_punct hs)]
    exact hread

/-- Every expression reads as it is written, by induction on its levels. -/
theorem Expr.readable (n : Nat) : ∀ a : Expr, a.levels ≤ n → Readable a := by
  induction n with
  | zero =>
    intro a ha
    cases a <;> cases ha
  | succ n ih =>
    intro a ha fuel depth r rs hr hroom
    obtain ⟨q, qs, heq, hq⟩ := a.starts
    have hlevels : ∃ m, a.levels = m + 1 ∧ m ≤ n := by
      cases a <;> exact ⟨_, rfl, Nat.le_of_succ_le_succ ha⟩
    obtain ⟨m, hm, hle⟩ := hlevels
    have hin : ∀ b : Expr, b.levels ≤ m → Readable b := fun b hb => ih b (Nat.le_trans hb hle)
    obtain ⟨hfuel, hdepth⟩ := hroom
    obtain ⟨fuel, rfl⟩ := Nat.exists_eq_add_of_le' (show 5 ≤ fuel by omega)
    have hinner : Room m fuel (depth + 3 + 1) := by
      constructor <;> omega
    have haccess := a.reads_access hin hinner (Nat.le_of_eq hm) hr rs
    rw [heq] at haccess ⊢
    exact reads_assignment hq.operand hr.closes (hr.isPunctOf_eq_false (by decide)) (by omega) haccess

end Core

namespace Parsed

open Subscriptions.Core Grammar

theorem reads_statements {ss : List Stmt} {fuel : Nat}
    (hroom : Room (Stmt.levelsAll ss) fuel 1) :
    Reads (statements (rule (fuel + 1))) 0 (Stmt.piecesAll ss) []
      (Node.shapes · = Stmt.shapes ss) := by
  have hloop : Loops (sourceTurn (rule (fuel + 1))) 0 (Stmt.piecesAll ss ++ []) []
      (Stmt.shapes ss) := by
    apply loops_statements
    · intro t ht rest
      have hstatement := t.readable (Expr.readable t.levels) (Nat.le_refl _)
      exact reads_sourceTurn (t.length_lt rest)
        (hstatement fuel 0 rest (hroom.mono (Stmt.levels_le_levelsAll ht)))
    · exact reads_sourceTurn_stop
  rw [List.append_nil] at hloop
  exact hloop.gather

/-- A program of the core language is read back from its text, without a fault. -/
theorem ofSource_text (program : Program) (h : program.nesting ≤ 40) :
    (ofSource program.text).faults = [] ∧ (ofSource program.text).root.shape = program.shape := by
  have hroom : Room (Stmt.levelsAll program) 205 1 := by
    have hlimit : maxNesting = 256 := rfl
    rw [Program.nesting] at h
    constructor <;> omega
  exact ofSource_spaced (Stmt.spelledAll [] program) (reads_statements hroom)

/-- A construction around an arrow function with a template:
`const f : T = new f.T((f, x1 : T) => { return ...; }, (this));`. -/
def constructionProgram : Program :=
  let f : Word := ⟨'f', [], by decide, by decide, by decide⟩
  let x : Word := ⟨'x', ['1'], by decide, by decide, by decide⟩
  let t : Word := ⟨'T', [], by decide, by decide, by decide⟩
  let seven : Numeral := ⟨'7', [], by decide, by decide⟩
  let index := Expr.member (.index (.property (.word x) f) (.member (.number seven)))
  let parts := Parts.last index ⟨['r'], by decide⟩
  let arrow := Expr.arrowBlock (.listed [⟨f, none⟩, ⟨x, some t⟩])
    [.ret (.member (.template ⟨['l'], by decide⟩ parts))]
  let grouped := Expr.member (.paren (.member .this))
  [.const f (some t) (.member (.construct (.member (.word f) t) [arrow, grouped]))]

theorem ofSource_text_construction : constructionProgram.nesting ≤ 40 ∧
    (ofSource constructionProgram.text).faults = [] ∧
    (ofSource constructionProgram.text).root.shape = constructionProgram.shape :=
  ⟨by decide, ofSource_text constructionProgram (by decide)⟩

end Parsed

end Subscriptions
