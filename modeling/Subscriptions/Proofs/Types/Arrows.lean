import Subscriptions.Proofs.Core.RoundTrip
import Subscriptions.Proofs.Types.Statements

namespace Subscriptions

namespace Types

open Grammar Piece Scanner Ink

variable {gap lead n depth fuel start : Nat} {go : Recur} {S : Shape} {is js : List Ink}
  {rest : List Char}

structure TypeParam where
  name : Identifier
  bound : Option Ty

namespace TypeParam

def text (gap : Nat) (x : TypeParam) : String :=
  match x.bound with
  | none => x.name.text
  | some t => String.join [x.name.text, " extends ", t.text gap]

/-- A type parameter and `n` closing angle brackets that touch it. -/
def inks (gap lead n : Nat) (x : TypeParam) : List Ink :=
  match x.bound with
  | none => x.name.ink lead :: closing n
  | some t => x.name.ink lead :: key 1 "extends" :: t.inks gap 1 n

def listText (gap : Nat) : List TypeParam → String
  | [] => ""
  | [x] => x.text gap
  | x :: xs => String.join [x.text gap, ", ", listText gap xs]

/-- Type parameters and the closing angle bracket behind the last. -/
def listInks (gap lead : Nat) : List TypeParam → List Ink
  | [] => []
  | [x] => x.inks gap lead 1
  | x :: xs => x.inks gap lead 0 ++ mark 0 "," :: listInks gap 1 xs

theorem chars_inks (x : TypeParam) : Ink.chars (x.inks gap lead n) =
    blanks lead ++ ((x.text gap).toList ++ List.replicate n '>') := by
  rw [inks, text]
  cases x.bound with
  | none => simp
  | some t => simp [blanks]

theorem chars_listInks (x : TypeParam) (xs : List TypeParam) :
    Ink.chars (listInks gap lead (x :: xs)) =
      blanks lead ++ ((listText gap (x :: xs)).toList ++ ['>']) := by
  induction xs generalizing x lead with
  | nil => simp [listInks, listText, chars_inks]
  | cons y ys ih => simp [listInks, listText, chars_inks, ih, blanks]

theorem written (x : TypeParam) (hrest : ∀ n, Free n rest) :
    Written [] (x.inks gap lead n) [] rest := by
  rw [inks]
  cases x.bound with
  | none =>
    refine x.name.written ?_ (written_closing (hrest n))
    simpa using (hrest n).isWordPart_head
  | some t =>
    refine x.name.written ?_ (written_key (by decide) ?_ (t.written 1 n (hrest _)))
    · simp [blanks]
      decide
    · simp [blanks]
      decide

theorem written_list (x : TypeParam) (xs : List TypeParam) (hrest : ∀ n, Free n rest) :
    Written [] (listInks gap lead (x :: xs)) [] rest := by
  induction xs generalizing x lead with
  | nil => exact x.written hrest
  | cons y ys ih =>
    refine (x.written fun n => ?_).append (written_single (by decide) (ih y))
    simpa using free_mark (c := ',') (by decide)

theorem opens_list (x : TypeParam) (xs : List TypeParam) :
    Opens (listText gap (x :: xs)).toList := by
  have hfirst : Opens (x.text gap).toList := by
    rw [text]
    cases x.bound with
    | none => simpa using x.name.opens
    | some t => simpa using x.name.opens.append
  cases xs with
  | nil => exact hfirst
  | cons y ys =>
    rw [listText]
    · simpa using hfirst.append
    · exact nofun

theorem nested (x : TypeParam) {first : Bool} {m : Nat} (h : 0 < m + n) :
    Nested .arguments first (m + n) ((x.inks gap lead n).map Ink.piece) m := by
  have hname : (word x.name.text).text ≠ ";" := x.name.text_ne (by decide)
  rw [inks]
  cases x.bound with
  | none => exact .word x.name.text_not_mem ⟨h, hname⟩ (nested_closing m n)
  | some t =>
    refine .word x.name.text_not_mem ⟨h, hname⟩ (.word (by decide) ⟨h, by decide⟩ ?_)
    exact t.nested 1 n m _ false (by omega)

theorem nested_list (x : TypeParam) (xs : List TypeParam) :
    Nested .arguments false 1 ((listInks gap lead (x :: xs)).map Ink.piece) 0 := by
  induction xs generalizing x lead with
  | nil => exact x.nested (m := 0) (n := 1) Nat.one_pos
  | cons y ys ih =>
    rw [listInks, List.map_append]
    · exact (x.nested (m := 1) (n := 0) Nat.one_pos).append
        (.mark (by decide) ⟨Nat.one_pos, by decide⟩ (ih y))
    · exact nofun

theorem reads_list (x : TypeParam) (xs : List TypeParam) :
    Reads skipAngles depth (mark lead "<" :: (listInks gap 0 (x :: xs) ++ is)) is
      fun _ => True := by
  apply reads_look
  intro s hs
  rw [if_pos (State.isAt_punct (State.pieces_of_seen hs))]
  have hskip : Reads (skip (angles 0 0)) depth
      (mark lead "<" :: (listInks gap 0 (x :: xs) ++ is)) is fun _ => True := by
    refine reads_skip fun tokens htokens => ?_
    obtain ⟨t, tokens, rfl, ht, htokens⟩ := List.map_eq_cons_iff.mp htokens
    obtain ⟨ts, us, rfl, hts, hus⟩ := List.map_eq_append_iff.mp htokens
    have hless : t.piece = punct "<" := congrArg Ink.piece ht
    refine ⟨t :: ts, us, ?_, (List.suffix_append ts us).trans (List.suffix_cons t _), hus, trivial⟩
    rw [angles_of_lettered (hless ▸ .inl rfl), isPunctOf_of_piece hless,
      isPunctOf_of_piece hless, isPunct_of_piece hless,
      if_neg (by decide), if_neg (by decide), if_pos (by decide), Nat.zero_add,
      angles_nested (nested_list x xs) rfl Nat.one_pos (map_piece_of_ink hts)]
    rfl
  exact hskip.bind fun _ _ => reads_pure trivial

end TypeParam

theorem Ty.closed (t : Ty) : Closed ((t.inks gap lead 0).map Ink.piece) :=
  (t.nested lead 0 1 .inside false nofun).closed

theorem closed_annotated (t : Option Ty) : Closed ((annotated gap t).map Ink.piece) := by
  cases t with
  | none => exact .nil
  | some t => exact .cons ⟨rfl, rfl⟩ t.closed

theorem Param.closed (x : Param) : Closed ((x.inks gap lead).map Ink.piece) :=
  .cons ⟨rfl, rfl⟩ (closed_annotated x.type)

theorem Param.closed_list (xs : List Param) : Closed ((Param.listInks gap xs).map Ink.piece) := by
  cases xs with
  | nil => exact .nil
  | cons x xs =>
    rw [Param.listInks, List.map_append]
    refine x.closed.append ?_
    induction xs with
    | nil => exact .nil
    | cons y ys ih =>
      rw [List.flatMap_cons, List.map_append]
      exact Closed.append (.cons ⟨rfl, rfl⟩ y.closed) ih

/-- A return type behind which an arrow is found: no function type, and no closing angle brackets
in it that touch. -/
structure Findable (t : Ty) : Prop where
  arrow : punct "=>" ∉ t.outer
  apart : ∀ i ∈ t.inks 0 1 0, i.piece.text ∉ [">>", ">>>"]

theorem Findable.passes {t : Ty} (h : Findable t) {stops : List String}
    (hstops : ∀ p ∈ stops, p ∈ ["=>", ";", ",", "="]) :
    (Permit.upTo stops).Passes true t.outer := by
  have hmarks : ∀ p ∈ ["=>", ";", ",", "="], startsWord p = false ∧
      (p ∈ outerPuncts → p = "=>") := by decide
  have hnone : ∀ q ∈ t.outer, q.text ∉ stops := by
    intro q hq hmem
    obtain ⟨hword, harrow⟩ := hmarks _ (hstops _ hmem)
    obtain ⟨heq, hmark⟩ := t.eq_punct_of_text hq rfl hword
    rw [harrow hmark] at heq
    exact h.arrow (heq ▸ hq)
  exact t.passes (fun q hq hmem => absurd hmem (hnone q (List.mem_of_head? hq)))
    fun q hq => hnone q (List.mem_of_mem_tail hq)

theorem Findable.typeThenArrow {t : Ty} (h : Findable t) {ts us : List Token} {u : Token}
    (hts : ts.map Token.piece = (t.inks 0 1 0).map Ink.piece) (hu : u.piece = punct "=>") :
    typeThenArrow 0 (ts ++ u :: us) = true := by
  have hpasses : (Permit.upTo ["=>", ";", ",", "="]).Passes true t.outer := h.passes fun _ => id
  have hnested : Nested _ true (0 + 0) ((t.inks 0 1 0).map Ink.piece) 0 :=
    t.nested 1 0 0 _ true fun _ => hpasses
  have hsearch : Grammar.typeThenArrow (0 + 0) (ts ++ u :: us) = _ :=
    typeThenArrow_nested hnested hts ?_ ?_
  · rw [Nat.zero_add] at hsearch
    rw [hsearch, Grammar.typeThenArrow, isPunct_of_piece hu]
    rfl
  · intro _ first q hallows
    rcases hallows rfl with hnot | ⟨-, rfl⟩
    · exact hnot
    · decide
  · intro q hq
    obtain ⟨i, hi, rfl⟩ := List.mem_map.mp hq
    exact h.apart i hi

def signatureInks (lead : Nat) (params : List Param) (returned : Option Ty) : List Ink :=
  mark lead "(" :: (Param.listInks 0 params ++ mark 0 ")" ::
    (annotated 0 returned ++ [mark 1 "=>"]))

theorem opensArrow_signature (params : List Param) (returned : Option Ty)
    (h : ∀ t ∈ returned, Findable t) {ts : List Token}
    (hts : ts.map Token.ink = signatureInks lead params returned ++ is) : opensArrow ts = true := by
  have hpieces : ts.map Token.piece = punct "(" :: ((Param.listInks 0 params).map Ink.piece ++
      punct ")" :: ((annotated 0 returned).map Ink.piece ++ punct "=>" :: is.map Ink.piece)) := by
    rw [map_piece_of_ink hts]
    simp [signatureInks]
  have hclosed : Closed ((Param.listInks 0 params).map Ink.piece) := Param.closed_list params
  cases returned with
  | none => exact opensArrow_of_arrow hclosed hpieces
  | some t =>
    have hrest := balanced_of_closed (by decide) (by decide) hclosed hpieces
    obtain ⟨u, us, hsplit, hu, hus⟩ := List.map_eq_cons_iff.mp hrest
    obtain ⟨ts', us', rfl, hts', hus'⟩ := List.map_eq_append_iff.mp hus
    obtain ⟨v, vs, rfl, hv, -⟩ := List.map_eq_cons_iff.mp hus'
    rw [opensArrow, hsplit]
    dsimp only
    rw [isPunct_of_piece hu, isPunct_of_piece hu, (h t rfl).typeThenArrow hts' hv]
    rfl

def arrowBody (go : Recur) (s : State) : Parse Node :=
  if s.isAt "\x7b" then block go else go .assignment

/-- What is read as the body of an arrow function in front of a semicolon behind so many blanks,
three rules inside of a constant. -/
structure Body where
  inks : List Ink
  gap : Nat
  shape : Shape
  fuel : Nat
  written (rest : List Char) : Written [] inks [] (blanks gap ++ ';' :: rest)
  reads (is : List Ink) (s : State) (hs : s.seen = inks ++ mark gap ";" :: is) :
    Reads (arrowBody (rule fuel) s) 4 (inks ++ mark gap ";" :: is) (mark gap ";" :: is)
      (·.shape = shape)

namespace Body

def ofName (x : Identifier) : Body where
  inks := [x.ink 1]
  gap := 0
  shape := x.shape
  fuel := 4
  written rest := by
    refine x.written ?_ (.nil _ _)
    simp
    decide
  reads is s hs := by
    have hnot : s.isAt "\x7b" = false := by
      rw [State.isAt_eq (State.pieces_of_seen hs)]
      rfl
    rw [arrowBody, hnot]
    exact reads_identifier x rfl (by decide)

/-- An expression of the core language, with a blank before each of its tokens. -/
def ofExpr (a : Core.Expr) (ha : a.levels ≤ 50) : Body where
  inks := a.pieces.map (behind [' '])
  gap := 1
  shape := a.shape
  fuel := 5 * a.levels
  written rest := (a.spelled []).written (.inr ⟨_, .inl rfl⟩)
  reads is s hs := by
    have hpieces : (a.pieces.map (behind [' '])).map Seen.piece = a.pieces := by
      rw [List.map_map]
      exact List.map_id _
    have hs := State.pieces_of_seen hs
    rw [List.map_append, hpieces] at hs
    rw [arrowBody, a.isAt_eq_false hs (by decide), if_neg Bool.false_ne_true]
    refine .seen (List.suffix_append _ _) ?_
    rw [List.map_append, hpieces]
    refine Core.Expr.readable _ a (Nat.le_refl _) _ _ _ _ (.punct (by decide)) ⟨Nat.le_refl _, ?_⟩
    have hlimit : maxNesting = 256 := rfl
    omega

/-- A block of statements of the core language, with a blank before each of its tokens. -/
def ofBlock (ss : List Core.Stmt) (hss : Core.Stmt.levelsAll ss ≤ 50) : Body where
  inks := (punct "\x7b" :: (Core.Stmt.piecesAll ss ++ [punct "\x7d"])).map (behind [' '])
  gap := 1
  shape := .node .block none none (Core.Stmt.shapes ss)
  fuel := 5 * Core.Stmt.levelsAll ss + 1
  written rest := by
    have hspelled : Spelled [] (punct "\x7b" :: (Core.Stmt.piecesAll ss ++ [punct "\x7d"])) [] :=
      .cons scans_openBrace ((Core.Stmt.spelledAll [] ss).append
        (.single (scans_closeBrace (b := []))))
    exact hspelled.written (.inr ⟨_, .inl rfl⟩)
  reads is s hs := by
    have hpieces : ((punct "\x7b" :: (Core.Stmt.piecesAll ss ++ [punct "\x7d"])).map
        (behind [' '])).map Seen.piece =
          punct "\x7b" :: (Core.Stmt.piecesAll ss ++ [punct "\x7d"]) := by
      rw [List.map_map]
      exact List.map_id _
    have hs := State.pieces_of_seen hs
    rw [List.map_append, hpieces] at hs
    rw [arrowBody, if_pos (State.isAt_punct hs)]
    refine .seen (List.suffix_append _ _) ?_
    rw [List.map_append, hpieces, List.cons_append, List.append_assoc]
    refine Core.reads_block (fun t ht => ?_) ⟨Nat.le_refl _, ?_⟩ _
    · exact t.readable (n := t.levels) (Core.Expr.readable _) (Nat.le_refl _)
    · have hlimit : maxNesting = 256 := rfl
      omega

end Body

structure Arrow where
  async : Bool
  typeParams : List TypeParam
  params : List Param
  returned : Option Ty
  body : Body

namespace Arrow

def typeParamsInks : List TypeParam → List Ink
  | [] => []
  | x :: xs => mark 1 "<" :: TypeParam.listInks 0 0 (x :: xs)

def typeParamsText : List TypeParam → String
  | [] => ""
  | x :: xs => String.join [" <", TypeParam.listText 0 (x :: xs), ">"]

def paramsLead : List TypeParam → Nat
  | [] => 1
  | _ :: _ => 0

def asyncInks (async : Bool) : List Ink := if async then [key 1 "async"] else []

def inks (f : Arrow) : List Ink :=
  asyncInks f.async ++ (typeParamsInks f.typeParams ++
    (signatureInks (paramsLead f.typeParams) f.params f.returned ++ f.body.inks))

/-- The text of an arrow function: `async <T>(p: A): R =>` and its body. -/
def text (f : Arrow) : List Char :=
  (String.join [if f.async then " async" else "", typeParamsText f.typeParams]).toList ++
  (blanks (paramsLead f.typeParams) ++ '(' :: (Param.listChars 0 f.params ++
    ')' :: (annotatedChars 0 f.returned ++ ' ' :: '=' :: '>' :: Ink.chars f.body.inks)))

def shape (f : Arrow) : Shape :=
  .node .arrowFunction none (f.returned.map (Ty.text 0))
    (f.params.map (Param.shape 0) ++ [f.body.shape])

theorem chars_inks (f : Arrow) : Ink.chars f.inks = f.text := by
  obtain ⟨async, typeParams, params, returned, body⟩ := f
  cases async <;> cases typeParams with
  | nil =>
    simp [inks, text, asyncInks, typeParamsInks, typeParamsText, paramsLead, signatureInks, blanks]
  | cons x xs =>
    simp [inks, text, asyncInks, typeParamsInks, typeParamsText, paramsLead, signatureInks,
      TypeParam.chars_listInks, blanks]

theorem text_eq_cons (f : Arrow) : ∃ cs, f.text = ' ' :: cs := by
  obtain ⟨async, typeParams, params, returned, body⟩ := f
  cases async with
  | true => exact ⟨_, by simp [text]; rfl⟩
  | false =>
    cases typeParams with
    | nil => exact ⟨_, rfl⟩
    | cons x xs => exact ⟨_, by simp [text, typeParamsText]; rfl⟩

theorem written_typeParams (xs : List TypeParam) (cs : List Char) :
    Written [] (typeParamsInks xs) [] (blanks (paramsLead xs) ++ '(' :: cs) := by
  cases xs with
  | nil => exact .nil _ _
  | cons x xs =>
    refine written_mark (by decide) ?_
      (TypeParam.written_list x xs fun n => free_behind (by decide))
    rw [TypeParam.chars_listInks, blanks_zero, List.nil_append, List.append_assoc]
    exact (x.opens_list xs).append.stops (by decide) 0

theorem written_signature (params : List Param) (returned : Option Ty) (cs : List Char) :
    Written [] (signatureInks lead params returned) [] cs := by
  have harrow : Written [] [mark 1 "=>"] [] cs := written_single (by decide) (.nil _ _)
  have hreturned : Written [] (annotated 0 returned) [] (Ink.chars [mark 1 "=>"] ++ cs) := by
    cases returned with
    | none => exact .nil _ _
    | some t => exact written_single (by decide) (t.written 1 0 free_blank)
  refine written_single (by decide) (Written.append ?_
    (written_single (by decide) (hreturned.append harrow)))
  simpa using Param.written_list params _

theorem written (f : Arrow) (rest : List Char) :
    Written [] f.inks [] (blanks f.body.gap ++ ';' :: rest) := by
  obtain ⟨async, typeParams, params, returned, body⟩ := f
  have hlater : Written [] (typeParamsInks typeParams ++
      (signatureInks (paramsLead typeParams) params returned ++ body.inks)) []
      (blanks body.gap ++ ';' :: rest) := by
    refine Written.append ?_ ((written_signature params returned _).append (body.written rest))
    simpa [signatureInks] using written_typeParams typeParams _
  cases async with
  | false => exact hlater
  | true =>
    refine written_key (by decide) ?_ hlater
    intro d hd
    have hblank : ' ' = d := by
      cases typeParams with
      | nil => simpa [typeParamsInks, paramsLead, signatureInks, blanks] using hd
      | cons x xs => simpa [typeParamsInks, blanks] using hd
    subst hblank
    decide

theorem reads_arrow (params : List Param) (returned : Option Ty) (h : ∀ t ∈ returned, Findable t)
    (body : Body) (is : List Ink) : Reads (arrow (rule body.fuel) start) 4
      (signatureInks lead params returned ++ (body.inks ++ mark body.gap ";" :: is))
      (mark body.gap ";" :: is) (·.shape = .node .arrowFunction none (returned.map (Ty.text 0))
        (params.map (Param.shape 0) ++ [body.shape])) := by
  have heq : signatureInks lead params returned ++ (body.inks ++ mark body.gap ";" :: is) =
      mark lead "(" :: (Param.listInks 0 params ++ mark 0 ")" :: (annotated 0 returned ++
        mark 1 "=>" :: (body.inks ++ mark body.gap ";" :: is))) := by
    simp [signatureInks]
  rw [heq]
  apply reads_look
  intro s hs
  have hnot : ¬ s.current.isWord = true := by
    rw [State.isWord_eq (State.pieces_of_seen hs)]
    exact Bool.false_ne_true
  rw [if_neg hnot]
  exact (Param.reads_list params).bind fun nodes hnodes =>
    Core.reads_behindParameters rfl
      (reads_annotated returned (p := "=>") rfl (by decide) (by decide) fun t ht =>
        (h t ht).passes (by decide))
      (body.reads is) hnodes

theorem wordForm_async {s : State} {i : Ink} {is : List Ink}
    (hs : s.seen = key 1 "async" :: i :: is) (hi : i.piece = punct "(")
    (hopens : opensArrow (s.rest.drop 1) = true) : wordForm s = .asyncArrow := by
  have hpieces := State.pieces_of_seen hs
  have htext : s.current.text = "async" := State.text_current hpieces
  have hnext : (s.ahead 1).piece = i.piece := State.piece_ahead_one hpieces
  rw [hi] at hnext
  have hkind : (s.ahead 1).kind = .punct := congrArg Piece.kind hnext
  have hmark : (s.ahead 1).text = "(" := congrArg Piece.text hnext
  have hline : (s.ahead 1).newlineBefore = false := congrArg Piece.newlineBefore hnext
  simp only [wordForm, htext, hmark, hline, hopens, Token.isWord, Token.isPunct, hkind]
  simp

/-- An arrow function is found and read, where not both of `async` and type parameters stand before
its parameters and an arrow is found behind its return type. -/
theorem reads_primary (f : Arrow) (hopening : f.async = true → f.typeParams = [])
    (hreturned : ∀ t ∈ f.returned, Findable t) (is : List Ink) :
    Reads (primary (rule f.body.fuel)) 4 (f.inks ++ mark f.body.gap ";" :: is)
      (mark f.body.gap ";" :: is) (·.shape = f.shape) := by
  obtain ⟨async, typeParams, params, returned, body⟩ := f
  have hopens {lead : Nat} {ts : List Token} {js : List Ink}
      (hts : ts.map Token.ink = signatureInks lead params returned ++ js) : opensArrow ts = true :=
    opensArrow_signature params returned hreturned hts
  have hread (start lead : Nat) := @reads_arrow lead start params returned hreturned body is
  cases typeParams with
  | nil =>
    cases async with
    | false =>
      have heq : inks ⟨false, [], params, returned, body⟩ ++ mark body.gap ";" :: is =
          signatureInks 1 params returned ++ (body.inks ++ mark body.gap ";" :: is) := by
        simp [inks, asyncInks, typeParamsInks, paramsLead]
      rw [heq]
      refine Core.reads_primary_of_paren rfl fun start s hs => ?_
      rw [hopens hs, if_pos rfl]
      exact hread start 1
    | true =>
      have heq : inks ⟨true, [], params, returned, body⟩ ++ mark body.gap ";" :: is =
          key 1 "async" ::
            (signatureInks 1 params returned ++ (body.inks ++ mark body.gap ";" :: is)) := by
        simp [inks, asyncInks, typeParamsInks, paramsLead]
      rw [heq]
      refine Core.reads_primary_of_word rfl ?_
      apply reads_here
      intro start
      apply reads_look
      intro s hs
      obtain ⟨t, ts, hrest, -, hts⟩ := List.map_eq_cons_iff.mp hs
      have hform : wordForm s = .asyncArrow := by
        refine wordForm_async hs rfl ?_
        rw [hrest]
        exact hopens hts
      rw [hform]
      exact Reads.bind (.step reads_advance) fun _ _ => hread start 1
  | cons x xs =>
    cases async with
    | true => exact absurd (hopening rfl) (List.cons_ne_nil x xs)
    | false =>
      have heq : inks ⟨false, x :: xs, params, returned, body⟩ ++ mark body.gap ";" :: is =
          mark 1 "<" :: (TypeParam.listInks 0 0 (x :: xs) ++
            (signatureInks 0 params returned ++ (body.inks ++ mark body.gap ";" :: is))) := by
        simp [inks, asyncInks, typeParamsInks, paramsLead]
      rw [heq]
      refine Core.reads_primary_of_punct rfl fun start => ?_
      apply reads_look
      intro s hs
      have hs := State.pieces_of_seen hs
      have hat (p : String) (hp : (punct "<").isPunct p = false) : s.isAt p = false := by
        rw [State.isAt_eq hs]
        exact hp
      rw [hat "(" rfl, hat "[" rfl, hat "\x7b" rfl, if_neg Bool.false_ne_true,
        if_neg Bool.false_ne_true, if_neg Bool.false_ne_true, if_pos (State.isAt_punct hs)]
      refine (TypeParam.reads_list x xs).bind fun _ _ => ?_
      apply reads_look
      intro s hs
      have hfound : (s.isAt "(" && opensArrow s.rest) = true := by
        rw [State.isAt_punct (State.pieces_of_seen hs), hopens hs]
        rfl
      rw [if_pos hfound]
      exact hread start 0

/-- The same as the value of an assignment. -/
theorem reads_assignment (f : Arrow) (hopening : f.async = true → f.typeParams = [])
    (hreturned : ∀ t ∈ f.returned, Findable t) (is : List Ink) :
    Reads (rule (f.body.fuel + 4) .assignment) 1 (f.inks ++ mark f.body.gap ";" :: is)
      (mark f.body.gap ";" :: is) (·.shape = f.shape) := by
  have hprimary := f.reads_primary hopening hreturned is
  have hfirst : ∃ i js, f.inks = i :: js ∧ Core.Operand i.piece ∧
      i.piece.isTheWord "new" = false := by
    obtain ⟨async, typeParams, params, returned, body⟩ := f
    cases async with
    | true => exact ⟨_, _, rfl, ⟨rfl, by decide⟩, rfl⟩
    | false =>
      cases typeParams with
      | nil => exact ⟨_, _, rfl, ⟨rfl, fun _ _ => rfl⟩, rfl⟩
      | cons x xs => exact ⟨_, _, rfl, ⟨rfl, fun _ _ => rfl⟩, rfl⟩
  obtain ⟨i, js, heq, hoperand, hnew⟩ := hfirst
  have hends : Core.Ends (Seen.piece (mark f.body.gap ";")) := .punct (by decide)
  rw [heq] at hprimary ⊢
  exact Core.reads_assignment hoperand hends.closes (hends.isPunctOf_eq_false (by decide))
    (by decide) (Core.reads_access hnew hprimary (Core.climbs_stay hends.closes))

end Arrow

/-- The text `const f =`, an arrow function and a semicolon. -/
def arrowText (x : Identifier) (f : Arrow) : List Char :=
  (String.join ["const ", x.text, " ="]).toList ++ (f.text ++ (blanks f.body.gap ++ [';']))

end Types

namespace Parsed

open Subscriptions.Types Grammar Piece Scanner

/-- A constant with an arrow function as its value is read as it is written. -/
theorem ofSource_arrowText (x : Identifier) (f : Arrow)
    (hopening : f.async = true → f.typeParams = []) (hreturned : ∀ t ∈ f.returned, Findable t) :
    (ofSource (arrowText x f)).faults = [] ∧
      (ofSource (arrowText x f)).root.shape = .node .sourceFile none none
        [.node .variableStatement none none
          [.node .variableDeclaration (some x.text) none [f.shape]]] := by
  let is : List Ink := key 0 "const" :: x.ink 1 :: mark 1 "=" :: (f.inks ++ [mark f.body.gap ";"])
  have hchars : Ink.chars is = arrowText x f := by
    simp [is, arrowText, Arrow.chars_inks, blanks]
  have hsemicolon : Written [] [mark f.body.gap ";"] [] [] := written_single (by decide) (.nil _ _)
  have hvalue : Written [] (f.inks ++ [mark f.body.gap ";"]) [] [] := by
    refine Written.append ?_ hsemicolon
    simpa using f.written []
  have hwritten : Written [] is [] [] := by
    refine written_key (by decide) ?_ (x.written ?_ (written_mark (by decide) ?_ hvalue))
    · simp [blanks]
      decide
    · simp [blanks]
      decide
    · obtain ⟨cs, hcs⟩ := f.text_eq_cons
      rw [Ink.chars_append, Arrow.chars_inks, hcs]
      intro d hd
      obtain rfl : ' ' = d := Option.some.inj hd
      decide
  have hreads : Reads (rule (f.body.fuel + 5) .statement) 0 is []
      (·.shape = .node .variableStatement none none
        [.node .variableDeclaration (some x.text) none [f.shape]]) :=
    @reads_const _ _ 0 _ _ _ x _ [] _ _ rfl (fun _ h => absurd h (Option.not_mem_none _))
      (by decide) (.stay (reads_untyped _ rfl))
      (f.reads_assignment hopening hreturned [])
  rw [← hchars]
  exact ofSource_written hwritten (Types.reads_statements (List.cons_ne_nil _ _) hreads)

/-- `async (a: A<A<A>>, b): A<A>[] => \x7b return b ; \x7d`. -/
def sampleArrow : Arrow :=
  let a : Identifier := ⟨⟨'a', [], by decide, List.all_nil⟩, by decide⟩
  let b : Identifier := ⟨⟨'b', [], by decide, List.all_nil⟩, by decide⟩
  let t := Path.word .sampleType
  ⟨true, [], [⟨a, some (.generic t (.last (.generic t (.last (.name t)))))⟩, ⟨b, none⟩],
    some (.array (.generic t (.last (.name t)))),
    .ofBlock [.ret (.member (.word ⟨'b', [], by decide, List.all_nil, by decide⟩))] (by decide)⟩

theorem ofSource_arrowText_async :
    let x : Identifier := ⟨⟨'f', [], by decide, by decide⟩, by decide⟩
    (sampleArrow.async = true → sampleArrow.typeParams = []) ∧
    (∀ t ∈ sampleArrow.returned, Findable t) ∧
    (ofSource (arrowText x sampleArrow)).faults = [] ∧
      (ofSource (arrowText x sampleArrow)).root.shape = .node .sourceFile none none
        [.node .variableStatement none none
          [.node .variableDeclaration (some x.text) none [sampleArrow.shape]]] := by
  have hfound : ∀ t ∈ sampleArrow.returned, Findable t := by
    rintro t ht
    obtain rfl := Option.some.inj ht
    exact ⟨by decide, by decide⟩
  exact ⟨fun _ => rfl, hfound, ofSource_arrowText _ sampleArrow (fun _ => rfl) hfound⟩

/-- An arrow function is not found where closing angle brackets touch in its return type, nor where
type parameters stand behind `async`. -/
theorem ofSource_arrowText_missed : ∃ (x : Identifier) (f g : Arrow),
    String.ofList (arrowText x f) = "const f = (x): A<A<A>> => x ;" ∧
    (ofSource (arrowText x f)).faults ≠ [] ∧
    (ofSource (arrowText x f)).root.shape ≠ .node .sourceFile none none
      [.node .variableStatement none none
        [.node .variableDeclaration (some x.text) none [f.shape]]] ∧
    String.ofList (arrowText x g) = "const f = async <T>(x) => x;" ∧
    (ofSource (arrowText x g)).faults ≠ [] ∧
    (ofSource (arrowText x g)).root.shape ≠ .node .sourceFile none none
      [.node .variableStatement none none
        [.node .variableDeclaration (some x.text) none [g.shape]]] := by
  let x : Identifier := ⟨⟨'x', [], by decide, by decide⟩, by decide⟩
  let t := Path.word ⟨'A', [], by decide, by decide⟩
  let nested := Ty.generic t (.last (.generic t (.last (.name t))))
  exact ⟨⟨⟨'f', [], by decide, by decide⟩, by decide⟩, ⟨false, [], [⟨x, none⟩], some nested,
      .ofExpr (.member (.word ⟨'x', [], by decide, by decide, by decide⟩)) (by decide)⟩,
    ⟨true, [⟨⟨⟨'T', [], by decide, by decide⟩, by decide⟩, none⟩], [⟨x, none⟩], none, .ofName x⟩,
    by decide +kernel, by decide +kernel, by decide +kernel, by decide +kernel, by decide +kernel,
    by decide +kernel⟩

end Parsed

end Subscriptions
