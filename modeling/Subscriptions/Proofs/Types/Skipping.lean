import Subscriptions.Proofs.Core.Writing
import Subscriptions.Proofs.Types.Language

namespace Subscriptions

namespace Grammar

open Piece

/-- What may be read outside of brackets, where so many angle brackets are open, as the first piece
of all or not. -/
structure Permit where
  allows : Nat → Bool → Piece → Prop
  first {n : Nat} {q : Piece} : allows n false q → allows n true q
  within {n : Nat} {first : Bool} {q : Piece} : q.text ≠ ";" → allows (n + 1) first q

/-- Anything within angle brackets, and nothing behind the last of them. -/
def Permit.inside : Permit where
  allows n _ _ := 0 < n
  first h := h
  within _ := Nat.succ_pos _

/-- Outside of angle brackets none of the stops, but for a brace as the first piece. -/
def Permit.upTo (stops : List String) : Permit where
  allows n first q := n = 0 → q.text ∉ stops ∨ (first = true ∧ q = punct "\x7b")
  first h hn := (h hn).imp_right fun h => ⟨rfl, h.2⟩
  within _ h := nomatch h

/-- Within angle brackets no semicolon. -/
def Permit.arguments : Permit where
  allows n _ q := 0 < n ∧ q.text ≠ ";"
  first h := h
  within h := ⟨Nat.succ_pos _, h⟩

def angleBrackets : List (String × Nat) := [(">", 1), (">>", 2), (">>>", 3)]

def angleTexts : List String := [";", "<", ">", ">>", ">>>", "(", "[", "\x7b", ")", "]", "\x7d"]

/-- A piece that is no punctuator has none of these texts. -/
def Lettered (q : Piece) : Prop := q.kind = .punct ∨ q.text ∉ angleTexts

/-- Pieces between which the open angle brackets come from `n` to `m`. Other brackets are closed
again, and in them as many angle brackets as are opened there. -/
inductive Nested : Permit → Bool → Nat → List Piece → Nat → Prop
  | nil (P : Permit) (first : Bool) (n : Nat) : Nested P first n [] n
  | flat {P : Permit} {first : Bool} {n m : Nat} {q : Piece} {qs : List Piece} : Flat q →
    q.isPunctOf ["<", ">", ">>", ">>>"] = false → Lettered q → q.newlineBefore = false →
      P.allows n first q → Nested P false n qs m → Nested P first n (q :: qs) m
  | bracket {P : Permit} {first : Bool} {n m : Nat} {o c : String} {inner qs : List Piece} :
    o ∈ openers → c ∈ closers → P.allows n first (punct o) → Nested .inside false 1 inner 1 →
      Nested P false n qs m → Nested P first n (punct o :: (inner ++ punct c :: qs)) m
  | less {P : Permit} {first : Bool} {n m : Nat} {qs : List Piece} :
    P.allows n first (punct "<") → Nested P false (n + 1) qs m →
      Nested P first n (punct "<" :: qs) m
  | greater {P : Permit} {first : Bool} {n m k : Nat} {p : String} {qs : List Piece} :
    (p, k) ∈ angleBrackets → Nested P false n qs m → Nested P first (n + k) (punct p :: qs) m

variable {P : Permit} {first : Bool} {n m k : Nat} {q : Piece} {qs rs : List Piece}

theorem Nested.of_later (h : Nested P false n qs m) : Nested P first n qs m := by
  cases first with
  | false => exact h
  | true =>
    cases h with
    | nil => exact .nil _ _ _
    | flat hq hangle hletters hline hallows h =>
      exact .flat hq hangle hletters hline (P.first hallows) h
    | bracket ho hc hallows hinner h => exact .bracket ho hc (P.first hallows) hinner h
    | less hallows h => exact .less (P.first hallows) h
    | greater hp h => exact .greater hp h

theorem Nested.append (h : Nested P first n qs m) (h' : Nested P false m rs k) :
    Nested P first n (qs ++ rs) k := by
  induction h with
  | nil => exact h'.of_later
  | flat hq hangle hletters hline hallows _ ih =>
    exact .flat hq hangle hletters hline hallows (ih h')
  | @bracket _ _ _ _ o c inner qs ho hc hallows hinner _ _ ih =>
    rw [List.cons_append, List.append_assoc]
    exact .bracket ho hc hallows hinner (ih h')
  | less hallows _ ih => exact .less hallows (ih h')
  | greater hp _ ih => exact .greater hp (ih h')

/-- Angle brackets are no brackets of the other kinds. -/
theorem flat_angle : ∀ p ∈ "<" :: angleBrackets.map Prod.fst,
    (punct p).isPunctOf openers = false ∧ (punct p).isPunctOf closers = false := by decide

theorem Nested.closed (h : Nested P first n qs m) : Closed qs := by
  induction h with
  | nil => exact .nil
  | flat hq _ _ _ _ _ ih => exact .cons hq ih
  | @bracket _ _ _ _ o c inner qs ho hc _ _ _ hinner ih =>
    have hboth := (Closed.bracket ho hc hinner).append ih
    rwa [List.cons_append, List.append_assoc] at hboth
  | less _ _ ih => exact .cons (flat_angle _ List.mem_cons_self) ih
  | greater hp _ ih =>
    exact .cons (flat_angle _ (List.mem_cons_of_mem _ (List.mem_map_of_mem hp))) ih

section
variable {stops : List String} {previous : Option Token} {depth : Nat} {t : Token}
  {ts rest : List Token}

/-- The tokens of a bracket and of what follows it. -/
theorem exists_of_map_bracket {o c : Piece} (hts : ts.map Token.piece = o :: (qs ++ c :: rs)) :
    ∃ t us u vs, ts = t :: (us ++ u :: vs) ∧ t.piece = o ∧ us.map Token.piece = qs ∧
      u.piece = c ∧ vs.map Token.piece = rs := by
  obtain ⟨t, ts', rfl, ht, hts'⟩ := List.map_eq_cons_iff.mp hts
  obtain ⟨us, ts'', rfl, hus, hts''⟩ := List.map_eq_append_iff.mp hts'
  obtain ⟨u, vs, rfl, hu, hvs⟩ := List.map_eq_cons_iff.mp hts''
  exact ⟨t, us, u, vs, rfl, ht, hus, hu, hvs⟩

theorem isPunctOf_of_piece (ht : t.piece = q) (ps : List String) :
    t.isPunctOf ps = q.isPunctOf ps := by
  rw [← ht]
  rfl

theorem isPunct_of_piece (ht : t.piece = q) (p : String) : t.isPunct p = q.isPunct p := by
  rw [← ht]
  rfl

/-- A type goes on with a piece in its line that is no stop. -/
theorem endsType_eq_false (ht : t.piece = q) (hline : q.newlineBefore = false)
    (h : q.text ∉ stops ∨ (previous.isNone = true ∧ q = punct "\x7b")) :
    endsType stops previous t = false := by
  have hnewline : t.newlineBefore = false := by
    rw [← hline, ← ht]
    rfl
  rcases h with h | ⟨hfirst, rfl⟩
  · have htext : t.text ∉ stops := by
      rw [← ht] at h
      exact h
    cases previous <;> simp [endsType, Token.isPunctOf, htext, hnewline]
  · have hkind : t.kind = .punct := congrArg Piece.kind ht
    have htext : t.text = "\x7b" := congrArg Piece.text ht
    cases previous with
    | none => simp [endsType, Token.isWord, hkind, htext]
    | some p => cases hfirst

theorem isPunctOf_cons (t : Token) (p : String) (ps : List String) :
    t.isPunctOf (p :: ps) = (t.isPunct p || t.isPunctOf ps) := by
  rw [Token.isPunctOf, Token.isPunct, Token.isPunctOf, List.contains_cons, Bool.and_or_distrib_left]

theorem typeTokens_flat (ht : t.piece = q) (hq : Flat q)
    (hangle : q.isPunctOf ["<", ">", ">>", ">>>"] = false)
    (hgoes : depth = 0 → endsType stops previous t = false) :
    typeTokens stops previous depth (t :: ts) = take t (typeTokens stops (some t) depth ts) := by
  obtain ⟨hopen, hclose⟩ := hq
  rw [← isPunctOf_of_piece ht] at hangle hopen hclose
  simp only [isPunctOf_cons, Bool.or_eq_false_iff] at hangle
  obtain ⟨hless, hone, htwo, hthree, -⟩ := hangle
  have hends : ¬ (depth == 0 && endsType stops previous t) = true := by
    simpa using hgoes
  rw [typeTokens, if_neg hends, isPunctOf_cons, hless, hopen, isPunctOf_cons, hone, hclose, htwo,
    hthree]
  simp

theorem typeTokens_open {o : String} (ht : t.piece = punct o) (ho : o ∈ "<" :: openers)
    (hgoes : depth = 0 → endsType stops previous t = false) :
    typeTokens stops previous depth (t :: ts) =
      take t (typeTokens stops (some t) (depth + 1) ts) := by
  have hends : ¬ (depth == 0 && endsType stops previous t) = true := by
    simpa using hgoes
  have hopen : t.isPunctOf ("<" :: openers) = true := by
    rw [isPunctOf_of_piece ht, Piece.isPunctOf, punct, List.contains_iff_mem.mpr ho]
    rfl
  rw [typeTokens, if_neg hends, if_pos hopen]

/-- A closer of so many brackets that are open. -/
theorem typeTokens_close {c : String} (ht : t.piece = punct c) (hn : 0 < n)
    (hc : (c, n) ∈ closers.map (·, 1) ++ angleBrackets) :
    typeTokens stops previous (depth + n) (t :: ts) =
      take t (typeTokens stops (some t) depth ts) := by
  have hcount : ∀ c n, (c, n) ∈ closers.map (·, 1) ++ angleBrackets →
      (punct c).isPunctOf ("<" :: openers) = false ∧
      (if (punct c).isPunctOf (">" :: closers) then 1 else if (punct c).isPunct ">>" then 2
        else if (punct c).isPunct ">>>" then 3 else 0) = n := by
    intro c n hc
    simp only [closers, angleBrackets, List.map_cons, List.map_nil, List.cons_append,
      List.nil_append, List.mem_cons, Prod.mk.injEq, List.not_mem_nil, or_false] at hc
    rcases hc with ⟨rfl, rfl⟩ | ⟨rfl, rfl⟩ | ⟨rfl, rfl⟩ | ⟨rfl, rfl⟩ | ⟨rfl, rfl⟩ | ⟨rfl, rfl⟩ <;>
      decide
  obtain ⟨hopen, hclosed⟩ := hcount c n hc
  have hends : ¬ (depth + n == 0 && endsType stops previous t) = true := by
    rw [Bool.and_eq_true, beq_iff_eq]
    omega
  rw [typeTokens, if_neg hends]
  simp only [isPunctOf_of_piece ht, isPunct_of_piece ht, hopen, hclosed, Bool.false_eq_true,
    if_false, Nat.add_sub_cancel, if_neg (Nat.not_lt.mpr (Nat.le_add_left n depth))]

/-- A cut that skips so many tokens more. -/
def takeAll (ts : List Token) (s : Split) : Split := (ts ++ s.1, s.2)

theorem getLast?_cons_or {α : Type} (a : α) (as : List α) (b : Option α) :
    (a :: as).getLast?.or b = as.getLast?.or (some a) := by
  cases as with
  | nil => rfl
  | cons a' as => simp [List.getLast?_cons]

/-- Nested pieces are skipped, where no stop stands outside of all brackets. -/
theorem typeTokens_nested (h : Nested P first n qs m) (hts : ts.map Token.piece = qs)
    (hstops : depth = 0 → ∀ first q, P.allows 0 first q →
      q.text ∉ stops ∨ (first = true ∧ q = punct "\x7b"))
    (hfirst : first = previous.isNone) : typeTokens stops previous (depth + n) (ts ++ rest) =
      takeAll ts (typeTokens stops (ts.getLast?.or previous) (depth + m) rest) := by
  have hgoes {P : Permit} {previous : Option Token} {depth n : Nat} {t : Token} {q : Piece}
      (hstops : depth = 0 → ∀ first q, P.allows 0 first q →
        q.text ∉ stops ∨ (first = true ∧ q = punct "\x7b"))
      (ht : t.piece = q) (hline : q.newlineBefore = false) (hallows : P.allows n previous.isNone q)
      (hzero : depth + n = 0) : endsType stops previous t = false := by
    obtain ⟨hdepth, rfl⟩ := Nat.add_eq_zero_iff.mp hzero
    exact endsType_eq_false ht hline (hstops hdepth _ q hallows)
  induction h generalizing depth previous ts rest with
  | nil =>
    rw [List.map_eq_nil_iff.mp hts]
    rfl
  | flat hq hangle _ hline hallows _ ih =>
    obtain ⟨t, ts, rfl, ht, hts⟩ := List.map_eq_cons_iff.mp hts
    subst hfirst
    rw [List.cons_append, typeTokens_flat ht hq hangle (hgoes hstops ht hline hallows),
      ih hts hstops rfl, getLast?_cons_or]
    rfl
  | @bracket P _ n _ o c inner qs ho hc hallows _ _ hinner ih =>
    obtain ⟨t, us, u, ts, rfl, ht, hus, hu, hts⟩ := exists_of_map_bracket hts
    subst hfirst
    have hopen : typeTokens stops previous (depth + n) (t :: (us ++ u :: (ts ++ rest))) = _ :=
      typeTokens_open ht (List.mem_cons_of_mem _ ho) (hgoes hstops ht rfl hallows)
    have hwithin : typeTokens stops (some t) (depth + n + 1) (us ++ u :: (ts ++ rest)) = _ :=
      hinner hus (fun _ _ _ h => absurd h (Nat.lt_irrefl 0)) rfl
    have hclose : typeTokens stops (us.getLast?.or (some t)) (depth + n + 1)
        (u :: (ts ++ rest)) = _ :=
      typeTokens_close hu Nat.one_pos (List.mem_append_left _ (List.mem_map_of_mem hc))
    have hlater : typeTokens stops (some u) (depth + n) (ts ++ rest) = _ := ih hts hstops rfl
    have hlast : (t :: (us ++ u :: ts)).getLast?.or previous = ts.getLast?.or (some u) := by
      rw [← getLast?_cons_or u ts, List.cons_append.symm, List.getLast?_append]
      cases hu : (u :: ts).getLast? with
      | none => simp at hu
      | some v => rfl
    rw [List.cons_append, List.append_assoc, List.cons_append, hopen, hwithin, hclose, hlater,
      hlast]
    simp [takeAll, take]
  | less hallows _ ih =>
    obtain ⟨t, ts, rfl, ht, hts⟩ := List.map_eq_cons_iff.mp hts
    subst hfirst
    rw [List.cons_append, typeTokens_open ht List.mem_cons_self (hgoes hstops ht rfl hallows),
      Nat.add_assoc, ih hts hstops rfl, getLast?_cons_or]
    rfl
  | @greater _ _ n _ k p _ hp _ ih =>
    obtain ⟨t, ts, rfl, ht, hts⟩ := List.map_eq_cons_iff.mp hts
    have hk : ∀ x ∈ angleBrackets, 0 < x.2 := by decide
    rw [List.cons_append, ← Nat.add_assoc,
      typeTokens_close ht (hk _ hp) (List.mem_append_right _ hp), ih hts hstops rfl,
      getLast?_cons_or]
    rfl

theorem typeThenArrow_flat (ht : t.piece = q) (hq : Flat q)
    (hangle : q.isPunctOf ["<", ">"] = false)
    (hgoes : depth = 0 → q.isPunctOf ["=>", ";", ",", "="] = false) :
    typeThenArrow depth (t :: ts) = typeThenArrow depth ts := by
  obtain ⟨hopen, hclose⟩ := hq
  rw [← isPunctOf_of_piece ht] at hangle hopen hclose
  simp only [isPunctOf_cons, Bool.or_eq_false_iff] at hangle
  obtain ⟨hless, hgreater, -⟩ := hangle
  have harrow : (depth == 0 && t.isPunct "=>") = false ∧
      (depth == 0 && t.isPunctOf [";", ",", "="]) = false := by
    cases hzero : depth == 0 with
    | false => exact ⟨rfl, rfl⟩
    | true =>
      have hnone := hgoes (eq_of_beq hzero)
      rwa [← isPunctOf_of_piece ht, isPunctOf_cons, Bool.or_eq_false_iff] at hnone
  rw [typeThenArrow, harrow.1, isPunctOf_cons, hless, hopen, isPunctOf_cons, hgreater, hclose,
    harrow.2]
  rfl

theorem typeThenArrow_open {o : String} (ht : t.piece = punct o) (ho : o ∈ "<" :: openers) :
    typeThenArrow depth (t :: ts) = typeThenArrow (depth + 1) ts := by
  have hopens : ∀ o ∈ "<" :: openers, (punct o).isPunct "=>" = false ∧
      (punct o).isPunctOf ("<" :: openers) = true := by decide
  obtain ⟨harrow, hopen⟩ := hopens o ho
  rw [typeThenArrow, isPunct_of_piece ht, isPunctOf_of_piece ht, harrow, hopen, Bool.and_false]
  rfl

theorem typeThenArrow_close {c : String} (ht : t.piece = punct c) (hc : c ∈ ">" :: closers) :
    typeThenArrow (depth + 1) (t :: ts) = typeThenArrow depth ts := by
  have hcount : ∀ c ∈ ">" :: closers, (punct c).isPunctOf ("<" :: openers) = false ∧
      (punct c).isPunctOf (">" :: closers) = true := by decide
  obtain ⟨hopen, hclose⟩ := hcount c hc
  rw [typeThenArrow, isPunctOf_of_piece ht, isPunctOf_of_piece ht, hopen, hclose]
  simp

theorem typeThenArrow_arrow (ht : t.piece = punct "=>") : typeThenArrow 0 (t :: ts) = true := by
  rw [typeThenArrow, isPunct_of_piece ht]
  rfl

theorem typeThenArrow_stop {p : String} (ht : t.piece = punct p) (hp : p ∈ [";", ",", "="]) :
    typeThenArrow 0 (t :: ts) = false := by
  have hstops : ∀ p ∈ [";", ",", "="], (punct p).isPunct "=>" = false ∧
      (punct p).isPunctOf ("<" :: openers) = false ∧ (punct p).isPunctOf (">" :: closers) = false ∧
        (punct p).isPunctOf [";", ",", "="] = true := by decide
  obtain ⟨harrow, hopen, hclose, hstop⟩ := hstops p hp
  simp only [typeThenArrow, isPunct_of_piece ht, isPunctOf_of_piece ht, harrow, hopen, hclose,
    hstop]
  rfl

/-- The search for an arrow behind a return type passes over nested pieces, where no closing angle
brackets touch. -/
theorem typeThenArrow_nested (h : Nested P first n qs m) (hts : ts.map Token.piece = qs)
    (hstops : depth = 0 → ∀ first q, P.allows 0 first q → q.text ∉ ["=>", ";", ",", "="])
    (hapart : ∀ q ∈ qs, q.text ∉ [">>", ">>>"]) :
    typeThenArrow (depth + n) (ts ++ rest) = typeThenArrow (depth + m) rest := by
  induction h generalizing depth ts rest with
  | nil =>
    rw [List.map_eq_nil_iff.mp hts]
    rfl
  | @flat P first n _ q _ hq hangle _ hline hallows _ ih =>
    obtain ⟨t, ts, rfl, ht, hts⟩ := List.map_eq_cons_iff.mp hts
    have hgoes (hzero : depth + n = 0) : q.isPunctOf ["=>", ";", ",", "="] = false := by
      obtain ⟨hdepth, rfl⟩ := Nat.add_eq_zero_iff.mp hzero
      simp [Piece.isPunctOf, hstops hdepth first q hallows]
    rw [List.cons_append,
      typeThenArrow_flat ht hq (isPunctOf_of_subset hangle (by decide)) hgoes]
    exact ih hts hstops fun r hr => hapart r (List.mem_cons_of_mem _ hr)
  | @bracket P _ n _ o c inner qs ho hc hallows _ _ hinner ih =>
    obtain ⟨t, us, u, ts, rfl, ht, hus, hu, hts⟩ := exists_of_map_bracket hts
    have hwithin : typeThenArrow (depth + n + 1) (us ++ u :: (ts ++ rest)) = _ :=
      hinner hus (fun _ _ _ h => absurd h (Nat.lt_irrefl 0)) fun r hr =>
        hapart r (List.mem_cons_of_mem _ (List.mem_append_left _ hr))
    have hlater : typeThenArrow (depth + n) (ts ++ rest) = _ := ih hts hstops fun r hr =>
      hapart r (List.mem_cons_of_mem _ (List.mem_append_right _ (List.mem_cons_of_mem _ hr)))
    rw [List.cons_append, List.append_assoc, List.cons_append,
      typeThenArrow_open ht (List.mem_cons_of_mem _ ho), hwithin,
      typeThenArrow_close hu (List.mem_cons_of_mem _ hc), hlater]
  | less hallows _ ih =>
    obtain ⟨t, ts, rfl, ht, hts⟩ := List.map_eq_cons_iff.mp hts
    rw [List.cons_append, typeThenArrow_open ht List.mem_cons_self, Nat.add_assoc]
    exact ih hts hstops fun r hr => hapart r (List.mem_cons_of_mem _ hr)
  | @greater _ _ n _ k p _ hp _ ih =>
    obtain ⟨t, ts, rfl, ht, hlater⟩ := List.map_eq_cons_iff.mp hts
    have hone : p = ">" ∧ k = 1 := by
      have hnot := hapart (punct p) List.mem_cons_self
      simp only [angleBrackets, List.mem_cons, Prod.mk.injEq, List.not_mem_nil, or_false] at hp
      rcases hp with hp | ⟨rfl, -⟩ | ⟨rfl, -⟩
      · exact hp
      · exact absurd (by decide) hnot
      · exact absurd (by decide) hnot
    obtain ⟨rfl, rfl⟩ := hone
    rw [List.cons_append, ← Nat.add_assoc, typeThenArrow_close ht List.mem_cons_self]
    exact ih hlater hstops fun r hr => hapart r (List.mem_cons_of_mem _ hr)

theorem isPunctOf_brackets : ∀ o ∈ openers, ∀ c ∈ closers, (punct o).isPunctOf openers = true ∧
    (punct c).isPunctOf openers = false ∧ (punct c).isPunctOf closers = true := by decide

/-- In brackets a list in angle brackets passes over what is closed again. -/
theorem angles_inside {inner : Nat} (h : Nested P first n qs m) (hts : ts.map Token.piece = qs) :
    angles (inner + 1) depth (ts ++ rest) = takeAll ts (angles (inner + 1) depth rest) := by
  have hflat {t : Token} {ts : List Token} {inner : Nat} (hopen : t.isPunctOf openers = false)
      (hclose : t.isPunctOf closers = false) :
      angles (inner + 1) depth (t :: ts) = take t (angles (inner + 1) depth ts) := by
    rw [angles, hopen, hclose]
    rfl
  induction h generalizing inner ts rest with
  | nil =>
    rw [List.map_eq_nil_iff.mp hts]
    rfl
  | flat hq _ _ _ _ _ ih =>
    obtain ⟨t, ts, rfl, ht, hts⟩ := List.map_eq_cons_iff.mp hts
    obtain ⟨hopen, hclose⟩ := hq
    rw [← isPunctOf_of_piece ht] at hopen hclose
    rw [List.cons_append, hflat hopen hclose, ih hts]
    rfl
  | @bracket _ _ _ _ o c _ _ ho hc _ _ _ hinner ih =>
    obtain ⟨t, us, u, ts, rfl, ht, hus, hu, hts⟩ := exists_of_map_bracket hts
    obtain ⟨hopen, hnot, hclose⟩ := isPunctOf_brackets o ho c hc
    rw [← isPunctOf_of_piece ht] at hopen
    rw [← isPunctOf_of_piece hu] at hnot hclose
    rw [List.cons_append, List.append_assoc, List.cons_append, angles, if_pos hopen, hinner hus,
      angles, hnot, if_neg Bool.false_ne_true, if_pos hclose, ih hts]
    simp [takeAll, take]
  | less _ _ ih =>
    obtain ⟨t, ts, rfl, ht, hts⟩ := List.map_eq_cons_iff.mp hts
    obtain ⟨hopen, hclose⟩ := flat_angle _ List.mem_cons_self
    rw [← isPunctOf_of_piece ht] at hopen hclose
    rw [List.cons_append, hflat hopen hclose, ih hts]
    rfl
  | greater hp _ ih =>
    obtain ⟨t, ts, rfl, ht, hts⟩ := List.map_eq_cons_iff.mp hts
    obtain ⟨hopen, hclose⟩ := flat_angle _ (List.mem_cons_of_mem _ (List.mem_map_of_mem hp))
    rw [← isPunctOf_of_piece ht] at hopen hclose
    rw [List.cons_append, hflat hopen hclose, ih hts]
    rfl

/-- Behind the last angle bracket nothing is nested. -/
theorem Nested.eq_nil (h : Nested .arguments first n qs m) (hn : n = 0) : qs = [] := by
  have hpos : ∀ x ∈ angleBrackets, 0 < x.2 := by decide
  cases h with
  | nil => rfl
  | flat _ _ _ _ hallows _ => exact absurd hallows.1 (Nat.not_lt.mpr (Nat.le_of_eq hn))
  | bracket _ _ hallows _ _ => exact absurd hallows.1 (Nat.not_lt.mpr (Nat.le_of_eq hn))
  | less hallows _ => exact absurd hallows.1 (Nat.not_lt.mpr (Nat.le_of_eq hn))
  | greater hp _ =>
    have hk := hpos _ hp
    dsimp only at hk
    omega

/-- Outside of brackets the text of a piece tells what it is. -/
theorem angles_of_lettered (h : Lettered t.piece) : angles 0 depth (t :: ts) =
    if t.isPunctOf openers then take t (angles 1 depth ts)
    else if t.isPunctOf (";" :: closers) then ([], t :: ts)
    else if t.isPunct "<" then take t (angles 0 (depth + 1) ts)
    else
      let closed := if t.isPunct ">" then 1 else if t.isPunct ">>" then 2
        else if t.isPunct ">>>" then 3 else 0
      if depth ≤ closed then ([t], ts) else take t (angles 0 (depth - closed) ts) := by
  have hof {ps : List String} (hps : ps ⊆ angleTexts) : ps.contains t.text = t.isPunctOf ps := by
    rcases h with hpunct | htext
    · rw [Token.isPunctOf, show t.kind = .punct from hpunct]
      rfl
    · have hnot : ps.contains t.text = false := by
        rw [List.contains_eq_mem, decide_eq_false_iff_not]
        exact fun hmem => htext (hps hmem)
      rw [Token.isPunctOf, hnot, Bool.and_false]
  have hone {p : String} (hp : p ∈ angleTexts) : (t.text == p) = t.isPunct p := by
    have hsingle := hof (List.cons_subset.mpr ⟨hp, List.nil_subset _⟩)
    rwa [isPunctOf_cons, show t.isPunctOf [] = false from Bool.and_false _, Bool.or_false,
      List.contains_cons, List.contains_nil, Bool.or_false] at hsingle
  rw [angles]
  simp only [hof (show openers ⊆ angleTexts by decide),
    hof (show ";" :: closers ⊆ angleTexts by decide), hone (show "<" ∈ angleTexts by decide),
    hone (show ">" ∈ angleTexts by decide), hone (show ">>" ∈ angleTexts by decide),
    hone (show ">>>" ∈ angleTexts by decide)]

/-- A list in angle brackets ends where the last of them is closed. -/
theorem angles_nested (h : Nested .arguments first n qs m) (hm : m = 0) (hn : 0 < n)
    (hts : ts.map Token.piece = qs) : angles 0 n (ts ++ rest) = (ts, rest) := by
  generalize hP : Permit.arguments = P at h
  induction h generalizing ts rest with
  | nil => omega
  | flat hq hangle hletters _ hallows _ ih =>
    subst hP
    obtain ⟨t, ts, rfl, ht, hts⟩ := List.map_eq_cons_iff.mp hts
    obtain ⟨hopen, hclose⟩ := hq
    have hsemicolon : t.isPunct ";" = false := by
      rw [isPunct_of_piece ht, Piece.isPunct, beq_false_of_ne hallows.2, Bool.and_false]
    rw [← isPunctOf_of_piece ht] at hangle hopen hclose
    simp only [isPunctOf_cons, Bool.or_eq_false_iff] at hangle
    obtain ⟨hless, hone, htwo, hthree, -⟩ := hangle
    rw [List.cons_append, angles_of_lettered (ht ▸ hletters), hopen, isPunctOf_cons, hsemicolon,
      hclose, hless, hone, htwo, hthree]
    simp [ih hm hn hts rfl, take, Nat.ne_of_gt hn]
  | @bracket _ _ _ _ o c _ _ ho hc _ hinner _ _ ih =>
    subst hP
    obtain ⟨t, us, u, ts, rfl, ht, hus, hu, hts⟩ := exists_of_map_bracket hts
    obtain ⟨hopen, hnot, hclose⟩ := isPunctOf_brackets o ho c hc
    rw [← isPunctOf_of_piece ht] at hopen
    rw [← isPunctOf_of_piece hu] at hnot hclose
    rw [List.cons_append, List.append_assoc, List.cons_append, angles_of_lettered (ht ▸ .inl rfl),
      if_pos hopen, angles_inside hinner hus, angles, hnot, if_neg Bool.false_ne_true, if_pos hclose,
      ih hm hn hts rfl]
    simp [takeAll, take]
  | less _ _ ih =>
    subst hP
    obtain ⟨t, ts, rfl, ht, hts⟩ := List.map_eq_cons_iff.mp hts
    rw [List.cons_append, angles_of_lettered (ht ▸ .inl rfl), isPunctOf_of_piece ht,
      isPunctOf_of_piece ht, isPunct_of_piece ht, if_neg (by decide), if_neg (by decide),
      if_pos (by decide), ih hm (by omega) hts rfl]
    rfl
  | @greater _ _ n _ k p _ hp hlater ih =>
    subst hP
    obtain ⟨t, ts, rfl, ht, hts⟩ := List.map_eq_cons_iff.mp hts
    have hcount : ∀ p k, (p, k) ∈ angleBrackets → (punct p).isPunctOf openers = false ∧
        (punct p).isPunctOf (";" :: closers) = false ∧ (punct p).isPunct "<" = false ∧
        (if (punct p).isPunct ">" then 1 else if (punct p).isPunct ">>" then 2
          else if (punct p).isPunct ">>>" then 3 else 0) = k := by
      intro p k hp
      simp only [angleBrackets, List.mem_cons, Prod.mk.injEq, List.not_mem_nil, or_false] at hp
      rcases hp with ⟨rfl, rfl⟩ | ⟨rfl, rfl⟩ | ⟨rfl, rfl⟩ <;> decide
    obtain ⟨hopen, hclose, hless, hk⟩ := hcount p k hp
    rw [List.cons_append, angles_of_lettered (ht ▸ .inl rfl)]
    simp only [isPunctOf_of_piece ht, isPunct_of_piece ht, hopen, hclose, hless, hk,
      Bool.false_eq_true, if_false, Nat.add_sub_cancel]
    by_cases hzero : n = 0
    · subst hzero hm
      rw [hlater.eq_nil rfl, List.map_eq_nil_iff] at hts
      rw [if_pos (by omega), hts]
      rfl
    · rw [if_neg (by omega), ih hm (Nat.pos_of_ne_zero hzero) hts rfl]
      rfl

end

end Grammar

namespace Types

open Grammar Piece

def Path.outer : Path → List Piece
  | .word x => [Piece.word x.text]
  | .member d x => d.outer ++ [punct ".", Piece.word x.text]

/-- The pieces of a type outside of all brackets, with the brackets that open there. -/
def Ty.outer : Ty → List Piece
  | .name d => d.outer
  | .generic d _ => d.outer ++ [punct "<"]
  | .array t => t.outer ++ [punct "["]
  | .union a b => a.outer ++ punct "|" :: b.outer
  | .function _ result => punct "(" :: punct "=>" :: result.outer
  | .object _ => [punct "\x7b"]
  | .paren _ => [punct "("]

theorem Path.outer_ne_nil (d : Path) : d.outer ≠ [] := by
  cases d <;> simp [Path.outer]

theorem Ty.outer_ne_nil (t : Ty) : t.outer ≠ [] := by
  cases t <;> simp [Ty.outer, Path.outer_ne_nil]

end Types

namespace Grammar

open Piece

variable {P : Permit} {first : Bool} {n m k : Nat} {q : Piece} {qs rs : List Piece}

/-- The pieces may be read outside of all brackets. -/
structure Permit.Passes (P : Permit) (first : Bool) (qs : List Piece) : Prop where
  head : ∀ q ∈ qs.head?, P.allows 0 first q
  tail : ∀ q ∈ qs.tail, P.allows 0 false q

theorem Permit.Passes.of_forall (h : ∀ q ∈ qs, P.allows 0 false q) : P.Passes false qs :=
  ⟨fun q hq => h q (List.mem_of_head? hq), fun q hq => h q (List.mem_of_mem_tail hq)⟩

theorem Permit.Passes.split (h : P.Passes first (qs ++ rs)) (hne : qs ≠ []) :
    P.Passes first qs ∧ ∀ q ∈ rs, P.allows 0 false q := by
  obtain ⟨hhead, htail⟩ := h
  cases qs with
  | nil => exact absurd rfl hne
  | cons q qs =>
    exact ⟨⟨hhead, fun r hr => htail r (List.mem_append_left _ hr)⟩,
      fun r hr => htail r (List.mem_append_right _ hr)⟩

theorem Permit.allows_of_zero (hq : q.text ≠ ";") (h : n = 0 → P.allows 0 first q) :
    P.allows n first q := by
  cases n with
  | zero => exact h rfl
  | succ n => exact P.within hq

theorem Nested.word {w : String} (hw : w ∉ angleTexts) (hallows : P.allows n first (word w))
    (h : Nested P false n qs m) : Nested P first n (Piece.word w :: qs) m :=
  .flat ⟨rfl, rfl⟩ rfl (.inr hw) rfl hallows h

theorem Nested.mark {p : String} (hp : p ∈ ["|", "=>", ",", ";", ":", "."])
    (hallows : P.allows n first (punct p)) (h : Nested P false n qs m) :
    Nested P first n (punct p :: qs) m := by
  have hflat : ∀ p ∈ ["|", "=>", ",", ";", ":", "."], ((punct p).isPunctOf openers = false ∧
      (punct p).isPunctOf closers = false) ∧
      (punct p).isPunctOf ["<", ">", ">>", ">>>"] = false := by decide
  exact .flat (hflat p hp).1 (hflat p hp).2 (.inl rfl) rfl hallows h

end Grammar

namespace Types

open Grammar Piece

variable {P : Permit} {first : Bool} {gap lead n m k : Nat}

theorem nested_closing (m n : Nat) : Nested P first (m + n) ((closing n).map Ink.piece) m := by
  fun_induction closing n generalizing first with
  | case1 => exact .nil _ _ _
  | case2 => exact .greater (by decide) (.nil _ _ _)
  | case3 => exact .greater (by decide) (.nil _ _ _)
  | case4 n ih => exact .greater (k := 3) (by decide) ih

theorem Ident.text_not_mem (x : Ident) : x.text ∉ angleTexts := by
  have hmarks : ∀ p ∈ angleTexts, startsWord p = false := by decide
  exact fun hmem => x.text_ne (hmarks _ hmem) rfl

theorem Path.nested {qs : List Piece} (d : Path) (h : n = 0 → P.Passes first d.outer)
    (hlater : Nested P false n qs m) :
    Nested P first n ((d.inks lead).map Ink.piece ++ qs) m := by
  have hword (x : Ident) : (Piece.word x.text).text ≠ ";" := by
    intro heq
    have hchars : x.chars = [';'] := by
      rw [← Ident.text_toList]
      exact congrArg String.toList heq
    have hstarts := x.starts
    rw [(List.cons.inj hchars).1] at hstarts
    exact absurd hstarts (by decide)
  induction d generalizing qs with
  | word x =>
    exact .word x.text_not_mem (P.allows_of_zero (hword x) fun hn => (h hn).head _ rfl) hlater
  | member d x ih =>
    have hsplit (hn : n = 0) := (h hn).split d.outer_ne_nil
    rw [Path.inks, List.map_append, List.append_assoc]
    refine ih (fun hn => (hsplit hn).1) (.mark (by decide) ?_ (.word x.text_not_mem ?_ hlater))
    · exact P.allows_of_zero (by decide) fun hn => (hsplit hn).2 _ (by simp)
    · exact P.allows_of_zero (hword x) fun hn => (hsplit hn).2 _ (by simp)

theorem Ty.nested_of_front (t : Ty) {lead : Nat} (h : Nested P first (m + n)
      ((t.front gap lead).map Ink.piece) (m + n + t.tail)) :
    Nested P first (m + n) ((t.inks gap lead n).map Ink.piece) m := by
  rw [t.inks_eq_front, List.map_append]
  rw [Nat.add_assoc, Nat.add_comm n] at h
  exact h.append (nested_closing m (t.tail + n))

mutual
/-- The pieces of a type are nested, and at its end as many angle brackets are open as it still has
to close. -/
theorem Ty.nested_front : ∀ (t : Ty) (lead n : Nat) (P : Permit) (first : Bool),
    (n = 0 → P.Passes first t.outer) →
      Nested P first n ((t.front gap lead).map Ink.piece) (n + t.tail)
  | .name d, lead, n, P, first, h => by
    rw [Ty.front, ← List.append_nil ((d.inks lead).map Ink.piece)]
    exact d.nested h (.nil _ _ _)
  | .generic d args, lead, n, P, first, h => by
    have hsplit (hn : n = 0) := (h hn).split d.outer_ne_nil
    rw [Ty.front, List.map_append]
    refine d.nested (fun hn => (hsplit hn).1) (.less ?_ ?_)
    · exact P.allows_of_zero (by decide) fun hn => (hsplit hn).2 _ (by simp)
    · rw [Ty.tail, Nat.add_comm args.tail, ← Nat.add_assoc]
      exact args.nested_front 0 (n + 1) P (Nat.succ_pos n)
  | .array t, lead, n, P, first, h => by
    have hsplit (hn : n = 0) := (h hn).split t.outer_ne_nil
    have hitem := t.nested_front lead n P first fun hn => (hsplit hn).1
    rw [Ty.front, List.map_append]
    refine (t.nested_of_front (m := n) (n := 0) hitem).append ?_
    refine @Nested.bracket _ _ _ _ _ _ [] _ (by decide) (by decide) ?_ (.nil _ _ _) (.nil _ _ _)
    exact P.allows_of_zero (by decide) fun hn => (hsplit hn).2 _ (by simp)
  | .union a b, lead, n, P, first, h => by
    have hsplit (hn : n = 0) := (h hn).split a.outer_ne_nil
    have hleft := a.nested_front lead n P first fun hn => (hsplit hn).1
    rw [Ty.front, List.map_append]
    refine (a.nested_of_front (m := n) (n := 0) hleft).append (.mark (by decide) ?_ ?_)
    · exact P.allows_of_zero (by decide) fun hn => (hsplit hn).2 _ (by simp)
    · exact b.nested_front gap n P false fun hn =>
        .of_forall fun q hq => (hsplit hn).2 q (List.mem_cons_of_mem _ hq)
  | .function params result, lead, n, P, first, h => by
    rw [Ty.front, List.map_cons, List.map_append]
    refine .bracket (by decide) (by decide) ?_ (params.nested "," (by decide) 0)
      (.mark (by decide) ?_ ?_)
    · exact P.allows_of_zero (by decide) fun hn => (h hn).head _ rfl
    · exact P.allows_of_zero (by decide) fun hn => (h hn).tail _ (by simp [Ty.outer])
    · exact result.nested_front gap n P false fun hn =>
        .of_forall fun q hq => (h hn).tail q (List.mem_cons_of_mem _ hq)
  | .object fields, lead, n, P, first, h => by
    rw [Ty.front, List.map_cons, List.map_append]
    refine .bracket (by decide) (by decide) ?_ (fields.nested ";" (by decide) gap) (.nil _ _ _)
    exact P.allows_of_zero (by decide) fun hn => (h hn).head _ rfl
  | .paren t, lead, n, P, first, h => by
    have hinner := t.nested_front 0 1 .inside false nofun
    rw [Ty.front, List.map_cons, List.map_append]
    refine .bracket (by decide) (by decide) ?_ (t.nested_of_front (m := 1) (n := 0) hinner)
      (.nil _ _ _)
    exact P.allows_of_zero (by decide) fun hn => (h hn).head _ rfl

theorem Args.nested_front : ∀ (args : Args) (lead n : Nat) (P : Permit), 0 < n →
    Nested P false n ((args.front gap lead).map Ink.piece) (n + args.tail)
  | .last t, lead, n, P, hn => t.nested_front lead n P false (by omega)
  | .more t args, lead, n, P, hn => by
    have hitem := t.nested_front lead n P false (by omega)
    rw [Args.front, List.map_append]
    refine (t.nested_of_front (m := n) (n := 0) hitem).append (.mark (by decide) ?_ ?_)
    · exact P.allows_of_zero (by decide) (by omega)
    · exact args.nested_front gap n P hn

theorem Fields.nested (separator : String) (hseparator : separator ∈ [",", ";"]) :
    ∀ (fields : Fields) (lead : Nat),
      Nested .inside false 1 ((fields.inks gap separator lead).map Ink.piece) 1
  | .none, lead => .nil _ _ _
  | .last x t, lead => by
    have htype := t.nested_front gap 1 .inside false nofun
    exact .word x.text_not_mem Nat.one_pos (.mark (by decide) Nat.one_pos
      (t.nested_of_front (m := 1) (n := 0) htype))
  | .more x t fields, lead => by
    have hmark : ∀ p ∈ [",", ";"], p ∈ ["|", "=>", ",", ";", ":", "."] := by decide
    have htype := t.nested_front gap 1 .inside false nofun
    rw [Fields.inks, List.map_cons, List.map_cons, List.map_append]
    refine .word x.text_not_mem Nat.one_pos (.mark (by decide) Nat.one_pos ?_)
    refine (t.nested_of_front (m := 1) (n := 0) htype).append ?_
    exact .mark (hmark _ hseparator) Nat.one_pos (fields.nested separator hseparator gap)
end

/-- With the closing angle brackets at the end of a type so many more are closed. -/
theorem Ty.nested (t : Ty) (lead n m : Nat) (P : Permit) (first : Bool)
    (h : m + n = 0 → P.Passes first t.outer) :
    Nested P first (m + n) ((t.inks gap lead n).map Ink.piece) m :=
  t.nested_of_front (t.nested_front lead (m + n) P first h)

end Types

end Subscriptions
