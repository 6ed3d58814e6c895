import Mathlib.Tactic.SplitIfs
import Subscriptions.Grammar.Program
import Subscriptions.Proofs.Syntax.Spelling

namespace Subscriptions

namespace Token

/-- The token without its place and without the trivia before it. -/
def plain (t : Token) : Token := { t with lead := "", span := ⟨0, 0⟩ }

@[simp] theorem plain_kind (t : Token) : t.plain.kind = t.kind := rfl

@[simp] theorem plain_text (t : Token) : t.plain.text = t.text := rfl

@[simp] theorem plain_newlineBefore (t : Token) : t.plain.newlineBefore = t.newlineBefore := rfl

@[simp] theorem isPunct_plain (t : Token) (p : String) : t.plain.isPunct p = t.isPunct p := by
  cases t
  rfl

@[simp] theorem isPunctOf_plain (t : Token) (ps : List String) :
    t.plain.isPunctOf ps = t.isPunctOf ps := by
  cases t
  rfl

@[simp] theorem isTheWord_plain (t : Token) (w : String) :
    t.plain.isTheWord w = t.isTheWord w := rfl

@[simp] theorem isWord_plain (t : Token) : t.plain.isWord = t.isWord := rfl

theorem plain_eq_of_piece {t u : Token} (h : t.piece = u.piece) : t.plain = u.plain := by
  obtain ⟨kind, _, text, _, newline⟩ := t
  cases h
  rfl

end Token

namespace Grammar

open Token

section
variable (ts : List Token)

theorem balanced_append (depth : Nat) : (balanced depth ts).1 ++ (balanced depth ts).2 = ts := by
  fun_induction balanced depth ts <;> simp_all [take]

theorem enclosed_append (depth : Nat) : (enclosed depth ts).1 ++ (enclosed depth ts).2 = ts := by
  fun_induction enclosed depth ts <;> simp_all [take]

theorem angles_append (inner depth : Nat) :
    (angles inner depth ts).1 ++ (angles inner depth ts).2 = ts := by
  fun_induction angles inner depth ts <;> simp_all [take]

theorem typeTokens_append (stops : List String) (previous : Option Token) (depth : Nat) :
    (typeTokens stops previous depth ts).1 ++ (typeTokens stops previous depth ts).2 = ts := by
  fun_induction typeTokens stops previous depth ts <;> simp_all [take]

theorem clauseTokens_append (inner : Nat) (first : Bool) (previous : Token) :
    (clauseTokens inner first previous ts).1 ++ (clauseTokens inner first previous ts).2 = ts := by
  fun_induction clauseTokens inner first previous ts <;> simp_all [take]

theorem namespaceName_append : (namespaceName ts).1 ++ (namespaceName ts).2 = ts := by
  fun_induction namespaceName ts <;> simp_all [take]

theorem balanced_plain (depth : Nat) : balanced depth (ts.map plain) =
    ((balanced depth ts).1.map plain, (balanced depth ts).2.map plain) := by
  induction ts generalizing depth with
  | nil => rfl
  | cons t ts ih =>
    simp only [List.map_cons, balanced, isPunctOf_plain, ih]
    split_ifs <;> rfl

theorem enclosed_plain (depth : Nat) : enclosed depth (ts.map plain) =
    ((enclosed depth ts).1.map plain, (enclosed depth ts).2.map plain) := by
  induction ts generalizing depth with
  | nil => rfl
  | cons t ts ih =>
    simp only [List.map_cons, enclosed, isPunctOf_plain, plain_kind, ih]
    split_ifs <;> rfl

theorem angles_plain (inner depth : Nat) : angles inner depth (ts.map plain) =
    ((angles inner depth ts).1.map plain, (angles inner depth ts).2.map plain) := by
  induction ts generalizing inner depth with
  | nil => simp [angles]
  | cons t ts ih =>
    simp only [List.map_cons]
    cases inner <;> simp only [angles, isPunctOf_plain, ih]
    · rw [plain_text]
      generalize (if (t.text == ">") = true then 1 else if (t.text == ">>") = true then 2
        else if (t.text == ">>>") = true then 3 else 0) = closed
      split_ifs <;> rfl
    · split_ifs <;> rfl

theorem endsType_plain (stops : List String) (previous : Option Token) (t : Token) :
    endsType stops (previous.map plain) t.plain = endsType stops previous t := by
  cases previous <;> rfl

theorem typeTokens_plain (stops : List String) (previous : Option Token) (depth : Nat) :
    typeTokens stops (previous.map plain) depth (ts.map plain) =
      ((typeTokens stops previous depth ts).1.map plain,
        (typeTokens stops previous depth ts).2.map plain) := by
  induction ts generalizing previous depth with
  | nil => rfl
  | cons t ts ih =>
    have ih' := ih (some t)
    simp only [Option.map_some] at ih'
    simp only [List.map_cons, typeTokens, endsType_plain, isPunctOf_plain, isPunct_plain, ih']
    generalize (if t.isPunctOf (">" :: closers) = true then 1 else if t.isPunct ">>" = true then 2
      else if t.isPunct ">>>" = true then 3 else 0) = closed
    split_ifs <;> rfl

/-- Of the token before a clause only the text counts. -/
theorem clauseTokens_previous (inner : Nat) (first : Bool) {p q : Token} (h : p.text = q.text) :
    clauseTokens inner first p ts = clauseTokens inner first q ts := by
  cases ts <;> cases inner <;> simp [clauseTokens, h]

theorem clauseTokens_plain (inner : Nat) (first : Bool) (previous : Token) :
    clauseTokens inner first previous (ts.map plain) =
      ((clauseTokens inner first previous ts).1.map plain,
        (clauseTokens inner first previous ts).2.map plain) := by
  induction ts generalizing inner first previous with
  | nil => simp [clauseTokens]
  | cons t ts ih =>
    have hplain (inner : Nat) := clauseTokens_previous (ts.map plain) inner false (plain_text t)
    cases inner with
    | zero =>
      simp only [List.map_cons, clauseTokens, isPunct_plain, plain_newlineBefore, plain_kind,
        isTheWord_plain, hplain, ih]
      cases ts <;> simp only [List.map_cons, List.map_nil, isPunct_plain] <;> split_ifs <;> rfl
    | succ inner =>
      simp only [List.map_cons, clauseTokens, isPunctOf_plain, hplain, ih]
      split_ifs <;> rfl

theorem namespaceName_plain : namespaceName (ts.map plain) =
    ((namespaceName ts).1.map plain, (namespaceName ts).2.map plain) := by
  induction ts with
  | nil => rfl
  | cons t ts ih =>
    simp only [List.map_cons, namespaceName, isPunctOf_plain, ih]
    split_ifs <;> rfl

@[simp] theorem typeThenArrow_plain (depth : Nat) :
    typeThenArrow depth (ts.map plain) = typeThenArrow depth ts := by
  induction ts generalizing depth with
  | nil => rfl
  | cons t ts ih => simp only [List.map_cons, typeThenArrow, isPunctOf_plain, isPunct_plain, ih]

@[simp] theorem opensArrow_plain : opensArrow (ts.map plain) = opensArrow ts := by
  rw [opensArrow, opensArrow, balanced_plain]
  cases (balanced 0 ts).2 <;> simp

@[simp] theorem typeArgumentsThenCall_plain (fuel depth : Nat) :
    typeArgumentsThenCall fuel depth (ts.map plain) = typeArgumentsThenCall fuel depth ts := by
  induction fuel generalizing depth ts with
  | zero => rfl
  | succ fuel ih =>
    cases ts with
    | nil => rfl
    | cons t ts =>
      simp only [List.map_cons, typeArgumentsThenCall, isPunctOf_plain, isPunct_plain, plain_kind,
        ih]
      cases ts <;> rfl

@[simp] theorem startsMemberName_plain (t : Token) :
    startsMemberName t.plain = startsMemberName t := rfl

@[simp] theorem fieldModifierCount_plain :
    fieldModifierCount (ts.map plain) = fieldModifierCount ts := by
  induction ts with
  | nil => rfl
  | cons t ts ih =>
    cases ts with
    | nil => rfl
    | cons u ts =>
      simp only [List.map_cons, fieldModifierCount, isWord_plain, plain_text,
        isPunctOf_plain] at ih ⊢
      rw [ih]

@[simp] theorem memberModifierCount_plain :
    memberModifierCount (ts.map plain) = memberModifierCount ts := by
  induction ts with
  | nil => rfl
  | cons t ts ih =>
    cases ts with
    | nil => rfl
    | cons u ts =>
      simp only [List.map_cons, memberModifierCount, isWord_plain, plain_text,
        startsMemberName_plain, plain_newlineBefore] at ih ⊢
      rw [ih]
      rfl

end

/-- A cut that loses no token and does not look at places or trivia. -/
structure Cuts (cut : List Token → Split) : Prop where
  append : ∀ ts, (cut ts).1 ++ (cut ts).2 = ts
  plain : ∀ ts, cut (ts.map Token.plain) = ((cut ts).1.map Token.plain, (cut ts).2.map Token.plain)

theorem Cuts.balanced (depth : Nat) : Cuts (balanced depth) where
  append ts := balanced_append ts depth
  plain ts := balanced_plain ts depth

theorem Cuts.enclosed (depth : Nat) : Cuts (enclosed depth) where
  append ts := enclosed_append ts depth
  plain ts := enclosed_plain ts depth

theorem Cuts.angles (inner depth : Nat) : Cuts (angles inner depth) where
  append ts := angles_append ts inner depth
  plain ts := angles_plain ts inner depth

theorem Cuts.typeTokens (stops : List String) (depth : Nat) :
    Cuts (typeTokens stops none depth) where
  append ts := typeTokens_append ts stops none depth
  plain ts := typeTokens_plain ts stops none depth

theorem Cuts.clauseTokens (inner : Nat) (first : Bool) (previous : Token) :
    Cuts (clauseTokens inner first previous) where
  append ts := clauseTokens_append ts inner first previous
  plain ts := clauseTokens_plain ts inner first previous

theorem Cuts.namespaceName : Cuts namespaceName where
  append := namespaceName_append
  plain := namespaceName_plain

/-- Lists that look alike are cut at the same place. -/
theorem Cuts.splitAt {cut : List Token → Split} (h : Cuts cut) {ts us : List Token}
    (halike : ts.map Token.plain = us.map Token.plain) :
    ∃ k, cut ts = ts.splitAt k ∧ cut us = us.splitAt k := by
  have hsplit (ts : List Token) : cut ts = ts.splitAt (cut ts).1.length := by
    have happend := h.append ts
    rw [List.splitAt_eq]
    refine Prod.ext ?_ ?_
    · exact (happend ▸ List.take_left).symm
    · exact (happend ▸ List.drop_left).symm
  have hlength (ts : List Token) : (cut ts).1.length = (cut (ts.map Token.plain)).1.length := by
    rw [h.plain, List.length_map]
  refine ⟨(cut ts).1.length, hsplit ts, ?_⟩
  rw [hlength ts, halike, ← hlength us]
  exact hsplit us

namespace State

def shape (s : State) : State := ⟨s.rest.map Token.plain, s.last.plain, 0, {}, []⟩

variable (s : State)

@[simp] theorem shape_rest : s.shape.rest = s.rest.map Token.plain := rfl

@[simp] theorem current_shape : s.shape.current = s.current.plain := by
  simp only [current, shape]
  cases s.rest <;> rfl

@[simp] theorem ahead_shape (n : Nat) : s.shape.ahead n = (s.ahead n).plain := by
  simp only [ahead, shape, List.getElem?_map]
  cases s.rest[n]? <;> rfl

@[simp] theorem atEnd_shape : s.shape.atEnd = s.atEnd := by simp [atEnd]

@[simp] theorem isAt_shape (p : String) : s.shape.isAt p = s.isAt p := by simp [isAt]

@[simp] theorem isAtWord_shape (w : String) : s.shape.isAtWord w = s.isAtWord w := by
  simp [isAtWord]

@[simp] theorem aheadIs_shape (n : Nat) (p : String) : s.shape.aheadIs n p = s.aheadIs n p := by
  simp [aheadIs]

end State

section
variable (s : State)

@[simp] theorem isUnaryOperator_shape : isUnaryOperator s.shape = isUnaryOperator s := by
  simp [isUnaryOperator, isWordOperator]

@[simp] theorem wordForm_shape : wordForm s.shape = wordForm s := by
  have harrow : opensArrow (s.rest.map Token.plain).tail = opensArrow s.rest.tail := by
    rw [← List.map_tail, opensArrow_plain]
  simp [wordForm, harrow]

@[simp] theorem statementForm_shape : statementForm s.shape = statementForm s := by
  simp [statementForm, wordStatementForm, punctForm]

@[simp] theorem operator?_plain (above : Nat) (t : Token) :
    operator? above t.plain = operator? above t := rfl

@[simp] theorem isCast_plain (t : Token) : isCast t.plain = isCast t := rfl

@[simp] theorem endsYield_plain (t : Token) : endsYield t.plain = endsYield t := rfl

end

end Grammar

end Subscriptions
