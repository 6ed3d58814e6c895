import Subscriptions.Proofs.Lockstep.Shifted
import Subscriptions.Proofs.Nesting.Brackets
import Subscriptions.Proofs.Types.Language

namespace Subscriptions

open Grammar Scanner Text Subscriptions.Types Ink Piece

section
variable {b : Bracket} {w : List Bracket} {rest : List Char}

theorem Bracket.utf8Size (b : Bracket) : b.opener.utf8Size = 1 ∧ b.closer.utf8Size = 1 := by
  cases b <;> exact ⟨rfl, rfl⟩

theorem nest_cons : nest (b :: w) = b.opener :: (nest w ++ [b.closer]) := by
  simp [nest]

theorem byteLength_nest (w : List Bracket) : byteLength (nest w) = 2 * w.length + 1 := by
  induction w with
  | nil => rfl
  | cons b w ih =>
    simp [nest_cons, byteLength_cons, byteLength_append, b.utf8Size, ih]
    omega

theorem isWordStart_x : isWordStart 'x' = true := by decide

def nestInks : List Bracket → List Ink
  | [] => [Ident.ink 0 ⟨'x', [], isWordStart_x, List.all_nil⟩]
  | b :: w => mark 0 b.opener.toString :: (nestInks w ++ [mark 0 b.closer.toString])

theorem chars_nestInks (w : List Bracket) : Ink.chars (nestInks w) = nest w := by
  induction w with
  | nil => rfl
  | cons b w ih => simp [nestInks, nest_cons, ih]

theorem tokens_mark {c : Char} (hc : c.utf8Size = 1) (pos : Nat) (is : List Ink) :
    Ink.tokens pos (mark 0 c.toString :: is) = symbol .punct pos c :: Ink.tokens (pos + 1) is := by
  have hsize : byteLength c.toString.toList = 1 := by
    rw [Char.toString, String.toList_singleton, byteLength_cons, hc]
    rfl
  simp only [Ink.tokens, mark, behind, punct, hsize]
  rfl

theorem tokens_nestInks (pos : Nat) (w : List Bracket) :
    Ink.tokens pos (nestInks w) = nestTokens pos w := by
  induction w generalizing pos with
  | nil => rfl
  | cons b w ih =>
    have hstop : pos + 1 + byteLength (Ink.chars (nestInks w)) = pos + 2 * w.length + 2 := by
      rw [chars_nestInks, byteLength_nest]
      omega
    rw [nestInks, tokens_mark b.utf8Size.1, Ink.tokens_append, ih, hstop, tokens_mark b.utf8Size.2]
    rfl

theorem written_nestInks (w : List Bracket) (hrest : ∀ d ∈ rest.head?, isWordPart d = false) :
    Written [] (nestInks w) [] rest := by
  induction w generalizing rest with
  | nil => exact Ident.written _ hrest (.nil _ _)
  | cons b w ih =>
    have hsingle : b.opener.toString ∈ singlePuncts ∧ b.closer.toString ∈ singlePuncts := by
      cases b <;> decide
    have hclose : Written [] [mark 0 b.closer.toString] [] rest :=
      written_single hsingle.2 (.nil _ _)
    refine written_single hsingle.1 (Written.append (ih ?_) hclose)
    cases b <;> simp [Ink.chars] <;> decide

def nestStatementInks (w : List Bracket) : List Ink := nestInks w ++ [mark 0 ";"]

theorem tokens_nestStatementInks (w : List Bracket) : Ink.tokens 0 (nestStatementInks w) =
    nestTokens 0 w ++ [symbol .punct (2 * w.length + 1) ';'] := by
  rw [nestStatementInks, Ink.tokens_append, tokens_nestInks, chars_nestInks, byteLength_nest,
    Nat.zero_add]
  exact congrArg (_ ++ ·) (@tokens_mark ';' rfl _ [])

theorem chars_nestStatementInks (w : List Bracket) :
    Ink.chars (nestStatementInks w) = nest w ++ [';'] := by
  rw [nestStatementInks, Ink.chars_append, chars_nestInks]
  rfl

theorem byteLength_nestStatementInks (w : List Bracket) :
    byteLength (Ink.chars (nestStatementInks w)) = 2 * w.length + 2 := by
  rw [chars_nestStatementInks, byteLength_append, byteLength_nest]
  rfl

theorem getLast_nestStatementInks (w : List Bracket) :
    (nestStatementInks w).getLast?.map Ink.piece = some (.punct ";") := by
  rw [nestStatementInks, List.getLast?_concat]
  rfl

theorem written_nestStatementInks (w : List Bracket) (rest : List Char) :
    Written [] (nestStatementInks w) [] rest := by
  have hsemicolon : Written [] [mark 0 ";"] [] rest := written_single (by decide) (.nil _ _)
  refine Written.append (written_nestInks w ?_) hsemicolon
  rintro d ⟨⟩
  decide

/-- A nest of brackets in the line before any source is its first statement, cut off at the limit with
one fault if it comes to it. The statements and the faults of the source are those that it has by
itself, as much further on. -/
theorem Parsed.ofSource_nest (w : List Bracket) (source : List Char) :
    let before := nest w ++ [';', '\n']
    let k := byteLength before
    let whole := ofSource (before ++ source)
    let cut := if w.length < maxBrackets then []
      else [Fault.tooDeep maxNesting ⟨maxBrackets, maxBrackets + 1⟩]
    whole.root.children = nestStatement w ::
      (ofSource source).root.children.map (Node.moved k ((nestStatement w).serial + 1)) ∧
    ∃ found, (ofSource source).faults = (tokenize source).faults ++ found ∧
      whole.faults =
        (tokenize source).faults.map (Fault.moved k) ++ cut ++ found.map (Fault.moved k) := by
  intro before k whole cut
  have hbefore : nest w ++ [';', '\n'] ++ source =
      Ink.chars (nestStatementInks w) ++ '\n' :: source := by
    rw [chars_nestStatementInks, List.append_assoc, List.append_assoc]
    rfl
  have hk : byteLength (nest w ++ [';', '\n']) =
      byteLength (Ink.chars (nestStatementInks w)) + 1 := by
    rw [byteLength_nestStatementInks, byteLength_append, byteLength_nest]
    rfl
  have hcut : (nestFaults maxBrackets 0 w).reverse = cut := by
    rw [nestFaults, Nat.zero_add, apply_ite List.reverse]
    rfl
  have hrun (us : List Token) (last : Token) : rule (4 * (w.length + 1) + 1) .statement 0
      ⟨Ink.tokens 0 (nestStatementInks w) ++ us, last, 0, {}, []⟩ = some (nestStatement w,
        ⟨us, last, byteLength (Ink.chars (nestStatementInks w)), Arena.grow {} (nestStatement w),
          nestFaults maxBrackets 0 w⟩) := by
    rw [tokens_nestStatementInks, byteLength_nestStatementInks, List.append_assoc]
    exact nestStatement_run w (Nat.le_refl _)
  have hbuilt : (Arena.grow {} (nestStatement w)).size = (nestStatement w).serial + 1 := by
    rw [Arena.size_grow, nestStatement, Node.size, Node.sizes, size_nestNode]
    exact Nat.zero_add _
  have hwhole := ofSource_nextLine (written_nestStatementInks w ('\n' :: source))
    (getLast_nestStatementInks w) hrun hbuilt
  rwa [← hbefore, ← hk, hcut] at hwhole

end

end Subscriptions
