import Subscriptions.Proofs.Types.Statements

namespace Subscriptions

namespace Types

open Grammar Piece Scanner Ink

variable {gap lead n depth fuel : Nat} {go : Recur} {S : Shape} {is js : List Ink}

theorem statementForm_function {s : State} {q : Piece} {qs : List Piece}
    (hs : s.pieces = word "function" :: q :: qs) : statementForm s = .function := by
  have hkind := State.kind_current hs
  have htext := State.text_current hs
  simp [statementForm, wordStatementForm, hkind, htext, word]

def functionInks (gap : Nat) (f : Identifier) (params : List Param) (returned : Ty)
    (body : List Ink) : List Ink :=
  key 0 "function" :: f.ink 1 :: mark 0 "(" :: (Param.listInks gap params ++
    mark 0 ")" :: (annotated gap (some returned) ++ mark 1 "\x7b" :: (body ++ [mark 1 "\x7d"])))

theorem reads_function (f : Identifier) (params : List Param) (returned : Ty)
    (hreturned : punct "\x7b" ∉ returned.outer.tail) {i : Ink} (hi : i.piece.isPunct "\x7d" = false)
    (hdepth : depth < maxNesting)
    (hbody : Reads (rule fuel .statement) (depth + 1) (i :: is ++ [mark 1 "\x7d"]) [mark 1 "\x7d"]
      (·.shape = S)) :
    Reads (rule (fuel + 1) .statement) depth (functionInks gap f params returned (i :: is)) []
      (·.shape = .node .functionDeclaration (some f.text) (some (returned.text gap))
        (params.map (Param.shape gap) ++ [.node .block none none [S]])) := by
  have hpasses : (Permit.upTo ["\x7b", ";"]).Passes true returned.outer := by
    have hsemicolon {q : Piece} (hq : q ∈ returned.outer) (hmem : q.text ∈ ["\x7b", ";"]) :
        q.text = "\x7b" := by
      rcases List.mem_cons.mp hmem with heq | hmem
      · exact heq
      · exact absurd (returned.eq_punct_of_text hq (List.mem_singleton.mp hmem) (by decide)).2
          (by decide)
    refine returned.passes (fun q hq hmem => hsemicolon (List.mem_of_head? hq) hmem) ?_
    intro q hq hmem
    have hq' := List.mem_of_mem_tail hq
    obtain ⟨rfl, -⟩ := returned.eq_punct_of_text hq' (hsemicolon hq' hmem) (by decide)
    exact hreturned hq
  have hblock : Reads (bodyOrSemicolon (rule fuel)) (depth + 1)
      (mark 1 "\x7b" :: (i :: is ++ [mark 1 "\x7d"])) []
      (Node.shapes · = [.node .block none none [S]]) := by
    apply reads_look
    intro s hs
    rw [if_pos (State.isAt_punct (State.pieces_of_seen hs))]
    refine (reads_block hi hbody).bind fun node hnode => reads_pure ?_
    rw [Node.shapes, hnode]
    rfl
  have hname : Reads takeNameIfWord (depth + 1)
      (f.ink 1 :: mark 0 "(" :: (Param.listInks gap params ++ mark 0 ")" ::
        (annotated gap (some returned) ++ mark 1 "\x7b" :: (i :: is ++ [mark 1 "\x7d"]))))
      (mark 0 "(" :: (Param.listInks gap params ++ mark 0 ")" ::
        (annotated gap (some returned) ++ mark 1 "\x7b" :: (i :: is ++ [mark 1 "\x7d"]))))
      (·.map Name.text = some f.text) := by
    apply reads_look
    intro s hs
    rw [State.isWord_eq (State.pieces_of_seen hs)]
    exact Reads.bind (.step reads_takeName) fun name hname => reads_pure (congrArg some hname)
  apply reads_nested hdepth
  apply reads_here
  intro start
  apply reads_look
  intro s hs
  rw [statementForm_function (State.pieces_of_seen hs)]
  apply reads_here
  intro start
  refine Reads.bind (.step reads_advance) fun _ _ => ?_
  refine Reads.bind (.stay (reads_optional_not rfl)) fun _ _ => ?_
  refine hname.bind fun name hname => ?_
  refine Reads.bind (.stay (reads_skipAngles_not rfl)) fun _ _ => ?_
  refine (Param.reads_list params).bind fun nodes hnodes => ?_
  refine (reads_annotated (some returned) (p := "\x7b") rfl (by decide) (by decide)
    fun t ht => Option.some.inj ht ▸ hpasses).bind ?_
  rintro _ rfl
  refine hblock.bind fun body hbody => ?_
  refine reads_build.imp fun node hnode => ?_
  rw [Node.shapes_eq_map] at hnodes hbody hnode
  rw [hnode, List.map_append, hnodes, hbody, hname]
  rfl

/-- The text `function f(p: A): R \x7b return p; \x7d`. -/
def functionText (gap : Nat) (f p : Identifier) (a r : Ty) : String :=
  String.join ["function ", f.text, "(", p.text, ": ", a.text gap, "): ", r.text gap,
    " \x7b return ", p.text, "; \x7d"]

theorem chars_functionInks (f p : Identifier) (a r : Ty) :
    Ink.chars (functionInks gap f [⟨p, some a⟩] r (returnInks 1 p)) =
      (functionText gap f p a r).toList := by
  simp [functionInks, returnInks, functionText, Param.listChars, Param.chars, annotatedChars,
    blanks]

theorem written_functionInks (f p : Identifier) (a r : Ty) :
    Written [] (functionInks gap f [⟨p, some a⟩] r (returnInks 1 p)) [] [] := by
  have hbody : Written [] (mark 1 "\x7b" :: (returnInks 1 p ++ [mark 1 "\x7d"])) [] [] :=
    written_brace (by decide)
      ((written_returnInks p _).append (written_brace (by decide) (.nil _ _)))
  have hreturned : Written [] (annotated gap (some r)) []
      (Ink.chars (mark 1 "\x7b" :: (returnInks 1 p ++ [mark 1 "\x7d"])) ++ []) :=
    written_single (by decide) (r.written 1 0 free_blank)
  refine written_key (by decide) ?_ (f.written ?_ (written_single (by decide) (Written.append ?_
    (written_single (by decide) (hreturned.append hbody)))))
  · simp [blanks]
    decide
  · simp
    decide
  · simpa using Param.written_list [⟨p, some a⟩] _

end Types

namespace Parsed

open Subscriptions.Types Grammar Piece

/-- A function reads as it is written where no object type stands in its return type outside of
brackets but at the start. -/
theorem ofSource_functionText (gap : Nat) (f p : Identifier) (a r : Ty)
    (h : punct "\x7b" ∉ r.outer.tail) :
    (ofSource (functionText gap f p a r).toList).faults = [] ∧
      (ofSource (functionText gap f p a r).toList).root.shape = .node .sourceFile none none
        [.node .functionDeclaration (some f.text) (some (r.text gap)) [
          .node .parameter (some p.text) (some (a.text gap)) [],
          .node .block none none [.node .returnStatement none none [p.shape]]]] := by
  have hbody : Reads (rule 5 .statement) 1 (returnInks 1 p ++ [mark 1 "\x7d"]) [mark 1 "\x7d"]
      (·.shape = .node .returnStatement none none [p.shape]) := reads_returning p (by decide)
  rw [← chars_functionInks]
  exact ofSource_written (written_functionInks f p a r)
    (Types.reads_statements (List.cons_ne_nil _ _)
      (reads_function f [⟨p, some a⟩] r h rfl (by decide) hbody))

/-- An object type at the start and closing angle brackets that touch at the end:
`\x7b x: B \x7d[] | B<B<B<B>>>`. -/
def sampleReturn : Ty :=
  let b := Path.word ⟨'B', [], by decide, List.all_nil⟩
  let nested := Ty.generic b (.last (.generic b (.last (.generic b (.last (.name b))))))
  .union (.array (.object (.last .sampleName (.name b)))) nested

theorem ofSource_functionText_object :
    let f : Identifier := ⟨⟨'f', [], by decide, by decide⟩, by decide⟩
    let p : Identifier := ⟨⟨'p', [], by decide, by decide⟩, by decide⟩
    let a := Ty.name (.word ⟨'A', [], by decide, by decide⟩)
    punct "\x7b" ∉ sampleReturn.outer.tail ∧
    (ofSource (functionText 1 f p a sampleReturn).toList).faults = [] ∧
      (ofSource (functionText 1 f p a sampleReturn).toList).root.shape = .node .sourceFile none none
        [.node .functionDeclaration (some f.text) (some (sampleReturn.text 1)) [
          .node .parameter (some p.text) (some (a.text 1)) [],
          .node .block none none [.node .returnStatement none none [p.shape]]]] :=
  ⟨by decide, ofSource_functionText 1 _ _ _ sampleReturn (by decide)⟩

/-- `A | \x7b x: B \x7d`. -/
def laterObject : Ty :=
  .union (.name (.word .sampleType))
    (.object (.last .sampleName (.name (.word ⟨'B', [], by decide, List.all_nil⟩))))

/-- An object type that stands later is taken for the body, and the body for a block of its own. -/
theorem ofSource_functionText_laterObject : ∃ f p : Identifier, ∃ a : Ty,
    functionText 1 f p a laterObject = "function f(p: A): A | \x7b x: B \x7d \x7b return p; \x7d" ∧
    (ofSource (functionText 1 f p a laterObject).toList).faults = [] ∧
    (ofSource (functionText 1 f p a laterObject).toList).root.outline =
      "SourceFile\n  FunctionDeclaration f: A |\n    Parameter p: A\n    Block\n" ++
      "      ExpressionStatement\n        Identifier B\n" ++
      "  Block\n    ReturnStatement\n      Identifier p\n" ∧
    (ofSource (functionText 1 f p a laterObject).toList).root.shape ≠ .node .sourceFile none none
        [.node .functionDeclaration (some f.text) (some (laterObject.text 1)) [
          .node .parameter (some p.text) (some (a.text 1)) [],
          .node .block none none [.node .returnStatement none none [p.shape]]]] := by
  refine ⟨⟨⟨'f', [], by decide, by decide⟩, by decide⟩,
    ⟨⟨'p', [], by decide, by decide⟩, by decide⟩,
    .name (.word ⟨'A', [], by decide, by decide⟩), by decide +kernel, by decide +kernel,
    by decide +kernel, by decide +kernel⟩

end Parsed

end Subscriptions
