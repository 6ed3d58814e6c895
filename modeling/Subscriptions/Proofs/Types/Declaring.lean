import Subscriptions.Proofs.Lockstep.Following
import Subscriptions.Proofs.Types.Statements

namespace Subscriptions

namespace Types

open Grammar Piece Scanner Ink

variable {gap around : Nat} {v w : Identifier} {t : Ty} {rest : List Char}

/-- A constant of a type, with so many blanks on both sides of the equals sign. -/
def constantInks (gap around : Nat) (v w : Identifier) (t : Ty) : List Ink :=
  key 0 "const" :: v.ink 1 :: (annotated gap (some t) ++
    mark around "=" :: ([w.ink around] ++ [mark 0 ";"]))

/-- The text `const v: T = w;`, or with no blanks around the equals sign. -/
def constantText (gap around : Nat) (v w : Identifier) (t : Ty) : String :=
  String.join ["const ", v.text, ": ", t.text gap, String.ofList (blanks around), "=",
    String.ofList (blanks around), w.text, ";"]

theorem chars_constantInks :
    Ink.chars (constantInks gap around v w t) = (constantText gap around v w t).toList := by
  simp [constantInks, constantText, annotatedChars, blanks]

theorem written_constantInks (h : around = 0 → t.tail = 0) (rest : List Char) :
    Written [] (constantInks gap around v w t) [] rest := by
  have hvalue : Written [] ([w.ink around] ++ [mark 0 ";"]) [] rest := by
    refine w.written ?_ (written_single (by decide) (.nil _ _))
    simp
    decide
  have hequals : Written [] (mark around "=" :: ([w.ink around] ++ [mark 0 ";"])) [] rest := by
    refine written_mark (by decide) ?_ hvalue
    simpa using w.opens.append.stops (by decide) around
  have htype : Written [] (annotated gap (some t)) []
      (Ink.chars (mark around "=" :: ([w.ink around] ++ [mark 0 ";"])) ++ rest) := by
    refine written_single (by decide) (t.written 1 0 ?_)
    cases around with
    | zero =>
      rw [h rfl]
      intro d hd
      obtain rfl : '=' = d := by simpa using hd
      exact ⟨by decide, nofun⟩
    | succ around => simpa [blanks, List.replicate_succ] using free_blank
  refine written_key (by decide) ?_ (v.written ?_ (htype.append hequals))
  · simp [blanks]
    decide
  · intro d hd
    obtain rfl : ':' = d := by simpa [annotatedChars] using hd
    decide

/-- No name outside of brackets is a word at which a type in front of a value ends. -/
theorem passes_variableStops (hof : word "of" ∉ t.outer) (hin : word "in" ∉ t.outer) :
    (Permit.upTo Core.variableStops).Passes true t.outer := by
  have hnone : ∀ q ∈ t.outer, q.text ∉ Core.variableStops := by
    intro q hq hmem
    have hmarks : ∀ p ∈ outerPuncts, p ∉ Core.variableStops := by decide
    have hwords : ∀ p ∈ Core.variableStops, p = "of" ∨ p = "in" ∨ startsWord p = false := by decide
    rcases t.mem_outer q hq with ⟨x, rfl⟩ | ⟨p, hp, rfl⟩
    · rcases hwords _ hmem with heq | heq | hmark
      · exact hof (by rwa [← heq])
      · exact hin (by rwa [← heq])
      · exact x.text_ne hmark rfl
    · exact hmarks p hp hmem
  exact t.passes (fun q hq hmem => absurd hmem (hnone q (List.mem_of_head? hq)))
    fun q hq => hnone q (List.mem_of_mem_tail hq)

def constantShape (gap : Nat) (v w : Identifier) (t : Ty) : Shape :=
  .node .variableStatement none none
    [.node .variableDeclaration (some v.text) (some (t.text gap)) [w.shape]]

theorem reads_constantInks (hof : word "of" ∉ t.outer) (hin : word "in" ∉ t.outer) (js : List Ink) :
    Reads (rule 5 .statement) 0 (constantInks gap around v w t ++ js) js
      (·.shape = constantShape gap v w t) := by
  have hvalue : Reads (rule 4 .assignment) 1 ([w.ink around] ++ mark 0 ";" :: js) (mark 0 ";" :: js)
      (·.shape = w.shape) := reads_identifier w rfl (by decide)
  have htype : Reads ( annotation Core.variableStops) 1
      (annotated gap (some t) ++ mark around "=" :: ([w.ink around] ++ mark 0 ";" :: js))
      (mark around "=" :: ([w.ink around] ++ mark 0 ";" :: js)) (· = some (t.text gap)) := by
    refine reads_annotated (some t) rfl (by decide) (by decide) fun t' ht' => ?_
    exact Option.some.inj ht' ▸ passes_variableStops hof hin
  have heq : constantInks gap around v w t ++ js = key 0 "const" :: v.ink 1 ::
      (annotated gap (some t) ++ mark around "=" :: ([w.ink around] ++ mark 0 ";" :: js)) := by
    simp [constantInks]
  rw [heq]
  refine reads_const v rfl ?_ (by decide) htype hvalue
  intro i hi
  obtain rfl := Option.some.inj hi
  rfl

/-- So many closing angle brackets and an equals sign, all touching. -/
def fused : Nat → List Ink
  | 0 => [mark 0 "="]
  | 1 => [mark 0 ">="]
  | 2 => [mark 0 ">>="]
  | 3 => [mark 0 ">>>="]
  | n + 4 => mark 0 ">>>" :: fused (n + 1)

@[simp] theorem chars_fused (n : Nat) : Ink.chars (fused n) = List.replicate n '>' ++ ['='] := by
  fun_induction fused n with
  | case5 n ih => simp [ih, List.replicate_succ]
  | _ => rfl

theorem written_fused {n : Nat} (hn : 0 < n) (rest : List Char) : Written [] (fused n) [] rest := by
  have hassign : ∀ p ∈ [">=", ">>=", ">>>="], p ∈ touchingPuncts ∧ extensions p = [] ∧ p ≠ "." := by
    decide
  have hlast {p : String} (hp : p ∈ [">=", ">>=", ">>>="]) : Written [] [mark 0 p] [] rest := by
    obtain ⟨hmem, hnone, hdot⟩ := hassign p hp
    exact written_mark hmem (stops_of_extensions_eq_nil hnone hdot) (.nil _ _)
  fun_induction fused n with
  | case1 => cases hn
  | case2 => exact hlast (by decide)
  | case3 => exact hlast (by decide)
  | case4 => exact hlast (by decide)
  | case5 n ih =>
    refine written_mark (by decide) ?_ (ih (Nat.succ_pos n))
    rw [chars_fused]
    intro d hd
    obtain rfl : '>' = d := Option.some.inj hd
    decide

/-- They close less brackets than they are. -/
theorem nested_fused {P : Permit} {first : Bool} {n : Nat} (hn : 0 < n) :
    ∃ m, Nested P first n ((fused n).map Ink.piece) (m + 1) := by
  have hflat {m : Nat} {first : Bool} {p : String} (hp : p ∈ [">=", ">>=", ">>>="]) :
      Nested P first (m + 1) [punct p] (m + 1) := by
    have hassign : ∀ p ∈ [">=", ">>=", ">>>="], ((punct p).isPunctOf openers = false ∧
        (punct p).isPunctOf closers = false) ∧
        (punct p).isPunctOf ["<", ">", ">>", ">>>"] = false ∧ p ≠ ";" := by decide
    obtain ⟨hp, hangle, hsemicolon⟩ := hassign p hp
    exact .flat hp hangle (.inl rfl) rfl (P.within hsemicolon) (.nil _ _ _)
  fun_induction fused n generalizing first with
  | case1 => cases hn
  | case2 => exact ⟨0, hflat (by decide)⟩
  | case3 => exact ⟨1, hflat (by decide)⟩
  | case4 => exact ⟨2, hflat (by decide)⟩
  | case5 n ih =>
    obtain ⟨m, hm⟩ := ih (Nat.succ_pos n)
    exact ⟨m, .greater (k := 3) (by decide) hm⟩

/-- A constant with a type and a value. -/
structure Constant where
  name : Identifier
  type : Ty
  value : Identifier

namespace Constant

/-- Constants with blanks around their equals signs. -/
def text (gap : Nat) (cs : List Constant) : String :=
  String.join (cs.map fun c => constantText gap 1 c.name c.value c.type)

def inks (gap : Nat) (cs : List Constant) : List Ink :=
  cs.flatMap fun c => constantInks gap 1 c.name c.value c.type

variable {cs : List Constant} {n : Nat}

theorem chars_inks : Ink.chars (inks gap cs) = (text gap cs).toList := by
  induction cs with
  | nil => simp [inks, text]
  | cons c cs ih =>
    rw [inks, text, String.toList_join] at ih ⊢
    simp only [List.flatMap_cons, Ink.chars_append, List.map_cons, ih, chars_constantInks]

theorem written : Written [] (inks gap cs) [] [] := by
  induction cs with
  | nil => exact .nil _ _
  | cons c cs ih =>
    refine Written.append ?_ ih
    exact @written_constantInks gap 1 c.name c.value c.type (fun h => absurd h Nat.one_ne_zero) _

theorem getLast_text : (';' :: (text gap cs).toList).getLast? = some ';' := by
  induction cs with
  | nil => rfl
  | cons c cs ih =>
    have hends : (constantText gap 1 c.name c.value c.type).toList = (String.join ["const ",
        c.name.text, ": ", c.type.text gap, " ", "=", " ", c.value.text]).toList ++ [';'] := by
      simp [constantText, blanks]
    have htext : (text gap (c :: cs)).toList =
        (constantText gap 1 c.name c.value c.type).toList ++ (text gap cs).toList := by
      simp [text]
    rw [htext, hends, List.append_assoc, ← List.cons_append, List.singleton_append,
      List.getLast?_append, ih]
    rfl

/-- Where angle brackets are open, constants leave them open. -/
theorem nested : Nested (.upTo Core.variableStops) false (n + 1) ((inks gap cs).map Ink.piece)
    (n + 1) := by
  have hin {q : Piece} : (Permit.upTo Core.variableStops).allows (n + 1) false q :=
    fun h => absurd h (Nat.succ_ne_zero n)
  induction cs with
  | nil => exact .nil _ _ _
  | cons c cs ih =>
    rw [inks, List.flatMap_cons, List.map_append]
    refine Nested.append ?_ ih
    rw [constantInks, annotated, List.map_cons, List.map_cons, List.cons_append, List.map_cons,
      List.map_append]
    refine .word (by decide) hin (.word c.name.text_not_mem hin (.mark (by decide) hin ?_))
    refine (c.type.nested 1 0 (n + 1) _ false (by omega)).append ?_
    exact .flat ⟨rfl, rfl⟩ rfl (.inl rfl) rfl hin
      (.word c.value.text_not_mem hin (.mark (by decide) hin (.nil _ _ _)))

end Constant

/-- The tokens of a constant whose type ends in closing angle brackets, which touch the equals
sign. -/
def fusedInks (gap : Nat) (v w : Identifier) (t : Ty) : List Ink :=
  key 0 "const" :: v.ink 1 :: mark 0 ":" ::
    (t.front gap 1 ++ (fused t.tail ++ [w.ink 0, mark 0 ";"]))

theorem chars_front_closing (lead : Nat) :
    Ink.chars (t.front gap lead) ++ List.replicate t.tail '>' = blanks lead ++ t.chars gap := by
  have hchars := t.chars_inks gap lead 0
  rw [t.inks_eq_front, Ink.chars_append, chars_closing] at hchars
  simpa using hchars

theorem chars_fusedType : Ink.chars (t.front gap 1 ++ (fused t.tail ++ [w.ink 0, mark 0 ";"])) =
    ' ' :: (t.chars gap ++ '=' :: (w.chars ++ [';'])) := by
  have hchars := @chars_front_closing gap t 1
  rw [Ink.chars_append, Ink.chars_append, chars_fused, List.append_assoc, ← List.append_assoc,
    hchars]
  simp [blanks]

theorem chars_fusedInks : Ink.chars (fusedInks gap v w t) = (constantText gap 0 v w t).toList := by
  rw [fusedInks, Ink.chars_cons, Ink.chars_cons, Ink.chars_cons, chars_fusedType]
  simp [constantText, blanks]

/-- What is read as the type of such a constant: its type, its value and all that follows. -/
def swallowed (gap : Nat) (w : Identifier) (t : Ty) (more : List Constant) : String :=
  String.join [t.text gap, "=", w.text, ";", Constant.text gap more]

variable {more : List Constant}

theorem written_fusedInks (h : 0 < t.tail) :
    Written [] (fusedInks gap v w t ++ Constant.inks gap more) [] [] := by
  have hvalue : Written [] [w.ink 0, mark 0 ";"] [] (Ink.chars (Constant.inks gap more) ++ []) := by
    refine w.written ?_ (written_single (by decide) (.nil _ _))
    simp
    decide
  have htype : Written [] (t.front gap 1 ++ (fused t.tail ++ [w.ink 0, mark 0 ";"])) []
      (Ink.chars (Constant.inks gap more) ++ []) := by
    refine Written.append (t.written_front 1 _ ?_) ((written_fused h _).append hvalue)
    obtain ⟨n, hn⟩ := Nat.exists_eq_succ_of_ne_zero (Nat.ne_of_gt h)
    intro d hd
    rw [Ink.chars_append, chars_fused, hn] at hd
    obtain rfl : '>' = d := Option.some.inj hd
    decide
  refine Written.append ?_ Constant.written
  refine written_key (by decide) ?_ (v.written ?_ (written_single (by decide) htype))
  · simp [blanks]
    decide
  · intro d hd
    obtain rfl : ':' = d := by simpa using hd
    decide

/-- The type is read to the end, with angle brackets still open. -/
theorem reads_swallowed (hof : word "of" ∉ t.outer) (hin : word "in" ∉ t.outer) (h : 0 < t.tail)
    {depth : Nat} : Reads (typeUpTo Core.variableStops) depth
      (t.front gap 1 ++ (fused t.tail ++ [w.ink 0, mark 0 ";"]) ++ Constant.inks gap more) []
      (· = some (swallowed gap w t more)) := by
  obtain ⟨n, hfused⟩ := @nested_fused (.upTo Core.variableStops) false t.tail h
  have hopen {q : Piece} : (Permit.upTo Core.variableStops).allows (n + 1) false q :=
    fun h => absurd h (Nat.succ_ne_zero n)
  have hnested : Nested (.upTo Core.variableStops) true 0 ((t.front gap 1 ++ (fused t.tail ++
      [w.ink 0, mark 0 ";"]) ++ Constant.inks gap more).map Ink.piece) (n + 1) := by
    have hfront := @Ty.nested_front gap t 1 0 _ true fun _ => passes_variableStops hof hin
    rw [List.map_append, List.map_append, List.map_append]
    rw [Nat.zero_add] at hfront
    refine (hfront.append (hfused.append ?_)).append Constant.nested
    exact .word w.text_not_mem hopen (.mark (by decide) hopen (.nil _ _ _))
  have hchars : Ink.chars (t.front gap 1 ++ (fused t.tail ++ [w.ink 0, mark 0 ";"]) ++
      Constant.inks gap more) = blanks 1 ++ (swallowed gap w t more).toList := by
    rw [Ink.chars_append, chars_fusedType, Constant.chars_inks]
    simp [swallowed, blanks]
  have hopens : Opens (swallowed gap w t more).toList := by
    have htext : (swallowed gap w t more).toList = t.chars gap ++ (String.join ["=", w.text, ";",
        Constant.text gap more]).toList := by simp [swallowed]
    rw [htext]
    exact t.opens.append
  have hlast : (swallowed gap w t more).toList.getLast? = some ';' := by
    have htext : (swallowed gap w t more).toList = (String.join [t.text gap, "=", w.text]).toList ++
        ';' :: (Constant.text gap more).toList := by simp [swallowed]
    rw [htext, List.getLast?_append, Constant.getLast_text]
    rfl
  obtain ⟨i, is, heq, hi⟩ := @t.front_eq_cons gap 1
  rw [heq, List.cons_append, List.cons_append] at hnested hchars ⊢
  rw [← @String.ofList_toList (swallowed gap w t more)]
  exact reads_typeUpTo_end hnested hi hchars hopens ⟨_, hlast, by decide⟩

/-- Where closing angle brackets touch the equals sign, all that follows belongs to the type. -/
theorem reads_fusedInks (hof : word "of" ∉ t.outer) (hin : word "in" ∉ t.outer) (h : 0 < t.tail) :
    Reads (rule 1 .statement) 0 (fusedInks gap v w t ++ Constant.inks gap more) []
      (·.shape = .node .variableStatement none none
        [.node .variableDeclaration (some v.text) (some (swallowed gap w t more)) []]) := by
  have hnone {p : String} : Reads (accept p) 1 ([] : List Ink) [] (· = false) :=
    .stay reads_accept_end
  have htype : Reads ( annotation Core.variableStops) 1 (mark 0 ":" :: (t.front gap 1 ++
      (fused t.tail ++ [w.ink 0, mark 0 ";"]) ++ Constant.inks gap more)) []
      (· = some (swallowed gap w t more)) := by
    refine Reads.bind (.step reads_accept) ?_
    rintro _ rfl
    exact reads_swallowed hof hin h
  have hvalue : Reads (initializer (rule 0)) 1 ([] : List Ink) [] (Node.shapes · = []) := by
    refine hnone.bind ?_
    rintro _ rfl
    exact reads_pure rfl
  exact Core.reads_declaring rfl rfl (v.ne_reserved (by decide)) (by decide)
    (.stay (reads_optional_not rfl)) htype hvalue hnone (hnone.bind fun _ _ => reads_pure trivial)

end Types

namespace Parsed

open Subscriptions.Types Grammar Piece

/-- A constant of a type reads as it is written, and what follows as it does by itself, where no
closing angle bracket touches the equals sign. -/
theorem ofSource_constantText (gap around : Nat) (v w : Identifier) (t : Ty) (more : List Char)
    (hof : word "of" ∉ t.outer) (hin : word "in" ∉ t.outer) (h : around = 0 → t.tail = 0) :
    (ofSource ((constantText gap around v w t).toList ++ more)).faults.map Fault.message =
        (ofSource more).faults.map Fault.message ∧
      (ofSource ((constantText gap around v w t).toList ++ more)).root.shape =
        .node .sourceFile none none
          (constantShape gap v w t :: Node.shapes (ofSource more).root.children) := by
  rw [← chars_constantInks]
  have hlast : (constantInks gap around v w t).getLast? = some (mark 0 ";") := by
    simp [constantInks, List.getLast?_cons, List.getLast?_append]
  exact ofSource_behind (written_constantInks h more) (congrArg _ hlast)
    (reads_constantInks hof hin)

/-- Closing angle brackets that touch each other but not the equals sign: `A<A<A<A>>>[] | n.x`. -/
def sampleDeclared : Ty :=
  let a := Path.word .sampleType
  let n := Path.word ⟨'n', [], by decide, List.all_nil⟩
  .union (.array (.generic a (.last (.generic a (.last (.generic a (.last (.name a))))))))
    (.name (.member n .sampleName))

theorem ofSource_constantText_touching :
    let v : Identifier := ⟨⟨'v', [], by decide, by decide⟩, by decide⟩
    let w : Identifier := ⟨⟨'w', [], by decide, by decide⟩, by decide⟩
    let more := "\nif (w) \x7b foo(); \x7d else ]".toList
    word "of" ∉ sampleDeclared.outer ∧ word "in" ∉ sampleDeclared.outer ∧
    (0 = 0 → sampleDeclared.tail = 0) ∧
    (ofSource ((constantText 0 0 v w sampleDeclared).toList ++ more)).faults.map Fault.message =
        (ofSource more).faults.map Fault.message ∧
      (ofSource ((constantText 0 0 v w sampleDeclared).toList ++ more)).root.shape =
        .node .sourceFile none none
          (constantShape 0 v w sampleDeclared :: Node.shapes (ofSource more).root.children) :=
  ⟨by decide, by decide, fun _ => by decide,
    ofSource_constantText 0 0 _ _ sampleDeclared _ (by decide) (by decide) fun _ => by decide⟩

/-- A closing angle bracket that touches the equals sign takes the value and what follows into the
type, and a type named `of` is none. Neither is reported. -/
theorem ofSource_constantText_swallowed : ∃ (v w : Identifier) (t u : Ty) (more : List Char),
    String.ofList ((constantText 0 0 v w t).toList ++ more) = "const v: Array<string>=w;\nfoo();" ∧
    (ofSource ((constantText 0 0 v w t).toList ++ more)).faults = [] ∧
    (ofSource ((constantText 0 0 v w t).toList ++ more)).root.outline = "SourceFile\n" ++
      "  VariableStatement\n    VariableDeclaration v: Array<string>=w;\nfoo();\n" ∧
    (ofSource ((constantText 0 0 v w t).toList ++ more)).root.shape ≠ .node .sourceFile none none
      (constantShape 0 v w t :: Node.shapes (ofSource more).root.children) ∧
    constantText 0 1 v w u = "const v: of = w;" ∧
    (ofSource (constantText 0 1 v w u).toList).faults = [] ∧
    (ofSource (constantText 0 1 v w u).toList).root.shape ≠
      .node .sourceFile none none [constantShape 0 v w u] := by
  exact ⟨⟨⟨'v', [], by decide, by decide⟩, by decide⟩, ⟨⟨'w', [], by decide, by decide⟩, by decide⟩,
    .generic (.word ⟨'A', "rray".toList, by decide, by decide⟩)
      (.last (.name (.word ⟨'s', "tring".toList, by decide, by decide⟩))),
    .name (.word ⟨'o', ['f'], by decide, by decide⟩), "\nfoo();".toList,
    by decide, by decide, by decide, by decide, by decide,
    by decide +kernel, by decide +kernel⟩

/-- Where closing angle brackets touch the equals sign, the value and all constants that follow are
taken for the type, and nothing is reported. -/
theorem ofSource_constantText_fused (gap : Nat) (v w : Identifier) (t : Ty) (more : List Constant)
    (hof : word "of" ∉ t.outer) (hin : word "in" ∉ t.outer) (h : 0 < t.tail) :
    (ofSource ((constantText gap 0 v w t).toList ++ (Constant.text gap more).toList)).faults = [] ∧
      (ofSource ((constantText gap 0 v w t).toList ++ (Constant.text gap more).toList)).root.shape =
        .node .sourceFile none none [.node .variableStatement none none
          [.node .variableDeclaration (some v.text) (some (swallowed gap w t more)) []]] := by
  rw [← chars_fusedInks, ← Constant.chars_inks, ← Ink.chars_append]
  exact ofSource_written (written_fusedInks h)
    (Types.reads_statements (List.cons_ne_nil _ _) (reads_fusedInks hof hin h))

end Parsed

end Subscriptions
