import Subscriptions.Proofs.Core.Members
import Subscriptions.Proofs.Nesting.Statements
import Subscriptions.Proofs.Syntax.Postorder

namespace Subscriptions

namespace Cursor

variable {root : Node} {b : Nat} {c p : Cursor}

/-- The step down to the place is not counted as nesting. -/
def isFree (c : Cursor) : Bool :=
  match c.parent? with
  | none => false
  | some p => freeStep p.kind c.kind

/-- The classes on the way from the root down to the place. -/
def classes (c : Cursor) : Nat := (c :: c.ancestors).countP (·.kind == .classDeclaration)

/-- The steps on the way down to the place that are not counted as nesting. -/
def freeSteps (c : Cursor) : Nat := (c :: c.ancestors).countP isFree

theorem excess_eq (n : Node) : n.excess =
    excessBelow n.kind n.children + if n.kind = .classDeclaration then 1 else 0 := by
  cases n
  rfl

/-- With what is left below a place the classes on the way to it do not outnumber the free steps by
more than in the whole tree. -/
theorem classes_add_excessBelow_le (hroot : root.excess ≤ b) (hc : c ∈ root.asRoot.preorder) :
    c.classes + excessBelow c.kind c.focus.children ≤ b + c.freeSteps := by
  obtain ⟨focus, above⟩ := c
  induction above generalizing focus with
  | nil =>
    rcases eq_asRoot_or_child hc with heq | ⟨p, i, hp, -⟩
    · rw [heq]
      rw [excess_eq] at hroot
      have hclasses : root.asRoot.classes = if root.kind = .classDeclaration then 1 else 0 := by
        simp [classes, ancestors, Node.asRoot, ancestorsOf, kind, List.countP_cons]
      have hfree : root.asRoot.freeSteps = 0 := rfl
      rw [hclasses, hfree, Nat.add_comm]
      exact hroot
    · cases hp
  | cons a above ih =>
    rcases eq_asRoot_or_child hc with heq | ⟨p, i, hp, -, hi, hmem, hancestors⟩
    · cases heq
    · obtain rfl := Option.some.inj hp
      have hparent := ih _ hmem
      have hchild : focus.excess ≤ excessBelow a.1.kind a.1.children +
          if freeStep a.1.kind focus.kind then 1 else 0 :=
        excessBelow_le_iff.mp (Nat.le_refl _) focus (List.mem_of_getElem? hi)
      rw [excess_eq] at hchild
      have hclasses : (⟨focus, a :: above⟩ : Cursor).classes = (⟨a.1, above⟩ : Cursor).classes +
          if focus.kind = .classDeclaration then 1 else 0 := by
        simp [classes, ancestors, ancestorsOf, kind, List.countP_cons]
      have hfree : (⟨focus, a :: above⟩ : Cursor).freeSteps = (⟨a.1, above⟩ : Cursor).freeSteps +
          if freeStep a.1.kind focus.kind then 1 else 0 := by
        rw [freeSteps, List.countP_cons]
        rfl
      rw [hclasses, hfree]
      dsimp only [kind] at hparent ⊢
      omega

end Cursor

namespace Parsed

open Grammar

theorem excess_root_le (source : List Char) : (ofSource source).root.excess ≤ maxNesting := by
  obtain ⟨root, s, hrun, -⟩ := exists_run source
  rw [ofSource_of_run hrun]
  exact gives_program _ _ _ root s hrun

/-- On the way down to any place the classes are at most as many as the nesting levels and the steps
into decorators and into the bases of classes. -/
theorem classes_le_maxNesting_add_freeSteps (source : List Char) (c : Cursor)
    (hc : c ∈ (ofSource source).root.asRoot.preorder) : c.classes ≤ maxNesting + c.freeSteps := by
  have hbound := Cursor.classes_add_excessBelow_le (excess_root_le source) hc
  omega

end Parsed

namespace Grammar

open Subscriptions.Core Piece Scanner

variable {go : Recur} {depth n : Nat} {base qs rest : List Piece} {S : Shape}

/-- A name as the base of a class, which is the base of another one, and so on. -/
def heritageChain : Nat → List Piece
  | 0 => [word "a"]
  | n + 1 => word "class" :: word "extends" :: (heritageChain n ++ [punct "\x7b", punct "\x7d"])

def heritageShape : Nat → Shape
  | 0 => .node .identifier (some "a") none []
  | n + 1 => .node .classDeclaration none none [heritageShape n]

theorem spelled_heritageChain (n : Nat) : Spelled [] (heritageChain n) [] := by
  induction n with
  | zero =>
    have ha : Scans [] (word (String.ofList ['a'])) [] := scans_word (by decide) (by decide)
    exact .single ha
  | succ n ih =>
    have hbraces : Spelled [] [punct "\x7b", punct "\x7d"] [] :=
      .cons scans_openBrace (.single scans_closeBrace)
    exact .cons (scans_keyword (by decide)) (.cons (scans_keyword (by decide)) (ih.append hbraces))

/-- A class with a base and no members. -/
theorem reads_classBody (hbase : Reads (go .access) depth base (punct "\x7b" :: punct "\x7d" :: rest)
      (·.shape = S)) :
    Reads (classBody go []) depth (word "class" :: word "extends" :: base) rest
      (·.shape = .node .classDeclaration none none [S]) := by
  apply reads_here
  intro start
  refine reads_advance.bind fun _ _ => ?_
  apply reads_look
  intro s hs
  have hextends : (s.isAtWord "extends" || s.isAtWord "implements") = true := by
    rw [State.isAtWord_word hs, Bool.true_or]
  have hheritage : Reads (heritage go) depth (word "extends" :: base)
      (punct "\x7b" :: punct "\x7d" :: rest) (Node.shapes · = [S]) := by
    refine reads_acceptWord.bind ?_
    rintro _ rfl
    refine hbase.bind fun node hnode => ?_
    refine (reads_skipAngles_not rfl).bind fun _ _ => reads_pure ?_
    rw [Node.shapes, hnode]
    rfl
  have hmembers : Reads (classMembers go) depth (punct "\x7d" :: rest) (punct "\x7d" :: rest)
      (Node.shapes · = []) := by
    apply Loops.gather
    apply Loops.last
    apply reads_look
    intro s hs
    rw [State.isAt_eq hs]
    exact reads_pure ⟨rfl, rfl⟩
  dsimp only
  rw [if_pos hextends]
  refine (reads_skipAngles_not rfl).bind fun _ _ => ?_
  refine hheritage.bind fun bases hbases => ?_
  refine (reads_acceptWord_not rfl).bind ?_
  rintro _ rfl
  refine reads_expect.bind fun _ _ => ?_
  refine hmembers.bind fun members hmembers => ?_
  refine reads_expect.bind fun _ _ => ?_
  refine reads_build.imp fun node hnode => ?_
  rw [Node.shapes_eq_map] at hbases hmembers hnode
  rw [hnode, List.map_append, List.map_append, hbases, hmembers]
  rfl

theorem reads_primary_class (h : Reads (classBody go []) depth (word "class" :: qs) rest
    (·.shape = S)) : Reads (primary go) depth (word "class" :: qs) rest (·.shape = S) := by
  apply reads_primary_of_word rfl
  apply reads_here
  intro start
  apply reads_look
  intro s hs
  have hform : wordForm s = .classLiteral := by
    have htext : s.current.text = "class" := State.text_current hs
    simp [wordForm, htext]
  rw [hform]
  exact h

/-- A base is read without a level of nesting. -/
theorem reads_heritageChain (n : Nat) (rest : List Piece) :
    Reads (rule (n + 1) .access) depth (heritageChain n ++ punct "\x7b" :: rest)
      (punct "\x7b" :: rest) (·.shape = heritageShape n) := by
  have hstay (start : Nat) (S : Shape) : Climbs (accessStep (rule n) start) depth
      (punct "\x7b" :: rest) (punct "\x7b" :: rest) S S :=
    Climbs.stay (reads_accessStep_not rfl nofun nofun)
  induction n generalizing rest with
  | zero =>
    let a : Word := ⟨'a', [], by decide, by decide, by decide⟩
    have hfirst : Reads (primary (rule 0)) depth (word "a" :: punct "\x7b" :: rest)
        (punct "\x7b" :: rest) (·.shape = heritageShape 0) := reads_primary_word a rfl
    exact reads_access rfl hfirst fun start => hstay start _
  | succ n ih =>
    have hbase := ih (punct "\x7d" :: punct "\x7b" :: rest) fun start S =>
      Climbs.stay (reads_accessStep_not rfl nofun nofun)
    have hclass := reads_primary_class (reads_classBody hbase)
    have heq : heritageChain (n + 1) ++ punct "\x7b" :: rest = word "class" :: word "extends" ::
        (heritageChain n ++ punct "\x7b" :: punct "\x7d" :: punct "\x7b" :: rest) := by
      simp [heritageChain]
    rw [heq]
    exact reads_access rfl hclass fun start => hstay start _

theorem reads_heritageStatement (n : Nat) :
    Reads (statements (rule (n + 2))) 0 (heritageChain (n + 1)) []
      (Node.shapes · = [heritageShape (n + 1)]) := by
  have heq : heritageChain (n + 1) = word "class" :: word "extends" ::
      (heritageChain n ++ punct "\x7b" :: punct "\x7d" :: []) := rfl
  have hstatement : Reads (rule (n + 2) .statement) 0 (heritageChain (n + 1)) []
      (·.shape = heritageShape (n + 1)) := by
    rw [heq]
    apply reads_nested (by decide)
    apply reads_here
    intro start
    apply reads_look
    intro s hs
    have hform : statementForm s = .classDeclaration := by
      have hkind := State.kind_current hs
      have htext := State.text_current hs
      simp [statementForm, wordStatementForm, hkind, htext, word]
    rw [hform]
    exact reads_classBody (reads_heritageChain n [punct "\x7d"])
  apply Loops.gather
  have hlength : ([] : List Piece).length < (heritageChain (n + 1)).length := Nat.succ_pos _
  refine (Loops.more ?_ hlength ?_ : Loops _ 0 _ [] ([heritageShape (n + 1)] ++ []))
  · apply reads_look
    intro s hs
    rw [State.atEnd_eq hs, if_neg Bool.false_ne_true]
    refine (reads_moved hlength hstatement).bind ?_
    rintro ⟨node, progress⟩ ⟨rfl, hnode⟩
    refine reads_pure ⟨rfl, ?_⟩
    rw [Node.shapes, hnode]
    rfl
  · apply Loops.last
    apply reads_look
    intro s hs
    rw [State.atEnd_nil hs]
    exact reads_pure ⟨rfl, rfl⟩

end Grammar

namespace Node

/-- What a chain of classes stands for has all of them on the way to its last place. -/
theorem exists_classes_of_shape (n : Nat) (above : List (Node × Nat)) (m : Node)
    (hm : m.shape = Grammar.heritageShape n) : ∃ c ∈ Cursor.preorderFrom above m,
      c.classes = (Cursor.ancestorsOf above).countP (·.kind == .classDeclaration) + n := by
  induction n generalizing above m with
  | zero =>
    obtain ⟨serial, kind, span, name, declared, children⟩ := m
    rw [shape, Grammar.heritageShape, Shape.node.injEq] at hm
    obtain ⟨rfl, -⟩ := hm
    exact ⟨_, List.mem_cons_self, by simp [Cursor.classes, Cursor.ancestors, Cursor.kind]⟩
  | succ n ih =>
    obtain ⟨serial, kind, span, name, declared, children⟩ := m
    rw [shape, Grammar.heritageShape, Shape.node.injEq] at hm
    obtain ⟨rfl, -, -, hchildren⟩ := hm
    rw [shapes_eq_map, List.map_eq_singleton_iff] at hchildren
    obtain ⟨base, rfl, hbase⟩ := hchildren
    obtain ⟨c, hc, hclasses⟩ := ih ((_, 0) :: above) base hbase
    refine ⟨c, List.mem_cons_of_mem _ (List.mem_append_left _ hc), ?_⟩
    rw [hclasses]
    simp [Cursor.ancestorsOf, Cursor.kind]
    omega

end Node

namespace Parsed

open Grammar

/-- `class extends ... class extends a { } ... { }`, with `n` classes. -/
def heritageSource (n : Nat) : List Char := Piece.spaced (heritageChain n)

/-- There is no end to the classes on a way that a source without faults can have. -/
theorem exists_classes (n : Nat) : (ofSource (heritageSource (n + 1))).faults = [] ∧
    ∃ c ∈ (ofSource (heritageSource (n + 1))).root.asRoot.preorder, c.classes = n + 1 := by
  obtain ⟨hfaults, hshape⟩ :=
    ofSource_spaced (spelled_heritageChain (n + 1)) (reads_heritageStatement n)
  refine ⟨hfaults, ?_⟩
  change ∃ c ∈ Cursor.preorderFrom [] (ofSource (Piece.spaced (heritageChain (n + 1)))).root, _
  generalize (ofSource (Piece.spaced (heritageChain (n + 1)))).root = root at hshape
  obtain ⟨serial, kind, span, name, declared, children⟩ := root
  rw [Node.shape, Shape.node.injEq] at hshape
  obtain ⟨rfl, -, -, hchildren⟩ := hshape
  rw [Node.shapes_eq_map, List.map_eq_singleton_iff] at hchildren
  obtain ⟨chain, rfl, hchain⟩ := hchildren
  obtain ⟨c, hc, hclasses⟩ := Node.exists_classes_of_shape (n + 1) [(_, 0)] chain hchain
  refine ⟨c, List.mem_cons_of_mem _ (List.mem_append_left _ hc), ?_⟩
  rw [hclasses]
  simp [Cursor.ancestorsOf, Cursor.kind]

theorem classes_le_of_heritage : ∃ c ∈ (ofSource (heritageSource 257)).root.asRoot.preorder,
    c.classes = 257 ∧ c.classes ≤ maxNesting + c.freeSteps := by
  obtain ⟨-, c, hc, hclasses⟩ := exists_classes 256
  exact ⟨c, hc, hclasses, classes_le_maxNesting_add_freeSteps _ c hc⟩

/-- The classes on a way are not always as few as the nesting levels. -/
theorem classes_exceed_maxNesting : ¬ ∀ (source : List Char) (c : Cursor),
    c ∈ (ofSource source).root.asRoot.preorder → c.classes ≤ maxNesting := by
  intro h
  obtain ⟨-, c, hc, hclasses⟩ := exists_classes maxNesting
  have hle := h _ c hc
  omega

end Parsed

end Subscriptions
