import Subscriptions.Proofs.Core.Statements
import Subscriptions.Proofs.Lockstep.Statements
import Subscriptions.Proofs.Syntax.Shifting

namespace Subscriptions

theorem Token.text_of_ink {t u : Token} (h : t.ink = u.ink) : t.text = u.text :=
  congrArg (Piece.text ∘ Ink.piece) h

theorem textOfTokens_of_inks {ts us : List Token} (h : ts.map Token.ink = us.map Token.ink) :
    textOfTokens ts = textOfTokens us := by
  cases ts with
  | nil => rw [List.map_eq_nil_iff.mp h.symm]
  | cons t ts =>
    obtain ⟨u, us, rfl, hu, hus⟩ := List.map_eq_cons_iff.mp h.symm
    have htexts (vs : List Token) : vs.map (fun v => v.lead ++ v.text) =
        (vs.map Token.ink).map fun i => i.lead ++ i.piece.text := by
      rw [List.map_map]
      rfl
    rw [textOfTokens, textOfTokens, htexts, htexts us, hus, Token.text_of_ink hu]

namespace Grammar

variable {ns ms cs ds : List Node} {s t : State}

theorem shape_node (kind : Kind) (start : Nat) (name : Option Name) (declared : Option String) :
    (s.node kind start name declared cs).shape =
      .node kind (name.map Name.text) declared (cs.map Node.shape) := by
  rw [State.node, Node.shape, Node.shapes_eq_map]

theorem text_of_rel {a b : Option Name} (h : Option.Rel (fun a b => a.text = b.text) a b) :
    a.map Name.text = b.map Name.text := by
  cases h with
  | none => rfl
  | some h => exact congrArg some h

theorem forall₂_ink_iff {ts us : List Token} :
    List.Forall₂ (fun t u => t.ink = u.ink) ts us ↔ ts.map Token.ink = us.map Token.ink := by
  rw [← List.forall₂_eq_eq_eq, List.forall₂_map_left_iff, List.forall₂_map_right_iff]

theorem text_splitAt {ts us : List Token} (h : List.Forall₂ (fun t u => t.ink = u.ink) ts us)
    (n : Nat) : textOfTokens (ts.splitAt n).1 = textOfTokens (us.splitAt n).1 := by
  rw [List.splitAt_eq, List.splitAt_eq]
  exact textOfTokens_of_inks (forall₂_ink_iff.mp (List.forall₂_take n h))

/-- Nodes of the same shapes are pending, and the same has been reported. -/
structure Moved (ns ms : List Node) (s t : State) : Prop where
  shapes : ns.map Node.shape = ms.map Node.shape
  messages : s.faults.map Fault.message = t.faults.map Fault.message

/-- A node each takes the place of the last ones pending. -/
theorem Moved.concat {s' t' : State} (h : Moved (ns ++ cs) (ms ++ ds) s t)
    (hlength : cs.length = ds.length) (hs : s'.faults = s.faults) (ht : t'.faults = t.faults)
    {n m : Node} (hnm : cs.map Node.shape = ds.map Node.shape → n.shape = m.shape) :
    Moved (ns ++ [n]) (ms ++ [m]) s' t' := by
  have hshapes := h.shapes
  rw [List.map_append, List.map_append] at hshapes
  obtain ⟨hns, hcs⟩ := List.append_inj' hshapes (by rwa [List.length_map, List.length_map])
  refine ⟨?_, ?_⟩
  · rw [List.map_append, List.map_append, hns, List.map_singleton, List.map_singleton, hnm hcs]
  · rw [hs, ht, h.messages]

/-- What two parses of the same tokens have in common, wherever these stand. -/
def moving : Pairing where
  token t u := t.ink = u.ink
  place _ _ := True
  name a b := a.text = b.text
  memberName a b := a.text = b.text
  declared a b := a = b
  holds := Moved
  piece h := congrArg Ink.piece h
  place_start _ := trivial
  name_word h := Token.text_of_ink h
  memberName_unquoted h := congrArg unquoted (Token.text_of_ink h)
  memberName_computed h _ _ := text_splitAt h.rest _
  declared_none := rfl
  declared_read n h := by rw [typeText, typeText, text_splitAt h.rest n]
  holds_read n h := ⟨h.holds.shapes, h.holds.messages⟩
  holds_report {_ _ _ _ f} h _ :=
    ⟨h.holds.shapes, congrArg₂ List.cons (f.message_put _).symm h.holds.messages⟩
  holds_build {_ _ _ _ _ _ kind _ _ _ _ _ _} h hlength _ _ hname hdeclared := by
    rw [Matching.named, ite_self] at hname
    refine h.holds.concat hlength (by rfl) (by rfl) fun hcs => ?_
    rw [shape_node, shape_node, text_of_rel hname, hdeclared, hcs]
  holds_access {_ _ n m s t _ _} h _ _ := by
    have hname := Token.text_of_ink h.current
    refine h.holds.concat rfl (by rfl) (by rfl) fun hcs => ?_
    rw [shape_node, shape_node, hcs, Option.map_some, Option.map_some, State.word, State.word,
      hname]
  holds_alloc _ _ h := ⟨h.holds.shapes, h.holds.messages⟩
  holds_shorthand _ h hlength _ hname := by
    refine h.holds.concat hlength (by rfl) (by rfl) fun hcs => ?_
    rw [shape_node, shape_node, List.map_cons, List.map_cons, hcs, Option.map_some, Option.map_some,
      shorthand, shorthand, Node.shape, Node.shape, Option.map_some, Option.map_some, hname]

section
variable {M : Pairing} {go : Recur} {depth : Nat} {n : Node} {s' : State}

theorem statements_run (go : Recur) (depth : Nat) (s : State) :
    statements go depth s = turns (s.rest.length + 1) (Core.sourceTurn go) depth s := rfl

theorem sourceTurn_run (h : go .statement depth s = some (n, s'))
    (hlength : s'.rest.length < s.rest.length) :
    Core.sourceTurn go depth s = some (([n], true), s') := by
  have hend : s.atEnd = false := by
    rw [State.atEnd, List.isEmpty_eq_false_iff, ← List.length_pos_iff]
    omega
  have hprogress : (s'.rest.length != s.rest.length) = true := bne_iff_ne.mpr (Nat.ne_of_lt hlength)
  have hmoved : moved (go .statement) depth s = some ((n, true), s') := by
    simp only [moved, Parse.bind_run, look, Option.bind_some, h, hprogress, Parse.pure_run]
  simp [Core.sourceTurn, Core.statementTurn, Parse.bind_run, look, hend, hmoved]

theorem locked_sourceTurn (hgo : Paired M go) (h : M.Twin ns ms s t) :
    Locked (Core.sourceTurn go) (Core.sourceTurn go) s t (M.Turned ns ms) :=
  locked_look (locked_ite h.atEnd (fun _ => locked_stop h) fun _ => locked_statementTurn hgo h)

/-- A statement that is read first comes first, and the turns that are left go on behind it. -/
theorem statements_first {ns : List Node} {s₁ s₂ : State}
    (hfirst : go .statement depth s = some (n, s₁)) (hlength : s₁.rest.length < s.rest.length)
    (hs : statements go depth s = some (ns, s₂)) : ∃ later, ns = n :: later ∧
      turns s.rest.length (Core.sourceTurn go) depth s₁ = some (later, s₂) := by
  rw [statements_run, turns, Parse.bind_run, sourceTurn_run hfirst hlength] at hs
  simp only [Option.bind_some, if_true, Parse.bind_run, Option.bind_eq_some_iff] at hs
  obtain ⟨⟨later, s₃⟩, hlater, heq⟩ := hs
  obtain ⟨rfl, rfl⟩ := Prod.mk.inj (Option.some.inj heq)
  exact ⟨later, rfl, hlater⟩

/-- More turns than there are tokens come to what the statements come to. -/
theorem turns_of_statements {ms : List Node} {t₂ : State} {k : Nat}
    (h : statements go depth t = some (ms, t₂)) (hk : t.rest.length < k) :
    turns k (Core.sourceTurn go) depth t = some (ms, t₂) :=
  turns_le hk (le_refl (Core.sourceTurn go)) depth t _ h

theorem locked_sourceTurns (k fuel : Nat) (h : M.Twin ns ms s t) :
    Locked (turns k (Core.sourceTurn (rule fuel))) (turns k (Core.sourceTurn (rule fuel))) s t
      (M.Many ns ms) :=
  locked_manyTurns k (fun _ _ _ _ h => locked_sourceTurn (paired_rule M fuel) h) h

/-- Behind a statement that is read first the statements are read as they are without it. -/
theorem statements_behind {fuel : Nat} {ns ms : List Node} {s₁ s₂ t₂ : State}
    (hfirst : rule fuel .statement 0 s = some (n, s₁)) (hlength : s₁.rest.length < s.rest.length)
    (htwin : moving.Twin [] [] s₁ t) (hs : statements (rule fuel) 0 s = some (ns, s₂))
    (ht : statements (rule fuel) 0 t = some (ms, t₂)) :
    ns.map Node.shape = n.shape :: ms.map Node.shape ∧
      s₂.faults.map Fault.message = t₂.faults.map Fault.message := by
  obtain ⟨later, rfl, hlater⟩ := statements_first hfirst hlength hs
  -- the turns left for what follows are at least those that it takes by itself
  have hturns : t.rest.length < s.rest.length := by rwa [htwin.rest_length]
  have hmore := turns_of_statements ht hturns
  have hmoved := (locked_sourceTurns _ fuel htwin 0 _ _ _ _ hlater hmore).holds
  exact ⟨congrArg (_ :: ·) hmoved.shapes, hmoved.messages⟩

end

end Grammar

namespace Parsed

open Grammar Scanner Ink

/-- A source behind the tokens of a statement is left when these are read. -/
theorem start_behind {is : List Ink} {rest : List Char} (h : Written [] is [] rest)
    (hlast : is.getLast?.map Ink.piece = some (.punct ";")) :
    (∃ ts us, (start (chars is ++ rest)).rest = ts ++ us ∧ ts.map Token.ink = is ∧
      us.map Token.ink = (start rest).rest.map Token.ink) ∧
    (start (chars is ++ rest)).last.ink = (start rest).last.ink ∧
    (tokenize (chars is ++ rest)).faults.map Fault.message =
      (tokenize rest).faults.map Fault.message := by
  obtain ⟨ts, later, hts, hnone, htokens, htokens', hmessages⟩ := tokenize_behind h hlast
  have hsplit := tokens_eq_start (chars is ++ rest)
  rw [htokens] at hsplit ⊢
  rw [tokens_eq_start rest, List.map_append] at htokens'
  obtain ⟨us, es, hlater, hus, hes⟩ := List.map_eq_append_iff.mp htokens'
  obtain ⟨e, es, rfl, he, hnil⟩ := List.map_eq_cons_iff.mp hes
  obtain rfl := List.map_eq_nil_iff.mp hnil
  dsimp only at hsplit
  rw [hlater, ← List.append_assoc] at hsplit
  obtain ⟨hrest, hend⟩ := List.append_inj' hsplit rfl
  exact ⟨⟨ts, us, hrest.symm, hts, hus⟩, by rw [← (List.cons.inj hend).1, he], hmessages⟩

/-- The source is scanned without a fault, as these pieces. -/
def Consists (source : List Char) (ps : List Piece) : Prop :=
  (tokenize source).faults = [] ∧ (start source).pieces = ps

section
variable {source : List Char} {ts : List Token} {e : Token} {ps : List Piece} {fuel : Nat}
  {shapes : List Shape}

theorem consists_of_tokens (htokens : tokenize source = ⟨ts ++ [e], []⟩)
    (hts : ts.map Token.piece = ps) : Consists source ps := by
  have hsplit := tokens_eq_start source
  rw [htokens] at hsplit
  obtain ⟨hrest, -⟩ := List.append_inj' hsplit rfl
  exact ⟨by rw [htokens], by rw [← hts, hrest]; rfl⟩

theorem consists_written {is : List Ink} {b : List Nat} (h : Written [] is b []) :
    Consists (chars is) (is.map Ink.piece) := by
  obtain ⟨ts, hts, -, htokens⟩ := tokenize_written h
  rw [List.append_nil] at htokens
  refine consists_of_tokens htokens ?_
  rw [← hts, List.map_map]
  rfl

/-- A source whose pieces read as statements is read without a fault. -/
theorem Consists.reads (h : Consists source ps)
    (hreads : Reads (statements (rule fuel)) 0 ps [] (Node.shapes · = shapes)) :
    (ofSource source).faults = [] ∧
      (ofSource source).root.shape = .node .sourceFile none none shapes := by
  obtain ⟨hfaults, hpieces⟩ := h
  have htokens : tokenize source = ⟨(start source).rest ++ [(start source).last], []⟩ := by
    rw [← tokens_eq_start source, ← hfaults]
  have hnone : ∀ t ∈ (start source).rest, t.isEnd = false := by
    simp [start]
  exact ofSource_of_tokens htokens hpieces (isEnd_last_start source) hnone hreads

end

/-- With fuel enough a source is its statements below a root. -/
theorem exists_statements (source : List Char) : ∃ ns s,
    (∀ fuel, fuelFor source ≤ fuel →
      statements (rule fuel) 0 (start source) = some (ns, s)) ∧
    ofSource source = s.finish source ns := by
  have hprogram (fuel : Nat) : run fuel source =
      program (rule fuel) (byteLength source) 0 (start source) := rfl
  obtain ⟨root, s', hrun, -⟩ := exists_run source
  have hsource := ofSource_of_run hrun
  have hfirst := hrun
  rw [hprogram, program_run, Option.map_eq_some_iff] at hfirst
  obtain ⟨⟨ns, s⟩, hns, heq⟩ := hfirst
  obtain ⟨rfl, rfl⟩ := Prod.mk.inj heq
  refine ⟨ns, s, fun fuel hfuel => ?_, hsource⟩
  have hstatements : statements (rule (fuelFor source)) ≤ statements (rule fuel) := by
    dsimp only [statements]
    gcongr
    exact rule_le hfuel .statement
  exact hstatements 0 _ _ hns

/-- A statement that ends with a semicolon, in front of any source: it comes first, and what follows
reads as it does by itself, with the same faults. -/
theorem ofSource_behind {is : List Ink} {rest : List Char} {fuel : Nat} {S : Shape}
    (hwritten : Written [] is [] rest) (hlast : is.getLast?.map Ink.piece = some (.punct ";"))
    (hreads : ∀ js : List Ink, Reads (rule fuel .statement) 0 (is ++ js) js (·.shape = S)) :
    (ofSource (chars is ++ rest)).faults.map Fault.message =
        (ofSource rest).faults.map Fault.message ∧
      (ofSource (chars is ++ rest)).root.shape =
        .node .sourceFile none none (S :: Node.shapes (ofSource rest).root.children) := by
  obtain ⟨⟨ts, us, hrest, hts, hus⟩, hlastInk, hscan⟩ := start_behind hwritten hlast
  obtain ⟨ns, s₂, hns, hsource⟩ := exists_statements (chars is ++ rest)
  obtain ⟨ms, t₂, hms, hsource'⟩ := exists_statements rest
  have hseen : (start (chars is ++ rest)).seen = is ++ us.map Token.ink := by
    rw [State.seen, hrest, List.map_append, ← hts]
    rfl
  have hend := isEnd_last_start (chars is ++ rest)
  obtain ⟨n, s₁, hfirst, hleft, -, hkept, hfaults, hshape⟩ := hreads (us.map Token.ink) _ hseen hend
  have hlength : s₁.rest.length < (start (chars is ++ rest)).rest.length := by
    have hne : is ≠ [] := by
      rintro rfl
      cases hlast
    have hpos := List.length_pos_iff.mpr hne
    rw [State.length_rest hseen, State.length_rest hleft, List.length_append]
    omega
  have htwin : moving.Twin [] [] s₁ (start rest) := by
    exact ⟨forall₂_ink_iff.mpr (hleft.trans hus), (congrArg Token.ink hkept).trans hlastInk,
      hkept ▸ hend, rfl, rfl, congrArg _ hfaults⟩
  let more := max fuel (max (fuelFor (chars is ++ rest)) (fuelFor rest))
  have hfirst' := rule_le (show fuel ≤ more by omega) .statement 0 _ _ hfirst
  obtain ⟨hshapes, hmessages⟩ := statements_behind hfirst' hlength htwin (hns more (by omega))
    (hms more (by omega))
  rw [hsource, hsource']
  dsimp only [State.finish]
  constructor
  · rw [List.map_append, List.map_append, List.map_reverse, List.map_reverse, hscan, hmessages]
  · rw [Node.shape, Node.shapes_eq_map, hshapes, hshape, Node.shapes_eq_map]
    rfl

end Parsed

end Subscriptions
