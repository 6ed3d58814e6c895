import Subscriptions.Proofs.Core.Stopping
import Subscriptions.Proofs.Lockstep.Following

namespace Subscriptions

mutual
/-- The node further on in a source, with `j` nodes numbered before it. -/
def Node.moved (k j : Nat) : Node → Node
  | ⟨serial, kind, span, name, declared, children⟩ =>
    ⟨serial + j, kind, span.moved k, name.map (Name.moved k), declared, Node.movedAll k j children⟩

def Node.movedAll (k j : Nat) : List Node → List Node
  | [] => []
  | c :: cs => c.moved k j :: Node.movedAll k j cs
end

theorem Node.movedAll_eq_map (k j : Nat) (ns : List Node) :
    Node.movedAll k j ns = ns.map (Node.moved k j) := by
  induction ns with
  | nil => rfl
  | cons n ns ih => rw [Node.movedAll, ih, List.map_cons]

theorem textOfTokens_moved (k : Nat) (ts : List Token) :
    textOfTokens (ts.map (Token.moved k)) = textOfTokens ts := by
  apply textOfTokens_of_inks
  rw [List.map_map]
  rfl

namespace Grammar

variable {k j : Nat} {own : List Fault} {ns ms cs ds : List Node} {s t : State}

/-- The second parse is behind `k` bytes, `j` nodes and some faults that the first one has not. -/
structure Shifted (k j : Nat) (own : List Fault) (ns ms : List Node) (s t : State) : Prop where
  nodes : ms = ns.map (Node.moved k j)
  built : t.built = s.built + j
  faults : t.faults = s.faults.map (Fault.moved k) ++ own
  /-- A node ends where the last token read does, or where it starts. -/
  stop : ∀ start, max t.readTo (start + k) = max s.readTo start + k

theorem forall₂_moved_iff {ts us : List Token} :
    List.Forall₂ (fun t u => u = t.moved k) ts us ↔ us = ts.map (Token.moved k) := by
  rw [← List.forall₂_eq_eq_eq, List.forall₂_map_right_iff]
  constructor <;> exact fun h => h.flip

namespace Shifted

theorem node (h : Shifted k j own ns ms s t) (kind : Kind) (start : Nat) (name : Option Name)
    (declared : Option String) : t.node kind (start + k) (name.map (Name.moved k)) declared
      (cs.map (Node.moved k j)) = (s.node kind start name declared cs).moved k j := by
  rw [State.node, State.node, Node.moved, Node.movedAll_eq_map, h.built, h.stop]
  rfl

/-- A node each takes the place of the last ones pending. -/
theorem concat {s' t' : State} {n m : Node} (h : Shifted k j own (ns ++ cs) (ms ++ ds) s t)
    (hlength : cs.length = ds.length) (hbuilt : t'.built = s'.built + j)
    (hs : s'.faults = s.faults) (ht : t'.faults = t.faults)
    (hstop : ∀ start, max t'.readTo (start + k) = max s'.readTo start + k)
    (hnode : ds = cs.map (Node.moved k j) → m = n.moved k j) :
    Shifted k j own (ns ++ [n]) (ms ++ [m]) s' t' := by
  have hnodes := h.nodes
  rw [List.map_append] at hnodes
  obtain ⟨hms, hds⟩ := List.append_inj' hnodes (by rw [List.length_map, hlength])
  refine ⟨?_, hbuilt, by rw [ht, hs, h.faults], hstop⟩
  rw [hms, hnode hds, List.map_append, List.map_singleton]

/-- Tokens that are read are so in both. -/
theorem readBy (h : Shifted k j own ns ms s t) (hrest : t.rest = s.rest.map (Token.moved k))
    (n : Nat) : Shifted k j own ns ms (s.readBy n) (t.readBy n) := by
  refine ⟨h.nodes, h.built, h.faults, fun start => ?_⟩
  simp only [State.readBy, State.read, List.splitAt_eq, hrest, ← List.map_take, List.getLast?_map]
  cases (s.rest.take n).getLast? with
  | none => exact h.stop start
  | some u =>
    change max (u.span.stop + k) (start + k) = max u.span.stop start + k
    omega

end Shifted

/-- No type stays no type. -/
theorem declared_none_moved : (none : Option String) = none := rfl

theorem rel_moved {a b : Option Name} (h : Option.Rel (fun a b => b = a.moved k) a b) :
    b = a.map (Name.moved k) := by
  cases h with
  | none => rfl
  | some h => exact congrArg some h

/-- What two parses of the same tokens have in common, the second further on in its source. -/
def shifting (k j : Nat) (own : List Fault) : Pairing where
  token t u := u = t.moved k
  place a b := b = a + k
  name a b := b = a.moved k
  memberName a b := b = a.moved k
  declared a b := b = a
  holds := Shifted k j own
  piece h := by
    subst h
    rfl
  place_start h := by
    subst h
    rfl
  name_word h := by
    subst h
    rfl
  memberName_unquoted h := by
    subst h
    rfl
  memberName_computed {_ _ s t n} h _ _ := by
    have hrest := forall₂_moved_iff.mp h.rest
    have hcurrent := h.current
    have hstop := (h.holds.readBy hrest n).stop s.current.span.start
    rw [State.computed, State.computed, Name.moved, Span.moved, ← hstop, hcurrent, hrest,
      List.splitAt_eq, List.splitAt_eq, ← List.map_take, textOfTokens_moved]
    rfl
  declared_none := declared_none_moved
  declared_read n h := by
    rw [forall₂_moved_iff.mp h.rest, List.splitAt_eq, List.splitAt_eq, ← List.map_take, typeText,
      typeText, textOfTokens_moved]
  holds_read n h := h.holds.readBy (forall₂_moved_iff.mp h.rest) n
  holds_report {_ _ s t f} h hf := by
    refine ⟨h.holds.nodes, h.holds.built, ?_, h.holds.stop⟩
    have hcurrent : t.current = s.current.moved k := h.current
    rw [State.report, State.report, h.holds.faults, List.map_cons, Fault.moved, hf.span, hcurrent]
    rfl
  holds_build {_ _ _ _ s t _ _ _ _ _ _ _} h hlength _ hstart hname hdeclared := by
    rw [Matching.named, ite_self] at hname
    refine h.holds.concat hlength ?_ (by rfl) (by rfl) h.holds.stop fun hds => ?_
    · rw [State.put, State.put, State.built_alloc, State.built_alloc, h.holds.built, Nat.add_right_comm]
    · rw [hstart, rel_moved hname, hdeclared, hds, h.holds.node]
  holds_access {_ _ n m s t _ _} h _ hstart := by
    have hread := h.holds.readBy (forall₂_moved_iff.mp h.rest) 1
    have hcurrent : t.current = s.current.moved k := h.current
    refine h.holds.concat rfl ?_ (by rfl) (by rfl) hread.stop fun hds => ?_
    · rw [State.put, State.put, State.built_alloc, State.built_alloc, hread.built, Nat.add_right_comm]
    · rw [hstart, hds, ← hread.node, State.word, hcurrent]
      rfl
  holds_alloc n m h := by
    refine ⟨h.holds.nodes, ?_, h.holds.faults, h.holds.stop⟩
    rw [State.built_alloc, State.built_alloc, h.holds.built, Nat.add_right_comm]
  holds_shorthand {_ _ _ _ s₀ t₀ s t _ _ name name'} h₀ h hlength hstart hname := by
    refine h.holds.concat hlength ?_ (by rfl) (by rfl) h.holds.stop fun hds => ?_
    · rw [State.put, State.put, State.built_alloc, State.built_alloc, h.holds.built, Nat.add_right_comm]
    · subst hstart hname
      have hshorthand : shorthand t₀.built (name.moved k) = (shorthand s₀.built name).moved k j := by
        rw [shorthand, shorthand, h₀.holds.built]
        rfl
      rw [← h.holds.node, hds, hshorthand]
      rfl

theorem turns_end {go : Recur} {n depth : Nat} {r : List Node × State} (hs : s.rest = [])
    (h : turns n (Core.sourceTurn go) depth s = some r) : r = ([], s) := by
  cases n with
  | zero => cases h
  | succ n =>
    have hend : s.atEnd = true := by
      rw [State.atEnd, hs]
      rfl
    simp only [turns, Core.sourceTurn, Parse.bind_run, look, Option.bind_some, hend, if_true,
      Parse.pure_run, Bool.false_eq_true, if_false, Option.some.injEq] at h
    exact h.symm

/-- Statements that come behind a line feed are those that they are without what comes before it. -/
theorem shifted_of_turns {fuel n : Nat} {lead : String} {s' t' : State}
    (h : Shifted k j own [] [] s t) (hrest : t.rest = s.rest.map (Token.moved k))
    (hlast : s.rest ≠ [] → t.last = s.last.moved k) (hend : s.last.isEnd = true)
    (hnone : ∀ u ∈ s.rest, u.isEnd = false)
    (hs : statements (rule (fuel + 5)) 0 s = some (ns, s'))
    (ht : turns n (Core.sourceTurn (rule (fuel + 5))) 0 (t.broken lead) = some (ms, t'))
    (hn : s.rest.length < n) : Shifted k j own ns ms s' t' := by
  have hnone' : ∀ u ∈ t.rest, u.isEnd = false := by
    rw [hrest, List.forall_mem_map]
    exact hnone
  rw [turns_broken n lead t hnone'] at ht
  have hturns := turns_of_statements hs hn
  by_cases hnil : s.rest = []
  · -- the line feed is in front of the end, which no turn looks at
    obtain ⟨rfl, rfl⟩ := Prod.mk.inj (turns_end hnil hturns)
    obtain ⟨rfl, rfl⟩ := Prod.mk.inj (turns_end (by rw [hrest, hnil, List.map_nil]) ht)
    exact h
  · have htwin : (shifting k j own).Twin [] [] s t :=
      ⟨forall₂_moved_iff.mpr hrest, hlast hnil, hend, rfl, h⟩
    exact (locked_sourceTurns n (fuel + 5) htwin 0 _ _ _ _ hturns ht).holds

end Grammar

namespace Ink

def tokens : Nat → List Ink → List Token
  | _, [] => []
  | pos, i :: is =>
    let start := pos + byteLength i.lead.toList
    let stop := start + byteLength i.piece.text.toList
    ⟨i.piece.kind, i.lead, i.piece.text, ⟨start, stop⟩, i.piece.newlineBefore⟩ :: tokens stop is

@[simp] theorem length_tokens (pos : Nat) (is : List Ink) : (tokens pos is).length = is.length := by
  induction is generalizing pos with
  | nil => rfl
  | cons i is ih => rw [tokens, List.length_cons, List.length_cons, ih]

theorem tokens_append (pos : Nat) (is js : List Ink) :
    tokens pos (is ++ js) = tokens pos is ++ tokens (pos + byteLength (chars is)) js := by
  induction is generalizing pos with
  | nil => rfl
  | cons i is ih =>
    simp only [List.cons_append, tokens, ih, chars_cons, byteLength_append, Nat.add_assoc]

end Ink

/-- Where tokens stand is told by what is seen of them. -/
theorem Scanner.Tiled.eq_tokens {pos : Nat} {cs : List Char} {ts us : List Token}
    (h : Tiled pos cs (ts ++ us)) (hus : us ≠ []) : ts = Ink.tokens pos (ts.map Token.ink) := by
  induction ts generalizing pos cs with
  | nil => rfl
  | cons t ts ih =>
    obtain ⟨lead, part, rest, -, hlead, htext, hspan, hlater⟩ := h.first
    have hne : ts ++ us ≠ [] := fun hnil => hus (List.append_eq_nil_iff.mp hnil).2
    obtain ⟨-, htiled⟩ := hlater.resolve_left fun hend => hne hend.2
    have hspan' : t.span = ⟨pos + byteLength t.lead.toList,
        pos + byteLength t.lead.toList + byteLength t.text.toList⟩ := by
      rw [hspan, hlead, htext, String.toList_ofList, String.toList_ofList, byteLength_append,
        Nat.add_assoc]
    have hlater' := ih htiled
    rw [hspan'] at hlater'
    rw [List.map_cons, Ink.tokens]
    dsimp only [Token.ink, Token.piece]
    rw [← hspan', ← hlater']

namespace Parsed

open Grammar Scanner Ink

section
variable {is : List Ink} {source : List Char} {n : Node} {own : List Fault} {fuel : Nat}

/-- Its tokens come behind those of the statement, which stand where these tell. -/
theorem start_nextLine (h : Written [] is [] ('\n' :: source))
    (hlast : is.getLast?.map Ink.piece = some (.punct ";")) :
    let k := byteLength (chars is) + 1
    let whole := chars is ++ '\n' :: source
    (∃ lead, (start whole).rest = Ink.tokens 0 is ++
      ((start source).rest.map (Token.moved k)).modifyHead (Token.broken lead)) ∧
    ((start source).rest ≠ [] → (start whole).last = (start source).last.moved k) ∧
    (tokenize whole).faults = (tokenize source).faults.map (Fault.moved k) := by
  intro k whole
  obtain ⟨ts, lead, hts, -, htokens⟩ := tokenize_nextLine h hlast
  have hfaults : (tokenize whole).faults = (tokenize source).faults.map (Fault.moved k) := by
    rw [htokens]
    rfl
  have hscan : (tokenize whole).tokens = ts ++ (((start source).rest ++ [(start source).last]).map
      (Token.moved k)).modifyHead (Token.broken lead) := by
    rw [htokens, ← tokens_eq_start source]
    rfl
  have htiled := tiled_tokenize whole
  rw [hscan] at htiled
  have hplaced : ts = Ink.tokens 0 is := by
    rw [← hts]
    refine htiled.eq_tokens ?_
    rw [ne_eq, List.modifyHead_eq_nil_iff]
    simp
  have hsplit := tokens_eq_start whole
  rw [hscan, hplaced] at hsplit
  -- of no tokens at all the line feed comes before the end
  cases hrest : (start source).rest with
  | nil =>
    rw [hrest] at hsplit
    obtain ⟨hfront, -⟩ := List.append_inj' hsplit rfl
    exact ⟨⟨lead, by rw [← hfront]; simp⟩, fun hne => absurd rfl hne, hfaults⟩
  | cons t us =>
    rw [hrest, List.cons_append, List.map_cons, List.modifyHead_cons, List.map_append,
      ← List.cons_append, ← List.append_assoc] at hsplit
    obtain ⟨hfront, hend⟩ := List.append_inj' hsplit rfl
    exact ⟨⟨lead, hfront.symm⟩, fun _ => (List.cons.inj hend).1.symm, hfaults⟩

/-- A statement with a semicolon, in the line before any source: it comes first, and what follows
reads as it does by itself, as much further on. -/
theorem ofSource_nextLine {arena : Arena} (hwritten : Written [] is [] ('\n' :: source))
    (hlast : is.getLast?.map Ink.piece = some (.punct ";"))
    (hrun : ∀ us last, rule fuel .statement 0 ⟨Ink.tokens 0 is ++ us, last, 0, {}, []⟩ =
      some (n, ⟨us, last, byteLength (chars is), arena, own⟩))
    (hbuilt : arena.size = n.serial + 1) :
    let k := byteLength (chars is) + 1
    let whole := ofSource (chars is ++ '\n' :: source)
    whole.root.children = n :: (ofSource source).root.children.map (Node.moved k (n.serial + 1)) ∧
    ∃ found, (ofSource source).faults = (tokenize source).faults ++ found ∧
      whole.faults =
        (tokenize source).faults.map (Fault.moved k) ++ own.reverse ++ found.map (Fault.moved k) := by
  intro k whole
  obtain ⟨⟨lead, hrest⟩, hend, hscan⟩ := start_nextLine hwritten hlast
  obtain ⟨ns, s₂, hns, hsource⟩ := exists_statements (chars is ++ '\n' :: source)
  obtain ⟨ms, t₂, hms, hsource'⟩ := exists_statements source
  let more := max fuel (max (fuelFor (chars is ++ '\n' :: source)) (fuelFor source)) + 5
  let last := (start (chars is ++ '\n' :: source)).last
  let behind : State := ⟨(start source).rest.map (Token.moved k), last, byteLength (chars is),
    arena, own⟩
  have hstart : start (chars is ++ '\n' :: source) =
      ⟨Ink.tokens 0 is ++ (behind.broken lead).rest, last, 0, {}, []⟩ := by
    rw [State.broken, ← hrest]
    rfl
  have hfirst : rule more .statement 0 (start (chars is ++ '\n' :: source)) =
      some (n, behind.broken lead) := by
    rw [hstart]
    exact rule_le (show fuel ≤ more by omega) .statement 0 _ _ (hrun _ _)
  have hlength : (behind.broken lead).rest.length = (start source).rest.length := by
    rw [State.length_broken, List.length_map]
  have hlonger : (start source).rest.length < (start (chars is ++ '\n' :: source)).rest.length := by
    have hne : is ≠ [] := by
      rintro rfl
      cases hlast
    have hpos := List.length_pos_iff.mpr hne
    simp [hrest, hpos]
  obtain ⟨later, rfl, hlater⟩ := statements_first hfirst (by rwa [hlength]) (hns more (by omega))
  have hshifted : Shifted k (n.serial + 1) own [] [] (start source) behind :=
    ⟨rfl, hbuilt.trans (Nat.zero_add _).symm, rfl, fun start => by
      change max (byteLength (chars is)) (start + k) = max 0 start + k
      omega⟩
  have hnone : ∀ t ∈ (start source).rest, t.isEnd = false := by
    simp [start]
  have hfound := shifted_of_turns hshifted rfl hend (isEnd_last_start source) hnone
    (hms more (by omega)) hlater hlonger
  dsimp only [whole]
  rw [hsource, hsource']
  dsimp only [State.finish]
  refine ⟨congrArg (n :: ·) hfound.nodes, t₂.faults.reverse, rfl, ?_⟩
  rw [hscan, hfound.faults, List.reverse_append, List.map_reverse, List.append_assoc]

end

end Parsed

end Subscriptions
