import Subscriptions.Proofs.Grammar.Termination
import Subscriptions.Proofs.Syntax.Touching

namespace Subscriptions

/-- What a node stands for with all below it, its place and number left out. -/
inductive Shape
  | node (kind : Kind) (name declared : Option String) (children : List Shape)

mutual
def Shape.decEq : (S T : Shape) → Decidable (S = T)
  | .node kind name declared children, .node kind' name' declared' children' =>
    have : Decidable (children = children') := Shape.decEqEach children children'
    decidable_of_iff (kind = kind' ∧ name = name' ∧ declared = declared' ∧ children = children')
      (by rw [Shape.node.injEq])

def Shape.decEqEach : (Ss Ts : List Shape) → Decidable (Ss = Ts)
  | [], [] => isTrue rfl
  | [], _ :: _ => isFalse nofun
  | _ :: _, [] => isFalse nofun
  | S :: Ss, T :: Ts =>
    have : Decidable (S = T) := Shape.decEq S T
    have : Decidable (Ss = Ts) := Shape.decEqEach Ss Ts
    decidable_of_iff (S = T ∧ Ss = Ts) (by rw [List.cons.injEq])
end

instance : DecidableEq Shape := Shape.decEq

mutual
def Node.shape : Node → Shape
  | ⟨_, kind, _, name, declared, children⟩ =>
    .node kind (name.map Name.text) declared (Node.shapes children)

def Node.shapes : List Node → List Shape
  | [] => []
  | c :: cs => c.shape :: Node.shapes cs
end

theorem Node.shapes_eq_map (ns : List Node) : Node.shapes ns = ns.map Node.shape := by
  induction ns with
  | nil => rfl
  | cons n ns ih => rw [Node.shapes, ih, List.map_cons]

namespace Piece

def isPunct (q : Piece) (p : String) : Bool := q.kind == .punct && q.text == p

def isPunctOf (q : Piece) (ps : List String) : Bool := q.kind == .punct && ps.contains q.text

def isTheWord (q : Piece) (w : String) : Bool := q.kind == .word && q.text == w

def isWord (q : Piece) : Bool := q.kind == .word

section
variable {q : Piece} {p : String} {ps ps' : List String}

theorem isPunctOf_of_subset (h : q.isPunctOf ps = false) (hsub : ps' ⊆ ps) :
    q.isPunctOf ps' = false := by
  rw [isPunctOf, Bool.and_eq_false_imp] at h ⊢
  intro hkind
  have hnone := h hkind
  rw [← Bool.not_eq_true, List.contains_iff_mem] at hnone ⊢
  exact fun hmem => hnone (hsub hmem)

theorem isPunct_of_isPunctOf (h : q.isPunctOf ps = false) (hp : p ∈ ps) : q.isPunct p = false := by
  rw [isPunctOf, Bool.and_eq_false_imp] at h
  rw [isPunct, Bool.and_eq_false_imp]
  intro hkind
  have hnone := h hkind
  rw [beq_eq_false_iff_ne]
  rintro rfl
  rw [List.contains_iff_mem.mpr hp] at hnone
  cases hnone

end

end Piece

namespace Grammar

open Piece

/-- What is seen of a token: its piece, and perhaps more. -/
class Seen (V : Type) where
  see : Token → V
  piece : V → Piece
  piece_see (t : Token) : piece (see t) = t.piece

instance : Seen Piece := ⟨Token.piece, id, fun _ => rfl⟩

instance : Seen Ink := ⟨Token.ink, Ink.piece, fun _ => rfl⟩

def State.seen {V : Type} [Seen V] (s : State) : List V := s.rest.map Seen.see

/-- What the grammar sees of the tokens still to be read. -/
def State.pieces (s : State) : List Piece := s.rest.map Token.piece

theorem State.pieces_of_seen {V : Type} [Seen V] {s : State} {vs : List V} (hs : s.seen = vs) :
    s.pieces = vs.map Seen.piece := by
  rw [← hs, seen, pieces, List.map_map]
  exact List.map_congr_left fun t _ => (Seen.piece_see t).symm

section
variable {s : State} {q : Piece} {qs : List Piece}

theorem State.rest_of_pieces (hs : s.pieces = q :: qs) :
    ∃ t ts, s.rest = t :: ts ∧ t.piece = q ∧ ts.map Token.piece = qs := List.map_eq_cons_iff.mp hs

theorem State.piece_current (hs : s.pieces = q :: qs) : s.current.piece = q := by
  obtain ⟨t, ts, hrest, ht, -⟩ := rest_of_pieces hs
  rw [current, hrest]
  exact ht

theorem State.kind_current (hs : s.pieces = q :: qs) : s.current.kind = q.kind :=
  congrArg Piece.kind (piece_current hs)

theorem State.text_current (hs : s.pieces = q :: qs) : s.current.text = q.text :=
  congrArg Piece.text (piece_current hs)

theorem State.newline_current (hs : s.pieces = q :: qs) :
    s.current.newlineBefore = q.newlineBefore := congrArg Piece.newlineBefore (piece_current hs)

theorem State.isAt_eq (hs : s.pieces = q :: qs) (p : String) : s.isAt p = q.isPunct p := by
  rw [← piece_current hs]
  rfl

theorem State.isAt_punct {p : String} (hs : s.pieces = punct p :: qs) : s.isAt p = true := by
  rw [isAt_eq hs, isPunct, punct, beq_self_eq_true, beq_self_eq_true]
  rfl

theorem State.isAtWord_eq (hs : s.pieces = q :: qs) (w : String) :
    s.isAtWord w = q.isTheWord w := by
  rw [← piece_current hs]
  rfl

theorem State.isAtWord_word {w : String} (hs : s.pieces = Piece.word w :: qs) :
    s.isAtWord w = true := by
  rw [isAtWord_eq hs, isTheWord, Piece.word, beq_self_eq_true, beq_self_eq_true]
  rfl

theorem State.isPunctOf_eq (hs : s.pieces = q :: qs) (ps : List String) :
    s.current.isPunctOf ps = q.isPunctOf ps := by
  rw [← piece_current hs]
  rfl

theorem State.isWord_eq (hs : s.pieces = q :: qs) : s.current.isWord = q.isWord := by
  rw [← piece_current hs]
  rfl

theorem State.atEnd_eq (hs : s.pieces = q :: qs) : s.atEnd = false := by
  obtain ⟨t, ts, hrest, -⟩ := rest_of_pieces hs
  rw [atEnd, hrest]
  rfl

theorem State.atEnd_nil (hs : s.pieces = []) : s.atEnd = true := by
  rw [atEnd, List.map_eq_nil_iff.mp hs]
  rfl

theorem State.isAt_nil (hs : s.pieces = []) (hend : s.last.isEnd = true) (p : String) :
    s.isAt p = false := by
  rw [isAt, current, List.map_eq_nil_iff.mp hs, List.headD_nil, Bool.eq_false_iff]
  intro hat
  rw [isEnd_of_isPunct hat] at hend
  cases hend

theorem State.piece_ahead_one {r : Piece} (hs : s.pieces = q :: r :: qs) :
    (s.ahead 1).piece = r := by
  obtain ⟨t, ts, hrest, -, hts⟩ := rest_of_pieces hs
  obtain ⟨u, us, rfl, hu, -⟩ := List.map_eq_cons_iff.mp hts
  rw [ahead, hrest]
  exact hu

theorem State.length_rest {V : Type} [Seen V] {s : State} {vs : List V} (hs : s.seen = vs) :
    s.rest.length = vs.length := by
  rw [← hs, seen, List.length_map]

end

variable {V : Type} [Seen V] {α β : Type} {p : Parse α} {depth : Nat} {before mid after : List V}
  {q : Piece} {qs : List Piece} {P Q : α → Prop}

/-- A parse reads what is seen `before` down to what is seen `after` without a fault, and its result
is as `Q` says. -/
def Reads (p : Parse α) (depth : Nat) (before after : List V) (Q : α → Prop) : Prop :=
  ∀ s : State, s.seen = before → s.last.isEnd = true → ∃ a s', p depth s = some (a, s') ∧
    s'.seen = after ∧ s'.rest <:+ s.rest ∧ s'.last = s.last ∧ s'.faults = s.faults ∧ Q a

theorem Reads.bind {f : α → Parse β} {R : β → Prop} (hp : Reads p depth before mid P)
    (hf : ∀ a, P a → Reads (f a) depth mid after R) : Reads (p >>= f) depth before after R := by
  intro s hs hend
  obtain ⟨a, s₁, hrun, hmid, hsuffix, hlast, hfaults, ha⟩ := hp s hs hend
  obtain ⟨b, s₂, hrun', hafter, hsuffix', hlast', hfaults', hb⟩ := hf a ha s₁ hmid (hlast ▸ hend)
  refine ⟨b, s₂, ?_, hafter, hsuffix'.trans hsuffix, hlast'.trans hlast, hfaults'.trans hfaults, hb⟩
  rw [Parse.bind_run, hrun]
  exact hrun'

theorem Reads.imp (hp : Reads p depth before after P) (h : ∀ a, P a → Q a) :
    Reads p depth before after Q := by
  intro s hs hend
  obtain ⟨a, s', hrun, hafter, hsuffix, hlast, hfaults, ha⟩ := hp s hs hend
  exact ⟨a, s', hrun, hafter, hsuffix, hlast, hfaults, h a ha⟩

/-- What is read of pieces is read of what is seen of them. -/
theorem Reads.seen (hafter : after <:+ before)
    (hp : Reads p depth (before.map Seen.piece) (after.map Seen.piece) Q) :
    Reads p depth before after Q := by
  intro s hs hend
  obtain ⟨a, s', hrun, hpieces, hsuffix, hlast, hfaults, ha⟩ := hp s (State.pieces_of_seen hs) hend
  refine ⟨a, s', hrun, ?_, hsuffix, hlast, hfaults, ha⟩
  have hlength := congrArg List.length hpieces
  simp only [State.seen, List.length_map] at hlength
  have hmap : s'.seen <:+ before := hs ▸ hsuffix.map Seen.see
  have hmapped : (s'.seen : List V).length = after.length := by
    rw [State.seen, List.length_map, hlength]
  exact (List.suffix_of_suffix_length_le hmap hafter (Nat.le_of_eq hmapped)).eq_of_length hmapped

/-- The same where nothing is read. -/
theorem Reads.stay (hp : Reads p depth (before.map Seen.piece) (before.map Seen.piece) Q) :
    Reads p depth before before Q := .seen List.suffix_rfl hp

/-- The same where one token is read. -/
theorem Reads.step {v : V} (hp : Reads p depth (Seen.piece v :: before.map Seen.piece)
    (before.map Seen.piece) Q) : Reads p depth (v :: before) before Q :=
  .seen (List.suffix_cons v before) hp

/-- What follows two parses that belong together. -/
theorem Reads.bind_bind {γ : Type} {f : α → Parse β} {g : β → Parse γ} {R : β → Prop}
    {R' : γ → Prop} (hp : Reads (p >>= f) depth before mid R)
    (hg : ∀ b, R b → Reads (g b) depth mid after R') :
    Reads (p >>= fun a => f a >>= g) depth before after R' := by
  intro s hs hend
  obtain ⟨c, s', hrun, hc⟩ := hp.bind hg s hs hend
  refine ⟨c, s', ?_, hc⟩
  simp only [Parse.bind_run, Option.bind_assoc] at hrun ⊢
  exact hrun

/-- What follows both branches of a choice. -/
theorem Reads.ite_bind {c : Prop} [Decidable c] {p' : Parse α} {f : α → Parse β} {R : β → Prop}
    (hp : Reads (if c then p else p') depth before mid P)
    (hf : ∀ a, P a → Reads (f a) depth mid after R) :
    Reads (if c then p >>= f else p' >>= f) depth before after R := by
  by_cases hc : c
  · rw [if_pos hc] at hp ⊢
    exact hp.bind hf
  · rw [if_neg hc] at hp ⊢
    exact hp.bind hf

theorem reads_pure {a : α} (ha : Q a) : Reads (pure a) depth before before Q := by
  intro s hs _
  exact ⟨a, s, rfl, hs, List.suffix_rfl, rfl, rfl, ha⟩

theorem reads_look_to_end {f : State → Parse β} {R : β → Prop}
    (hf : ∀ s : State, s.seen = before → s.last.isEnd = true → Reads (f s) depth before after R) :
    Reads (look >>= f) depth before after R := by
  intro s hs hend
  exact hf s hs hend s hs hend

/-- A look at the state tells what stands before the parse. -/
theorem reads_look {f : State → Parse β} {R : β → Prop}
    (hf : ∀ s : State, s.seen = before → Reads (f s) depth before after R) :
    Reads (look >>= f) depth before after R := reads_look_to_end fun s hs _ => hf s hs

theorem reads_here {f : Nat → Parse β} {R : β → Prop}
    (hf : ∀ start, Reads (f start) depth before after R) :
    Reads (here >>= f) depth before after R := by
  intro s hs hend
  exact hf s.current.span.start s hs hend

theorem reads_advance : Reads advance depth (q :: qs) qs fun _ => True := by
  intro s hs _
  obtain ⟨t, ts, hrest, -, hts⟩ := State.rest_of_pieces hs
  refine ⟨(), _, rfl, ?_, ?_, rfl, rfl, trivial⟩
  · change (s.rest.drop 1).map Token.piece = qs
    rw [hrest]
    exact hts
  · exact List.drop_suffix 1 s.rest

theorem reads_accept {w : String} : Reads (accept w) depth (punct w :: qs) qs (· = true) := by
  apply reads_look
  intro s hs
  rw [if_pos (State.isAt_punct hs)]
  exact reads_advance.bind fun _ _ => reads_pure rfl

theorem reads_accept_not {w : String} (h : q.isPunct w = false) :
    Reads (accept w) depth (q :: qs) (q :: qs) (· = false) := by
  apply reads_look
  intro s hs
  have hat : ¬ s.isAt w = true := by simp [State.isAt_eq hs, h]
  rw [if_neg hat]
  exact reads_pure rfl

/-- At the end there is nothing to accept. -/
theorem reads_accept_end {w : String} :
    Reads (accept w) depth [] ([] : List Piece) (· = false) := by
  apply reads_look_to_end
  intro s hs hend
  have hat : ¬ s.isAt w = true := by simp [State.isAt_nil hs hend]
  rw [if_neg hat]
  exact reads_pure rfl

theorem reads_acceptWord {w : String} :
    Reads (acceptWord w) depth (word w :: qs) qs (· = true) := by
  apply reads_look
  intro s hs
  rw [if_pos (State.isAtWord_word hs)]
  exact reads_advance.bind fun _ _ => reads_pure rfl

theorem reads_acceptWord_not {w : String} (h : q.isTheWord w = false) :
    Reads (acceptWord w) depth (q :: qs) (q :: qs) (· = false) := by
  apply reads_look
  intro s hs
  have hat : ¬ s.isAtWord w = true := by simp [State.isAtWord_eq hs, h]
  rw [if_neg hat]
  exact reads_pure rfl

theorem reads_optional {w : String} :
    Reads (optional w) depth (punct w :: qs) qs fun _ => True :=
  reads_accept.bind fun _ _ => reads_pure trivial

theorem reads_optional_not {w : String} (h : q.isPunct w = false) :
    Reads (optional w) depth (q :: qs) (q :: qs) fun _ => True :=
  (reads_accept_not h).bind fun _ _ => reads_pure trivial

theorem reads_expect {w : String} :
    Reads (expect w) depth (punct w :: qs) qs fun _ => True := by
  refine reads_accept.bind ?_
  rintro _ rfl
  exact reads_pure trivial

theorem reads_build {kind : Kind} {start : Nat} {name : Option Name} {declared : Option String}
    {children : List Node} : Reads (buildNamed kind start name declared children) depth before before
      fun n => n.shape = .node kind (name.map Name.text) declared (Node.shapes children) := by
  intro s hs _
  exact ⟨_, _, rfl, hs, List.suffix_rfl, rfl, rfl, rfl⟩

theorem reads_takeName : Reads takeName depth (q :: qs) qs (·.text = q.text) := by
  apply reads_look
  intro s hs
  exact reads_advance.bind fun _ _ => reads_pure (State.text_current hs)

theorem reads_skipAngles_not (h : q.isPunct "<" = false) :
    Reads skipAngles depth (q :: qs) (q :: qs) fun _ => True := by
  apply reads_look
  intro s hs
  have hat : ¬ s.isAt "<" = true := by simp [State.isAt_eq hs, h]
  rw [if_neg hat]
  exact reads_pure trivial

/-- A cut skips what it takes of the tokens. -/
theorem reads_skip {cut : List Token → Split} {R : List Token → Prop}
    (h : ∀ ts : List Token, ts.map Seen.see = before → ∃ taken rest, cut ts = (taken, rest) ∧
      rest <:+ ts ∧ rest.map Seen.see = after ∧ R taken) : Reads (skip cut) depth before after R := by
  intro s hs _
  obtain ⟨taken, rest, hcut, hsuffix, hrest, htaken⟩ := h s.rest hs
  refine ⟨taken, s.read (taken, rest), ?_, hrest, hsuffix, rfl, rfl, htaken⟩
  rw [skip, hcut]

/-- There is no type to read where no colon comes next. -/
theorem reads_untyped (stops : List String) (h : q.isPunct ":" = false) :
    Reads ( annotation stops) depth (q :: qs) (q :: qs) (· = none) := by
  refine (reads_accept_not h).bind ?_
  rintro _ rfl
  exact reads_pure rfl

theorem reads_nested {p : Parse Node} {Q : Node → Prop} (hdepth : depth < maxNesting)
    (h : Reads p (depth + 1) before after Q) : Reads (nested p) depth before after Q := by
  intro s hs hend
  rw [nested, if_neg (Nat.not_le_of_lt hdepth)]
  exact h s hs hend

theorem reads_moved {p : Parse Node} {Q : Node → Prop} (hlength : after.length < before.length)
    (h : Reads p depth before after Q) :
    Reads (moved p) depth before after fun r => r.2 = true ∧ Q r.1 := by
  apply reads_look
  intro s hs
  refine h.bind fun n hn => ?_
  apply reads_look
  intro s' hs'
  refine reads_pure ⟨?_, hn⟩
  rw [bne_iff_ne, State.length_rest hs, State.length_rest hs']
  exact Nat.ne_of_lt hlength

/-- Turns on the pieces `before` come down to those `after`, with nodes of the shapes. -/
def Loops (turn : Parse (List Node × Bool)) (depth : Nat) (before after : List V)
    (shapes : List Shape) : Prop :=
  ∀ k, before.length < k → Reads (turns k turn) depth before after (Node.shapes · = shapes)

variable {turn : Parse (List Node × Bool)} {shapes others : List Shape}

theorem Loops.last
    (h : Reads turn depth before after fun r => r.2 = false ∧ Node.shapes r.1 = shapes) :
    Loops turn depth before after shapes := by
  intro k hk
  obtain ⟨k, rfl⟩ := Nat.exists_eq_succ_of_ne_zero (Nat.ne_zero_of_lt hk)
  refine h.bind ?_
  rintro ⟨ns, more⟩ ⟨rfl, hns⟩
  exact reads_pure hns

theorem Loops.more (h : Reads turn depth before mid fun r => r.2 = true ∧ Node.shapes r.1 = shapes)
    (hlength : mid.length < before.length) (hrest : Loops turn depth mid after others) :
    Loops turn depth before after (shapes ++ others) := by
  intro k hk
  obtain ⟨k, rfl⟩ := Nat.exists_eq_succ_of_ne_zero (Nat.ne_zero_of_lt hk)
  refine h.bind ?_
  rintro ⟨ns, more⟩ ⟨rfl, hns⟩
  refine (hrest k (Nat.lt_of_lt_of_le hlength (Nat.le_of_lt_succ hk))).bind fun ms hms => ?_
  refine reads_pure ?_
  rw [Node.shapes_eq_map] at hns hms ⊢
  rw [List.map_append, hns, hms]

theorem Loops.gather (h : Loops turn depth before after shapes) :
    Reads (gather turn) depth before after (Node.shapes · = shapes) := by
  apply reads_look
  intro s hs
  apply h
  rw [State.length_rest hs]
  exact Nat.lt_succ_self _

/-- Turns on a node of one shape come down to the pieces `after` with a node of the other. -/
def Climbs (turn : Node → Parse (Node × Bool)) (depth : Nat) (before after : List V)
    (below top : Shape) : Prop :=
  ∀ k node, before.length < k → node.shape = below →
    Reads (climbs k turn node) depth before after (·.shape = top)

variable {grow : Node → Parse (Node × Bool)} {below between top : Shape}

theorem Climbs.stay (h : ∀ node, Reads (grow node) depth after after (· = (node, false))) :
    Climbs grow depth after after top top := by
  intro k node hk hnode
  obtain ⟨k, rfl⟩ := Nat.exists_eq_succ_of_ne_zero (Nat.ne_zero_of_lt hk)
  refine (h node).bind ?_
  rintro _ rfl
  exact reads_pure hnode

theorem Climbs.step (h : ∀ node, node.shape = below → Reads (grow node) depth before mid
      fun r => r.2 = true ∧ r.1.shape = between)
    (hlength : mid.length < before.length) (hrest : Climbs grow depth mid after between top) :
    Climbs grow depth before after below top := by
  intro k node hk hnode
  obtain ⟨k, rfl⟩ := Nat.exists_eq_succ_of_ne_zero (Nat.ne_zero_of_lt hk)
  refine (h node hnode).bind ?_
  rintro ⟨node', more⟩ ⟨rfl, hnode'⟩
  exact hrest k node' (Nat.lt_of_lt_of_le hlength (Nat.le_of_lt_succ hk)) hnode'

theorem Climbs.climb {node : Node} (h : Climbs grow depth before after below top)
    (hnode : node.shape = below) : Reads (climb grow node) depth before after (·.shape = top) := by
  apply reads_look
  intro s hs
  apply h _ _ _ hnode
  rw [State.length_rest hs]
  exact Nat.lt_succ_self _

end Grammar

open Grammar Piece Scanner

namespace Parsed

/-- A text that is scanned without a fault and whose tokens read as statements is read without a
fault. -/
theorem ofSource_of_tokens {V : Type} [Seen V] {source : List Char} {ts : List Token} {e : Token}
    {vs : List V} {fuel : Nat} {shapes : List Shape} (htokens : tokenize source = ⟨ts ++ [e], []⟩)
    (hts : ts.map Seen.see = vs) (he : e.isEnd = true) (hnone : ∀ t ∈ ts, t.isEnd = false)
    (hreads : Reads (statements (rule fuel)) 0 vs [] (Node.shapes · = shapes)) :
    (ofSource source).faults = [] ∧
      (ofSource source).root.shape = .node .sourceFile none none shapes := by
  have hrest : (ts ++ [e]).filter (!·.isEnd) = ts := by
    rw [List.filter_append, List.filter_eq_self.mpr (by simpa using hnone)]
    simp [he]
  let before : State := ⟨ts, e, 0, {}, []⟩
  have hstart : run fuel source = program (rule fuel) (byteLength source) 0 before := by
    rw [run, htokens]
    simp only [hrest, List.getLastD_concat, before]
  obtain ⟨nodes, s, hrun, -, -, -, hfaults, hnodes⟩ := hreads before hts he
  let root : Node := ⟨s.built, .sourceFile, ⟨0, byteLength source⟩, none, none, nodes⟩
  have hwhole : run fuel source = some (root, s.alloc root) := by
    rw [hstart, program_run, hrun]
    rfl
  rw [ofSource_of_run hwhole]
  constructor
  · simp [htokens, hfaults, before]
  · rw [Node.shape, hnodes]
    rfl

/-- A spaced text whose pieces read as statements is read without a fault. -/
theorem ofSource_spaced {ps : List Piece} {b : List Nat} {fuel : Nat} {shapes : List Shape}
    (hspelled : Spelled [] ps b)
    (hreads : Reads (statements (rule fuel)) 0 ps [] (Node.shapes · = shapes)) :
    (ofSource (spaced ps)).faults = [] ∧
      (ofSource (spaced ps)).root.shape = .node .sourceFile none none shapes := by
  obtain ⟨ts, e, htokens, hts, he, hnone⟩ := tokenize_spaced hspelled
  exact ofSource_of_tokens htokens hts he hnone hreads

/-- The same of inks that are scanned as they are. -/
theorem ofSource_written {is : List Ink} {b : List Nat} {fuel : Nat} {shapes : List Shape}
    (hwritten : Written [] is b [])
    (hreads : Reads (statements (rule fuel)) 0 is [] (Node.shapes · = shapes)) :
    (ofSource (Ink.chars is)).faults = [] ∧
      (ofSource (Ink.chars is)).root.shape = .node .sourceFile none none shapes := by
  obtain ⟨ts, hts, hnone, htokens⟩ := tokenize_written hwritten
  rw [List.append_nil] at htokens
  exact ofSource_of_tokens htokens hts rfl hnone hreads

end Parsed

end Subscriptions
