import Subscriptions.Proofs.Layout.Alike
import Subscriptions.Proofs.Lockstep.Statements

namespace Subscriptions

section
variable {α β : Type} {R : α → β → Prop} {xs zs : List α} {ys ws : List β}

/-- Lists that are related are so piece by piece. -/
theorem forall₂_split (h : List.Forall₂ R (xs ++ zs) (ys ++ ws)) (hlength : xs.length = ys.length) :
    List.Forall₂ R xs ys ∧ List.Forall₂ R zs ws := by
  have hfront := List.forall₂_take xs.length h
  have hback := List.forall₂_drop xs.length h
  rw [List.take_left, hlength, List.take_left] at hfront
  rw [List.drop_left, hlength, List.drop_left] at hback
  exact ⟨hfront, hback⟩

end

namespace Comparison

/-- The tokens are the same, here and there. -/
structure Same (C : Comparison) (t u : Token) : Prop where
  piece : t.piece = u.piece
  text : isComputed t.text = false
  place : ∃ i : Nat, C.tokens[i]? = some t ∧ C.others[i]? = some u

variable {C : Comparison} {t u : Token}

theorem Same.text_eq (h : C.Same t u) : u.text = t.text := (congrArg Piece.text h.piece).symm

theorem Same.written (h : C.Same t u) : C.Written ⟨t.text, t.span⟩ ⟨u.text, u.span⟩ := by
  obtain ⟨i, ht, hu⟩ := h.place
  exact ⟨h.text_eq, h.text, i, t, u, ht, hu, rfl, rfl⟩

theorem isComputed_textOfTokens {ts : List Token} (ht : t.text = "[") (hu : u.text ≠ "") :
    isComputed (textOfTokens (t :: u :: ts)) = true := by
  have htext : (textOfTokens (t :: u :: ts)).toList = '[' :: (u.lead.toList ++
      (u.text.toList ++ (String.join (ts.map fun v => v.lead ++ v.text)).toList)) := by
    simp [textOfTokens, ht]
  have hlater : u.text.toList ≠ [] := fun hnil => hu (String.toList_eq_nil_iff.mp hnil)
  rw [isComputed, htext, Bool.and_eq_true]
  refine ⟨rfl, bne_iff_ne.mpr fun heq => hlater ?_⟩
  have hnil := (List.cons.inj heq).2
  exact (List.append_eq_nil_iff.mp (List.append_eq_nil_iff.mp hnil).2).1

/-- Names in brackets go together. -/
theorem spelled_textOfTokens {ts us : List Token} (h : List.Forall₂ C.Same (t :: ts) (u :: us))
    (ht : t.text = "[") (hts : ∀ v ∈ ts, v.text ≠ "") (a b : Span) :
    Spelled ⟨textOfTokens (t :: ts), a⟩ ⟨textOfTokens (u :: us), b⟩ := by
  cases h with
  | cons hfirst hrest =>
    cases hrest with
    | nil => exact .inl (by simp [textOfTokens, hfirst.text_eq])
    | @cons v w ts us hsecond _ =>
      have hv := hts v List.mem_cons_self
      refine .inr ⟨isComputed_textOfTokens ht hv, isComputed_textOfTokens ?_ ?_⟩
      · rw [hfirst.text_eq, ht]
      · rwa [hsecond.text_eq]

end Comparison

namespace Grammar

open Comparison

variable {C : Comparison} {ns ms cs ds : List Node} {s t : State}

/-- The nodes that two parses have pending look alike, and there is text in the tokens left. -/
structure Laid (C : Comparison) (ns ms : List Node) (s : State) : Prop where
  nodes : List.Forall₂ (fun n m => C.Alike n m ∧ C.Exact n m) ns ms
  texts : ∀ t ∈ s.rest, t.text ≠ ""

abbrev Laid.named (C : Comparison) (kind : Kind) : Option Name → Option Name → Prop :=
  Option.Rel (if kind.hasMemberName then Spelled else C.Written)

theorem titled_of_named {kind : Kind} {a b : Option Name} (h : Laid.named C kind a b) :
    C.Titled kind a b := by
  rw [Titled, isLoose]
  cases hmember : kind.hasMemberName with
  | true => rwa [Laid.named, hmember] at h
  | false =>
    rw [Laid.named, hmember] at h
    rw [Bool.false_or]
    split
    · exact rel_imp h fun _ _ hab => .inl hab.text
    · exact h

theorem exact_of_named {n m : Node} (h : Laid.named C n.kind n.name m.name) : C.Exact n m := by
  intro hkind
  rwa [Laid.named, hkind] at h

/-- Nodes on children that look alike. -/
theorem alike_of_children {n m : Node} (htypes : ∀ x y, C.types x y)
    (hchildren : List.Forall₂ (fun n m => C.Alike n m ∧ C.Exact n m) n.children m.children)
    (hkind : m.kind = n.kind) (hname : C.Titled n.kind n.name m.name) : C.Alike n m :=
  .node hkind (htypes _ _) hname (fun _ => hchildren.imp fun _ _ hab => hab.2)
    (hchildren.imp fun _ _ hab => hab.1)

namespace Laid

theorem alloc (h : Laid C ns ms s) (n : Node) : Laid C ns ms (s.alloc n) := ⟨h.nodes, h.texts⟩

theorem report (h : Laid C ns ms s) (f : Fault) : Laid C ns ms (s.report f) := ⟨h.nodes, h.texts⟩

theorem readBy (h : Laid C ns ms s) (n : Nat) : Laid C ns ms (s.readBy n) := by
  refine ⟨h.nodes, fun t ht => h.texts t ?_⟩
  rw [State.readBy, List.splitAt_eq] at ht
  exact List.mem_of_mem_drop ht

/-- A node each takes the place of the last ones pending. -/
theorem concat {n m : Node} (h : Laid C (ns ++ cs) (ms ++ ds) s) (hlength : ns.length = ms.length)
    (hnm : C.Alike n m) (hexact : C.Exact n m) : Laid C (ns ++ [n]) (ms ++ [m]) s :=
  ⟨List.rel_append (forall₂_split h.nodes hlength).1 (.cons ⟨hnm, hexact⟩ .nil), h.texts⟩

/-- The children of the nodes have been pending. -/
theorem build {kind : Kind} {start start' : Nat} {name name' : Option Name}
    {declared declared' : Option String} (htypes : ∀ x y, C.types x y)
    (h : Laid C (ns ++ cs) (ms ++ ds) s) (hlength : ns.length = ms.length)
    (hname : Laid.named C kind name name') :
    Laid C (ns ++ [s.node kind start name declared cs])
      (ms ++ [t.node kind start' name' declared' ds]) s := by
  have hchildren := (forall₂_split h.nodes hlength).2
  exact h.concat hlength (alike_of_children htypes hchildren rfl (titled_of_named hname))
    (exact_of_named hname)

/-- The identifier of a shorthand member may be named by no token. -/
theorem buildShorthand {start start' i j : Nat} {name name' : Name} (htypes : ∀ x y, C.types x y)
    (h : Laid C (ns ++ cs) (ms ++ ds) s) (hlength : ns.length = ms.length)
    (hname : Spelled name name') :
    Laid C (ns ++ [s.node .propertyAssignment start (some name) none (shorthand i name :: cs)])
      (ms ++ [t.node .propertyAssignment start' (some name') none (shorthand j name' :: ds)])
      s := by
  have hchildren := (forall₂_split h.nodes hlength).2
  have hidentifier : C.Alike (shorthand i name) (shorthand j name') :=
    alike_of_children htypes .nil rfl (.some hname)
  refine h.concat hlength (.node rfl (htypes _ _) (.some hname) (fun hkind => absurd rfl hkind) ?_)
    Kind.noConfusion
  exact .cons hidentifier (hchildren.imp fun _ _ hab => hab.1)

/-- Names in brackets that are as many tokens. -/
theorem computed {n : Nat} (h : Laid C ns ms s) (hrest : List.Forall₂ C.Same s.rest t.rest)
    (hbracket : s.isAt "[" = true) (hn : 0 < n) : Spelled (s.computed n) (t.computed n) := by
  obtain ⟨k, rfl⟩ := Nat.exists_eq_succ_of_ne_zero (Nat.ne_of_gt hn)
  have htexts := h.texts
  rw [State.isAt, State.current] at hbracket
  rw [State.computed, State.computed, List.splitAt_eq, List.splitAt_eq]
  generalize s.rest = ts, t.rest = us at hrest htexts hbracket
  cases hrest with
  | nil => exact .inl rfl
  | @cons v w ts us hfirst hlater =>
    have htext : v.text = "[" := eq_of_beq ((Bool.and_eq_true _ _).mp hbracket).2
    refine spelled_textOfTokens (.cons hfirst (List.forall₂_take k hlater)) htext ?_ _ _
    exact fun v hv => htexts v (List.mem_cons_of_mem _ (List.mem_of_mem_take hv))

end Laid

theorem length_eq_of_append (h : (ns ++ cs).length = (ms ++ ds).length)
    (hlength : cs.length = ds.length) : ns.length = ms.length := by
  rw [List.length_append, List.length_append] at h
  omega

def laid (C : Comparison) (htypes : ∀ x y, C.types x y) : Pairing where
  token := C.Same
  place _ _ := True
  name := C.Written
  memberName := Spelled
  declared _ _ := True
  holds ns ms s _ := Laid C ns ms s
  piece h := h.piece
  place_start _ := trivial
  name_word h := h.written
  memberName_unquoted h := .inl (congrArg unquoted h.text_eq)
  memberName_computed h hbracket hn := h.holds.computed h.rest hbracket hn
  declared_none := trivial
  declared_read _ _ := trivial
  holds_read n h := h.holds.readBy n
  holds_report h _ := h.holds.report _
  holds_build h hlength _ _ hname _ :=
    (h.holds.build htypes (length_eq_of_append h.length hlength) hname).alloc _
  holds_access {_ _ _ _ s t _ _} h _ _ := by
    have hname : Laid.named C .propertyAccess (some s.word) (some t.word) := .some h.current.written
    exact ((h.holds.readBy 1).build htypes (length_eq_of_append h.length rfl) hname).alloc _
  holds_alloc n _ h := h.holds.alloc n
  holds_shorthand _ h hlength _ hname :=
    (h.holds.buildShorthand htypes (length_eq_of_append h.length hlength) hname).alloc _

end Grammar

namespace Comparison

variable {C : Comparison} {T : Option String → Option String → Prop} {n m : Node}

def withTypes (C : Comparison) (T : Option String → Option String → Prop) : Comparison :=
  ⟨C.tokens, C.others, T⟩

theorem Written.withTypes {a b : Name} (h : C.Written a b) : (C.withTypes T).Written a b :=
  ⟨h.text, h.token, h.place⟩

theorem Exact.withTypes (h : C.Exact n m) : (C.withTypes T).Exact n m :=
  fun hkind => rel_imp (h hkind) fun _ _ hab => hab.withTypes

theorem titled_withTypes {kind : Kind} {a b : Option Name} (h : C.Titled kind a b) :
    (C.withTypes T).Titled kind a b := by
  rw [Titled] at h ⊢
  cases hloose : isLoose kind with
  | true => rwa [hloose] at h
  | false =>
    rw [hloose] at h
    exact rel_imp h fun _ _ hab => hab.withTypes

theorem Alike.size_eq (h : C.Alike n m) : n.size = m.size := by
  have hlength := (near_preorderFrom .nil n m h).length_eq
  rwa [Cursor.length_preorderFrom, Cursor.length_preorderFrom] at hlength

mutual
/-- Where the types that are declared go together one by one, the trees look alike with them. -/
theorem alike_withTypes (above above' : List (Node × Nat)) : ∀ n m : Node, C.Alike n m →
    List.Forall₂ (fun c d => T c.focus.declared d.focus.declared) (Cursor.preorderFrom above n)
      (Cursor.preorderFrom above' m) → (C.withTypes T).Alike n m
  | ⟨i, k, s, a, t, ns⟩, ⟨i', k', s', a', t', ms⟩, h, htypes => by
    rw [Cursor.preorderFrom, Cursor.preorderFrom] at htypes
    cases htypes with
    | cons hfirst hrest =>
      refine .node h.kind hfirst (titled_withTypes h.name)
        (fun hkind => (h.exact hkind).imp fun _ _ hab => hab.withTypes) ?_
      exact alikes_withTypes _ _ above above' 0 ns ms h.children hrest

theorem alikes_withTypes (parent parent' : Node) (above above' : List (Node × Nat))
    (position : Nat) : ∀ ns ms : List Node, List.Forall₂ C.Alike ns ms →
      List.Forall₂ (fun c d => T c.focus.declared d.focus.declared)
        (Cursor.preorderList parent above position ns)
        (Cursor.preorderList parent' above' position ms) →
      List.Forall₂ (C.withTypes T).Alike ns ms
  | [], _, h, _ => by
    cases h
    exact .nil
  | n :: ns, ms, h, htypes => by
    cases h with
    | @cons _ m _ ms hfirst hrest =>
      rw [Cursor.preorderList, Cursor.preorderList] at htypes
      obtain ⟨hn, hns⟩ := forall₂_split htypes (by
        rw [Cursor.length_preorderFrom, Cursor.length_preorderFrom, hfirst.size_eq])
      exact .cons (alike_withTypes _ _ n m hfirst hn)
        (alikes_withTypes parent parent' above above' (position + 1) ns ms hrest hns)
end

end Comparison

namespace Parsed

open Comparison

variable {source source' : List Char}

/-- Both sources are read from the same tokens, whatever types are declared in them. -/
def layouts (source source' : List Char) : Comparison :=
  ⟨(tokenize source).tokens, (tokenize source').tokens, fun _ _ => True⟩

/-- No token goes on after an opening bracket. -/
theorem isComputed_token {t : Token} (ht : t ∈ (tokenize source).tokens) :
    isComputed t.text = false := by
  rw [isComputed]
  cases hlist : t.text.toList with
  | nil => rfl
  | cons c after =>
    by_cases hc : c = '['
    · rw [hc] at hlist ⊢
      rw [(tiled_tokenize source).eq_bracket_of_mem ht hlist]
      rfl
    · rw [List.head?_cons, Bool.and_eq_false_iff]
      exact .inl (beq_eq_false_iff_ne.mpr fun heq => hc (Option.some.inj heq))

section
variable (h : (tokenize source).tokens.map Token.piece = (tokenize source').tokens.map Token.piece)
include h

theorem same_tokens :
    List.Forall₂ (layouts source source').Same (tokenize source).tokens
      (tokenize source').tokens := by
  refine forall₂_of_getElem? fun i => ?_
  have hpieces := congrArg (fun ps : List Piece => ps[i]?) h
  rw [List.getElem?_map, List.getElem?_map] at hpieces
  cases ht : (tokenize source).tokens[i]? with
  | none =>
    rw [ht] at hpieces
    rw [Option.map_eq_none_iff.mp hpieces.symm]
    exact .none
  | some t =>
    rw [ht] at hpieces
    obtain ⟨u, hu, hpiece⟩ := Option.map_eq_some_iff.mp hpieces.symm
    rw [hu]
    exact .some ⟨hpiece.symm, isComputed_token (List.mem_of_getElem? ht), i, ht, hu⟩

theorem twin_layouts : (Grammar.laid (layouts source source') fun _ _ => trivial).Twin [] []
    (start source) (start source') := by
  have hsame := same_tokens h
  have hlengths := hsame.length_eq
  rw [tokens_eq_start, tokens_eq_start] at hsame hlengths
  rw [List.length_append, List.length_append] at hlengths
  obtain ⟨hrest, hlast⟩ := forall₂_split hsame (Nat.add_right_cancel hlengths)
  refine ⟨hrest, (List.forall₂_cons.mp hlast).1, isEnd_last_start source, rfl, .nil, fun t ht => ?_⟩
  obtain ⟨hmem, hend⟩ := List.mem_filter.mp ht
  exact (tiled_tokenize source).text_ne_empty hmem (Bool.not_eq_true' _ ▸ hend)

/-- The trees of both sources look alike. -/
theorem alike_roots :
    (layouts source source').Alike (ofSource source).root (ofSource source').root := by
  obtain ⟨xs, ys, s, t, htwin, hroot, hroot'⟩ := twin_of_start _ (twin_layouts h)
  have hlaid : Grammar.Laid (layouts source source') xs ys s := htwin.holds
  rw [hroot, hroot']
  exact Grammar.alike_of_children (fun _ _ => trivial) hlaid.nodes rfl .none

end

end Parsed

end Subscriptions
