import Subscriptions.Linter
import Subscriptions.Proofs.Lockstep.Statements

namespace Subscriptions

/-- The name is what stands at its span. -/
structure Name.Exact (source : List Char) (name : Name) : Prop where
  span : name.span.Safe source
  slice : slice? source name.span = some name.text.toList

/-- The name is what stands at its span, but for quotes at its ends. -/
structure Name.Trimmed (source : List Char) (name : Name) : Prop where
  span : name.span.Safe source
  slice : ∃ part, slice? source name.span = some part ∧
    (name.text = String.ofList part ∨ name.text = Grammar.unquoted (String.ofList part))

section
variable {source part : List Char} {text : String} {span : Span}

theorem exact_of_covers (h : span.Covers 0 source part) (htext : text = String.ofList part) :
    (Name.mk text span).Exact source := by
  refine ⟨h.safe, ?_⟩
  rw [htext, String.toList_ofList]
  exact h.slice?

theorem Name.Exact.trimmed {name : Name} (h : name.Exact source) : name.Trimmed source :=
  ⟨h.span, name.text.toList, h.slice, .inl String.ofList_toList.symm⟩

theorem Name.Exact.unquoted {name : Name} (h : name.Exact source) :
    (Name.mk (Grammar.unquoted name.text) name.span).Trimmed source :=
  ⟨h.span, name.text.toList, h.slice, .inr (by rw [String.ofList_toList])⟩

theorem Token.exact {t : Token} (ht : t ∈ (tokenize source).tokens) :
    (Name.mk t.text t.span).Exact source := by
  obtain ⟨part, htext, hspan⟩ := (tiled_tokenize source).covers_of_mem ht
  exact exact_of_covers hspan htext

end

namespace Node

def NamesMember (parent? : Option Node) (n : Node) : Prop :=
  n.kind.hasMemberName = true ∨ ∃ p, parent? = some p ∧ p.kind = .propertyAssignment ∧
    n.kind = .identifier ∧ n.name = p.name

/-- The name of a node below a parent is what stands at its span; that of a member may lack the
quotes around it. -/
def Titled (source : List Char) (parent? : Option Node) (n : Node) : Prop :=
  ∀ name, n.name = some name →
    name.Exact source ∨ n.NamesMember parent? ∧ name.Trimmed source

/-- The node can be cut out of the source, and its children are named as the source has it. -/
structure Sited (source : List Char) (p : Node) : Prop where
  span : p.span.Safe source
  children : ∀ c ∈ p.children, c.Titled source (some p)

/-- A node that is titled before it has a parent is so below any parent. -/
theorem Titled.below {source : List Char} {n p : Node} (h : n.Titled source none) :
    n.Titled source (some p) := by
  intro name hname
  refine (h name hname).imp_right fun ⟨hmember, htrimmed⟩ => ⟨.inl ?_, htrimmed⟩
  exact hmember.resolve_right fun ⟨_, hnone, _⟩ => nomatch hnone

theorem titled_of_rel {source : List Char} {n : Node} {name? : Option Name}
    (h : Option.Rel (if n.kind.hasMemberName = true then fun a _ => a.Trimmed source
      else fun a _ => a.Exact source) n.name name?) : n.Titled source none := by
  intro name hname
  rw [hname] at h
  cases h with
  | some h =>
    split at h
    · rename_i hmember
      exact .inr ⟨.inl hmember, h⟩
    · exact .inl h

end Node

namespace Grammar

open Node

variable {source : List Char} {ns ms : List Node} {s t : State}

/-- All that is pending stands in the source, what has been reported is of tokens of the source, and
so are the tokens left. -/
structure Sites (source : List Char) (ns : List Node) (s : State) : Prop where
  readTo : IsBoundary source s.readTo
  faults : ∀ f ∈ s.faults, ∃ t ∈ (tokenize source).tokens, ReportedAt t f
  tokens : ∃ before, (tokenize source).tokens = before ++ (s.rest ++ [s.last])
  pending : ∀ n ∈ ns, n.Titled source none
  below : ∀ p ∈ postorders ns, p.Sited source

namespace Sites

variable {cs : List Node} {n : Node}

/-- A node takes the place of the last ones pending. -/
theorem concat (h : Sites source (ns ++ cs) s) (hn : n.Sited source) (hname : n.Titled source none)
    (hbelow : ∀ p ∈ postorders n.children, p.Sited source) : Sites source (ns ++ [n]) s where
  readTo := h.readTo
  faults := h.faults
  tokens := h.tokens
  pending m hm := by
    rcases List.mem_append.mp hm with hm | hm
    · exact h.pending m (List.mem_append_left _ hm)
    · obtain rfl := List.mem_singleton.mp hm
      exact hname
  below p hp := by
    rw [postorders_concat, postorders_append, List.append_assoc] at hp
    rcases List.mem_append.mp hp with hp | hp
    · refine h.below p ?_
      rw [postorders_append]
      exact List.mem_append_left _ hp
    · rcases List.mem_append.mp hp with hp | hp
      · exact hbelow p hp
      · obtain rfl := List.mem_singleton.mp hp
        exact hn

theorem sited_last (h : Sites source (ns ++ cs) s) : ∀ p ∈ postorders cs, p.Sited source := by
  intro p hp
  refine h.below p ?_
  rw [postorders_append]
  exact List.mem_append_right _ hp

/-- The children of a node have been pending. -/
theorem build {kind : Kind} {start : Nat} {name : Option Name} {declared : Option String}
    (h : Sites source (ns ++ cs) s) (hstart : IsBoundary source start)
    (hname : (s.node kind start name declared cs).Titled source none) :
    Sites source (ns ++ [s.node kind start name declared cs]) s := by
  refine h.concat ⟨safe_of_boundaries hstart h.readTo, fun c hc => ?_⟩ hname h.sited_last
  exact (h.pending c (List.mem_append_right _ hc)).below

/-- The identifier of a shorthand member has its name from it. -/
theorem buildShorthand {start i : Nat} {name : Name} (h : Sites source (ns ++ cs) s)
    (hstart : IsBoundary source start) (hname : name.Trimmed source) : Sites source
      (ns ++ [s.node .propertyAssignment start (some name) none (shorthand i name :: cs)]) s := by
  refine h.concat ⟨safe_of_boundaries hstart h.readTo, fun c hc => ?_⟩ ?_ fun p hp => ?_
  · rcases List.mem_cons.mp hc with rfl | hc
    · rintro _ ⟨⟩
      exact .inr ⟨.inr ⟨_, rfl, rfl, rfl, rfl⟩, hname⟩
    · exact (h.pending c (List.mem_append_right _ hc)).below
  · rintro _ ⟨⟩
    exact .inr ⟨.inl rfl, hname⟩
  · rcases List.mem_cons.mp hp with rfl | hp
    · exact ⟨hname.span, nofun⟩
    · exact h.sited_last p hp

theorem alloc (h : Sites source ns s) (n : Node) : Sites source ns (s.alloc n) :=
  ⟨h.readTo, h.faults, h.tokens, h.pending, h.below⟩

/-- What is read ends where a token does. -/
theorem readBy (h : Sites source ns s) (n : Nat) : Sites source ns (s.readBy n) := by
  obtain ⟨before, htokens⟩ := h.tokens
  rw [State.readBy, List.splitAt_eq]
  refine ⟨?_, h.faults, ⟨before ++ s.rest.take n, ?_⟩, h.pending, h.below⟩
  · rw [State.read]
    cases hlast : (s.rest.take n).getLast? with
    | none => exact h.readTo
    | some t =>
      have hmem := List.mem_of_mem_take (List.mem_of_getLast? hlast)
      have hexact : (Name.mk t.text t.span).Exact source := Token.exact (by simp [htokens, hmem])
      exact hexact.span.stop
  · rw [htokens, State.read, List.append_assoc, ← List.append_assoc (s.rest.take n),
      List.take_append_drop]

/-- A name in brackets is the text of its tokens with the trivia between them. -/
theorem computed {n : Nat} (h : Sites source ns s) (hs : s.rest ≠ []) (hn : 0 < n) :
    (s.computed n).Exact source := by
  obtain ⟨k, rfl⟩ := Nat.exists_eq_succ_of_ne_zero (Nat.ne_of_gt hn)
  obtain ⟨t, ts, hrest⟩ := List.exists_cons_of_ne_nil hs
  obtain ⟨before, htokens⟩ := h.tokens
  have htiled := tiled_tokenize source
  have hsplit : s.rest ++ [s.last] = t :: ts.take k ++ (ts.drop k ++ [s.last]) := by
    simp [hrest, ← List.append_assoc]
  rw [htokens, hsplit] at htiled
  obtain ⟨front, rest, rfl, hlater⟩ := htiled.drop (by simp)
  obtain ⟨lead, part, tail, rfl, -, hstart, htext, hstop⟩ := hlater.textOfTokens_eq
  have hcomputed : s.computed (k + 1) = ⟨textOfTokens (t :: ts.take k),
      ⟨t.span.start,
        max ((t :: ts.take k).getLast (List.cons_ne_nil _ _)).span.stop t.span.start⟩⟩ := by
    rw [State.computed, State.readBy, State.current, List.splitAt_eq, hrest, State.read,
      List.take_succ_cons, List.getLast?_eq_some_getLast (List.cons_ne_nil _ _)]
    rfl
  rw [hcomputed, hstop, hstart, byteLength_append, ← Nat.add_assoc,
    Nat.max_eq_left (Nat.le_add_right _ _)]
  exact exact_of_covers (.shift ⟨lead, tail, rfl, rfl, rfl⟩) htext

end Sites

/-- All that a parse builds and reports stands in the source. -/
def sited (source : List Char) : Pairing where
  token t u := t = u ∧ t ∈ (tokenize source).tokens
  place a _ := IsBoundary source a
  name a _ := a.Exact source
  memberName a _ := a.Trimmed source
  declared _ _ := True
  holds ns _ s _ := Sites source ns s
  piece h := by rw [h.1]
  place_start h := (Token.exact h.2).span.start
  name_word h := Token.exact h.2
  memberName_unquoted h := (Token.exact h.2).unquoted
  memberName_computed h hbracket hn :=
    (h.holds.computed (h.rest_ne_nil (isEnd_of_isPunct hbracket)) hn).trimmed
  declared_none := trivial
  declared_read _ _ := trivial
  holds_read n h := h.holds.readBy n
  holds_report h hf := by
    refine ⟨h.holds.readTo, fun f hmem => ?_, h.holds.tokens, h.holds.pending, h.holds.below⟩
    rcases List.mem_cons.mp hmem with rfl | hmem
    · exact ⟨_, h.current.2, hf⟩
    · exact h.holds.faults f hmem
  holds_build h _ _ hstart hname _ := (h.holds.build hstart (titled_of_rel hname)).alloc _
  holds_access h _ hstart := by
    refine ((h.holds.readBy 1).build hstart ?_).alloc _
    rintro _ ⟨⟩
    exact .inl (Token.exact h.current.2)
  holds_alloc n _ h := h.holds.alloc n
  holds_shorthand _ h _ hstart hname := (h.holds.buildShorthand hstart hname).alloc _

theorem sited_start (source : List Char) :
    (sited source).Twin [] [] (Parsed.start source) (Parsed.start source) :=
  Parsed.twin_self _ (fun _ ht => ⟨rfl, ht⟩)
    ⟨isBoundary_zero, nofun, ⟨[], Parsed.tokens_eq_start source⟩, nofun, nofun⟩

end Grammar

namespace Parsed

variable {source : List Char}

/-- The root is not named, and all nodes stand in the source. -/
theorem sited_postorder (source : List Char) : (ofSource source).root.name = none ∧
    ∀ p ∈ (ofSource source).root.postorder, p.Sited source := by
  obtain ⟨xs, ys, s, t, htwin, hroot, -⟩ := twin_of_start _ (Grammar.sited_start source)
  have hsites : Grammar.Sites source xs s := htwin.holds
  have hwhole : (Span.mk 0 (byteLength source)).Safe source :=
    ⟨Nat.zero_le _, Nat.le_refl _, isBoundary_zero, isBoundary_length⟩
  rw [hroot]
  refine ⟨rfl, fun p hp => ?_⟩
  rw [Node.postorder_eq] at hp
  rcases List.mem_append.mp hp with hp | hp
  · exact hsites.below p hp
  · obtain rfl := List.mem_singleton.mp hp
    exact ⟨hwhole, fun n hn => (hsites.pending n hn).below⟩

/-- Every node stands in the source, its name as it is written there. -/
theorem safe_and_titled {c : Cursor} (hc : c ∈ (ofSource source).root.asRoot.preorder) :
    c.span.Safe source ∧ c.focus.Titled source (c.parent?.map Cursor.focus) := by
  obtain ⟨hunnamed, hsited⟩ := sited_postorder source
  have hfocus {c : Cursor} (hc : c ∈ (ofSource source).root.asRoot.preorder) :
      c.focus.Sited source := hsited _ ((Node.preorder_perm [] _).subset (List.mem_map_of_mem hc))
  refine ⟨(hfocus hc).span, ?_⟩
  rcases Cursor.eq_asRoot_or_child hc with rfl | ⟨p, i, hparent, -, hchild, hp, -⟩
  · intro name hname
    rw [Node.asRoot, hunnamed] at hname
    cases hname
  · rw [hparent]
    exact (hfocus hp).children _ (List.mem_of_getElem? hchild)

/-- What is wrong with a source the scanner has found, or the grammar at one of the tokens. -/
theorem reported_of_mem_faults {f : Fault} (hf : f ∈ (ofSource source).faults) :
    f ∈ (tokenize source).faults ∨ ∃ t ∈ (tokenize source).tokens, Grammar.ReportedAt t f := by
  obtain ⟨xs, ys, s, t, htwin, hroot, -⟩ := twin_of_start _ (Grammar.sited_start source)
  have hsites : Grammar.Sites source xs s := htwin.holds
  rw [hroot] at hf
  rcases List.mem_append.mp hf with hf | hf
  · exact .inl hf
  · exact .inr (hsites.faults f (List.mem_reverse.mp hf))

theorem safe_of_mem_faults {f : Fault} (hf : f ∈ (ofSource source).faults) :
    f.span.Safe source := by
  rcases reported_of_mem_faults hf with hf | ⟨t, ht, hreported⟩
  · exact safe_of_mem_tokenize_faults source hf
  · rw [hreported.span]
    exact (Token.exact ht).span

end Parsed

theorem line_pos (source : List Char) (offset : Nat) : 0 < (lineColumn source offset).1 := by
  simp [lineColumn, lineStarts]

namespace Window

variable {lines : List String} {line count : Nat}

/-- There is one unless the number of the last line asked for does not fit. -/
theorem isSome_around?_iff (hfirst : 1 ≤ line) :
    (around? lines line count).isSome = true ↔ count = 0 ∨ line + count < countLimit := by
  have hline : line ≠ 0 := by omega
  rw [around?]
  by_cases hcount : count = 0
  · simp [hcount]
  · by_cases hroom : line + count < countLimit
    · have hnext : ¬ countLimit ≤ count + 1 := by omega
      simp [hline, hcount, hroom, hnext]
    · simp [hline, hcount, hroom]

end Window

namespace Linter

variable {linter : Linter} {path : String} {source : List Char} {lines : List String} {f : Finding}

/-- All that is found in a source as the text of a file. -/
def findings (linter : Linter) (path : String) (source : List Char) : List Finding :=
  linter.faultFindings path (Parsed.ofSource source) ++
    ((linter.ruleMatches path (Parsed.ofSource source)).getD []).map linter.matchFinding

theorem safe_of_violation? {rule : UntrackedRule} {resolve : Resolver} {c : Cursor} {v : Violation}
    (hc : c ∈ (Parsed.ofSource source).root.asRoot.preorder)
    (h : rule.violation? resolve c = some v) : v.span.Safe source := by
  obtain ⟨hspan, htitled⟩ := Parsed.safe_and_titled hc
  have hname : ((c.focus.name.map Name.span).getD c.span).Safe source := by
    cases hn : c.focus.name with
    | none => exact hspan
    | some name => exact (htitled name hn).elim (fun h => h.span) fun h => h.2.span
  rw [UntrackedRule.violation?] at h
  split at h
  · cases hclass : rule.classify c <;> rw [hclass] at h <;> cases h <;> exact hname
  · cases h

theorem mem_faultFindings {parsed : Parsed} (hf : f ∈ linter.faultFindings path parsed) :
    ∃ fault ∈ parsed.faults, f =
      ⟨parseErrorId, .warning, "Parse error: " ++ fault.message, fault.span, none⟩ := by
  rw [faultFindings] at hf
  split at hf
  · obtain ⟨fault, hfault, rfl⟩ := List.mem_map.mp hf
    exact ⟨fault, hfault, rfl⟩
  · cases hf

/-- A finding is a fault of the source, or the rule has flagged a node of it. -/
theorem origin_of_mem_findings (hf : f ∈ linter.findings path source) :
    (∃ fault ∈ (Parsed.ofSource source).faults, f =
      ⟨parseErrorId, .warning, "Parse error: " ++ fault.message, fault.span, none⟩) ∨
    ∃ c ∈ (Parsed.ofSource source).root.asRoot.preorder, ∃ v,
      linter.rule.violation? (linter.resolver (Parsed.ofSource source).source) c = some v ∧
        f = linter.matchFinding (linter.rule.toMatch v) := by
  rcases List.mem_append.mp hf with hf | hf
  · exact .inl (mem_faultFindings hf)
  · obtain ⟨m, hm, rfl⟩ := List.mem_map.mp hf
    rw [ruleMatches] at hm
    split at hm
    · obtain ⟨v, hv, rfl⟩ := List.mem_map.mp hm
      obtain ⟨c, hc, hviolation⟩ := List.mem_filterMap.mp hv
      exact .inr ⟨c, hc, v, hviolation, rfl⟩
    · cases hm

theorem safe_of_mem_findings (hf : f ∈ linter.findings path source) : f.span.Safe source := by
  rcases origin_of_mem_findings hf with ⟨fault, hfault, rfl⟩ | ⟨c, hc, v, hviolation, rfl⟩
  · exact Parsed.safe_of_mem_faults hfault
  · exact safe_of_violation? hc hviolation

/-- Where the span is safe, a diagnostic fails only on the number of the last line to show. -/
theorem isSome_diagnostic?_iff (h : f.span.Safe source) :
    (linter.diagnostic? path source lines f).isSome = true ↔ linter.contextLines = 0 ∨
      (lineColumn source f.span.start).1 + linter.contextLines < countLimit ∨
        lines.length < (lineColumn source f.span.start).1 := by
  obtain ⟨part, hpart⟩ := h.covers
  have hlength : spanLength? source f.span = some part.length := by rw [spanLength?, hpart.slice?]
  have hfirst := line_pos source f.span.start
  simp only [diagnostic?, hlength]
  by_cases hlast : (lineColumn source f.span.start).1 ≤ lines.length
  · have hwindow := @Window.isSome_around?_iff lines _ linter.contextLines hfirst
    simp only [hfirst, hlast, decide_true, Bool.and_self, if_true]
    rw [or_iff_left (Nat.not_lt.mpr hlast) (a := _ < countLimit), ← hwindow]
    cases Window.around? lines (lineColumn source f.span.start).1 linter.contextLines <;> rfl
  · simp [hlast, Nat.lt_of_not_le hlast]

theorem isSome_mapM_iff {α β : Type} {g : α → Option β} {l : List α} :
    (l.mapM g).isSome = true ↔ ∀ a ∈ l, (g a).isSome = true := by
  induction l with
  | nil => simp
  | cons a l ih =>
    rw [List.mapM_cons, List.forall_mem_cons, ← ih]
    cases g a with
    | none => simp
    | some b => cases l.mapM g <;> simp

theorem isSome_lintSource (h : ∀ f ∈ linter.findings path source,
    (linter.diagnostic? path source ((Text.lines source).map String.ofList) f).isSome = true) :
    (linter.lintSource path source).isSome = true := by
  obtain ⟨candidates, hcandidates⟩ := Option.isSome_iff_exists.mp (isSome_mapM_iff.mpr h)
  rw [findings] at hcandidates
  rw [lintSource]
  simp only [hcandidates]
  rfl

/-- There is a report of a source unless its lines are near the limit. -/
theorem isSome_lintSource_of_room (hroom : linter.contextLines = 0 ∨
    (Text.lines source).length + linter.contextLines < countLimit) :
    (linter.lintSource path source).isSome = true := by
  refine isSome_lintSource fun f hf => (isSome_diagnostic?_iff (safe_of_mem_findings hf)).mpr ?_
  rw [List.length_map]
  omega

/-- Whatever the source is, all spans in it can be cut out of it: those of tokens, nodes, names and
faults. Tokens are written as the source has them, and so are names, but for quotes around those of
members. A diagnostic of a finding fails only where lines are to be shown around it and the number of
the last of them does not fit 64 bits; short of that there is a report of every source. -/
theorem spans_safe (source : List Char) :
    (∀ t ∈ (tokenize source).tokens,
      t.span.Safe source ∧ slice? source t.span = some t.text.toList) ∧
    (∀ c ∈ (Parsed.ofSource source).root.asRoot.preorder,
      c.span.Safe source ∧ (slice? source c.span).isSome = true ∧
        c.focus.Titled source (c.parent?.map Cursor.focus)) ∧
    (∀ f ∈ (tokenize source).faults ++ (Parsed.ofSource source).faults, f.span.Safe source) ∧
    (∀ (linter : Linter) (path : String) (lines : List String),
      ∀ f ∈ linter.findings path source, f.span.Safe source ∧
        ((linter.diagnostic? path source lines f).isSome = true ↔ linter.contextLines = 0 ∨
          (lineColumn source f.span.start).1 + linter.contextLines < countLimit ∨
            lines.length < (lineColumn source f.span.start).1)) ∧
    (∀ (linter : Linter) (path : String), linter.contextLines = 0 ∨
      (Text.lines source).length + linter.contextLines < countLimit →
        (linter.lintSource path source).isSome = true) := by
  refine ⟨fun t ht => ?_, fun c hc => ?_, fun f hf => ?_, fun linter path lines f hf => ?_,
    fun linter path => isSome_lintSource_of_room⟩
  · exact ⟨(Token.exact ht).span, (Token.exact ht).slice⟩
  · obtain ⟨hsafe, htitled⟩ := Parsed.safe_and_titled hc
    obtain ⟨part, hpart⟩ := hsafe.covers
    exact ⟨hsafe, by rw [hpart.slice?]; rfl, htitled⟩
  · rcases List.mem_append.mp hf with hf | hf
    · exact safe_of_mem_tokenize_faults source hf
    · exact Parsed.safe_of_mem_faults hf
  · have hsafe := safe_of_mem_findings hf
    exact ⟨hsafe, isSome_diagnostic?_iff hsafe⟩

/-- Around the only line of a source the most lines are to be shown that there are. -/
def widestConfig : Config := { output := { context := countLimit - 1 } }

/-- A diagnostic fails although its span is safe. -/
theorem diagnostic_overflows : ∃ linter, ofConfig widestConfig = .ok linter ∧
    ¬ ∀ f ∈ linter.findings "a.ts" "a.;".toList,
      (linter.diagnostic? "a.ts" "a.;".toList ["a.;"] f).isSome = true := by
  have hfound : (ofConfig widestConfig).toOption.map (fun linter =>
      (linter.findings "a.ts" "a.;".toList).map fun f =>
        (linter.diagnostic? "a.ts" "a.;".toList ["a.;"] f).isSome) = some [false] := by
    decide
  obtain ⟨linter, hlinter, hnone⟩ := Option.map_eq_some_iff.mp hfound
  refine ⟨linter, ?_, fun hall => ?_⟩
  · cases h : ofConfig widestConfig <;> rw [h] at hlinter <;> cases hlinter
    rfl
  · have hmem : false ∈ (linter.findings "a.ts" "a.;".toList).map fun f =>
        (linter.diagnostic? "a.ts" "a.;".toList ["a.;"] f).isSome := by
      rw [hnone]
      exact List.mem_singleton_self _
    obtain ⟨f, hf, hfails⟩ := List.mem_map.mp hmem
    rw [hall f hf] at hfails
    cases hfails

end Linter

end Subscriptions
