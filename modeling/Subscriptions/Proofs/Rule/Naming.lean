import Subscriptions.Proofs.Lockstep.Statements
import Subscriptions.Proofs.Rule.Classification

namespace Subscriptions

def Node.Spoken (source : List Char) (n : Node) : Prop :=
  n.kind = .propertyAccess → ∃ t ∈ (tokenize source).tokens,
    t.isWord = true ∧ n.name = some ⟨t.text, t.span⟩

namespace Grammar

open Node

variable {source : List Char} {ns cs : List Node} {n : Node}

/-- A node takes in the last ones pending, and perhaps some that were not. -/
theorem spoken_concat (h : ∀ p ∈ postorders (ns ++ cs), p.Spoken source)
    (hchildren : ∀ p ∈ postorders n.children, p.Spoken source ∨ p ∈ postorders cs)
    (hn : n.Spoken source) : ∀ p ∈ postorders (ns ++ [n]), p.Spoken source := by
  intro p hp
  rw [postorders_append] at h
  rw [postorders_concat, postorders_append, List.mem_append, List.mem_append,
    List.mem_singleton] at hp
  rcases hp with (hp | hp) | rfl
  · exact h p (List.mem_append_left _ hp)
  · exact (hchildren p hp).elim id fun hp => h p (List.mem_append_right _ hp)
  · exact hn

/-- All accesses that are built are named by words. -/
def spoken (source : List Char) : Pairing where
  token t u := t ∈ (tokenize source).tokens ∧ t = u
  place _ _ := True
  name _ _ := True
  memberName _ _ := True
  declared _ _ := True
  holds ns _ _ _ := ∀ p ∈ postorders ns, p.Spoken source
  piece h := by rw [h.2]
  place_start _ := trivial
  name_word _ := trivial
  memberName_unquoted _ := trivial
  memberName_computed _ _ _ := trivial
  declared_none := trivial
  declared_read _ _ := trivial
  holds_read _ h := h.holds
  holds_report h _ := h.holds
  holds_build h _ hkind _ _ _ :=
    spoken_concat h.holds (fun _ => .inr) fun haccess => absurd haccess hkind
  holds_access h hword _ :=
    spoken_concat h.holds (fun _ => .inr) fun _ => ⟨_, h.current.1, hword, rfl⟩
  holds_alloc _ _ h := h.holds
  holds_shorthand _ h _ _ _ := by
    refine spoken_concat h.holds (fun p hp => ?_) Kind.noConfusion
    rcases List.mem_cons.mp hp with rfl | hp
    · exact .inl Kind.noConfusion
    · exact .inr hp

theorem spoken_start (source : List Char) :
    (spoken source).Twin [] [] (Parsed.start source) (Parsed.start source) :=
  Parsed.twin_self _ (fun _ ht => ⟨ht, rfl⟩) nofun

end Grammar

/-- Every access of a source is named by a word of the source. -/
theorem Parsed.spoken_of_mem {source : List Char} {c : Cursor}
    (hc : c ∈ (ofSource source).root.asRoot.preorder) : c.focus.Spoken source := by
  obtain ⟨xs, ys, s, t, htwin, hroot, -⟩ := twin_of_start _ (Grammar.spoken_start source)
  have hbelow : ∀ p ∈ Node.postorders xs, p.Spoken source := htwin.holds
  have hfocus := (Node.preorder_perm [] _).subset (List.mem_map_of_mem hc)
  rw [hroot, Node.postorder_eq] at hfocus
  rcases List.mem_append.mp hfocus with hfocus | hfocus
  · exact hbelow _ hfocus
  · rw [List.mem_singleton.mp hfocus]
    exact Kind.noConfusion

/-- The rule flags words of the source that are the verb. -/
theorem UntrackedRule.spoken_of_violation? {rule : UntrackedRule} {resolve : Resolver}
    {source : List Char} {c : Cursor} {v : Violation}
    (hc : c ∈ (Parsed.ofSource source).root.asRoot.preorder)
    (h : rule.violation? resolve c = some v) :
    ∃ t ∈ (tokenize source).tokens, t.isWord = true ∧ t.text = rule.verb ∧ v.span = t.span := by
  obtain ⟨-, hkind, name, hname, hverb, hspan⟩ := named_of_violation? h
  obtain ⟨t, ht, hword, htoken⟩ := Parsed.spoken_of_mem hc hkind
  rw [hname] at htoken
  cases htoken
  exact ⟨t, ht, hword, hverb, hspan⟩

end Subscriptions
