import Subscriptions.Syntax.Cursor

namespace Subscriptions

namespace Node

mutual
def postorder : Node → List Node
  | ⟨i, k, s, n, d, children⟩ => postorders children ++ [⟨i, k, s, n, d, children⟩]

def postorders : List Node → List Node
  | [] => []
  | c :: cs => c.postorder ++ postorders cs
end

theorem postorder_eq (n : Node) : n.postorder = postorders n.children ++ [n] := by
  cases n
  rfl

theorem postorders_append (ns ms : List Node) :
    postorders (ns ++ ms) = postorders ns ++ postorders ms := by
  induction ns with
  | nil => rfl
  | cons n ns ih => simp [postorders, ih]

theorem postorders_singleton (n : Node) : postorders [n] = n.postorder := by simp [postorders]

/-- A node that takes in the last ones of a list comes after them. -/
theorem postorders_concat (before : List Node) (n : Node) :
    postorders (before ++ [n]) = postorders (before ++ n.children) ++ [n] := by
  rw [postorders_append, postorders_singleton, postorder_eq, postorders_append, List.append_assoc]

mutual
theorem length_postorder : ∀ n : Node, n.postorder.length = n.size
  | ⟨_, _, _, _, _, children⟩ => by simp [postorder, size, length_postorders children]

theorem length_postorders : ∀ ns : List Node, (postorders ns).length = sizes ns
  | [] => rfl
  | c :: cs => by simp [postorders, sizes, length_postorder c, length_postorders cs]
end

mutual
/-- Both orders visit the same nodes. -/
theorem preorder_perm (above : List (Node × Nat)) : ∀ n : Node,
    ((Cursor.preorderFrom above n).map Cursor.focus).Perm n.postorder
  | ⟨i, k, s, n, d, children⟩ => by
    simp only [Cursor.preorderFrom, postorder, List.map_cons]
    refine .trans ?_ List.perm_append_comm
    exact (preorders_perm _ above 0 children).cons _

theorem preorders_perm (parent : Node) (above : List (Node × Nat)) (position : Nat) :
    ∀ ns : List Node,
      ((Cursor.preorderList parent above position ns).map Cursor.focus).Perm (postorders ns)
  | [] => .refl _
  | c :: cs => by
    simp only [Cursor.preorderList, postorders, List.map_append]
    exact (preorder_perm _ c).append (preorders_perm parent above (position + 1) cs)
end

mutual
/-- The lists of children hold each node but the root once. -/
theorem postorder_perm_children : ∀ n : Node,
    (n :: n.postorder.flatMap Node.children).Perm n.postorder
  | ⟨i, k, s, n, d, children⟩ => by
    have h := postorders_perm_children children
    simp only [postorder, List.flatMap_append, List.flatMap_singleton]
    refine .trans ?_ List.perm_append_comm
    exact .cons _ (List.perm_append_comm.trans h)

theorem postorders_perm_children : ∀ ns : List Node,
    (ns ++ (postorders ns).flatMap Node.children).Perm (postorders ns)
  | [] => .refl _
  | c :: cs => by
    have hc := postorder_perm_children c
    have hcs := postorders_perm_children cs
    simp only [postorders, List.flatMap_append]
    refine .trans ?_ (hc.append hcs)
    simp only [List.cons_append]
    refine .cons _ ?_
    rw [← List.append_assoc, ← List.append_assoc]
    exact List.perm_append_comm.append_right _
end

mutual
/-- All below a node come before it, next to one another. -/
theorem isInfix_of_mem_postorder {m : Node} : ∀ n : Node, m ∈ n.postorder → m.postorder <:+: n.postorder
  | ⟨i, k, s, n, d, children⟩, h => by
    rw [postorder] at h ⊢
    rcases List.mem_append.mp h with h | h
    · exact (isInfix_of_mem_postorders children h).trans (List.prefix_append _ _).isInfix
    · obtain rfl := List.mem_singleton.mp h
      exact List.infix_refl _

theorem isInfix_of_mem_postorders {m : Node} :
    ∀ ns : List Node, m ∈ postorders ns → m.postorder <:+: postorders ns
  | [], h => nomatch h
  | c :: cs, h => by
    rw [postorders] at h ⊢
    rcases List.mem_append.mp h with h | h
    · exact (isInfix_of_mem_postorder c h).trans (List.prefix_append _ _).isInfix
    · exact (isInfix_of_mem_postorders cs h).trans (List.suffix_append _ _).isInfix
end

theorem mem_postorder_self (n : Node) : n ∈ n.postorder := by
  rw [postorder_eq]
  exact List.mem_append_right _ List.mem_cons_self

theorem mem_postorders_of_mem {n : Node} {ns : List Node} (h : n ∈ ns) : n ∈ postorders ns := by
  obtain ⟨before, after, rfl⟩ := List.append_of_mem h
  rw [postorders_append, postorders]
  exact List.mem_append_right _ (List.mem_append_left _ n.mem_postorder_self)

/-- Where serials grow along a tree, those of children are less than that of their parent. -/
theorem serial_lt_of_mem_children {root n c : Node}
    (h : (root.postorder.map serial).Pairwise (· < ·)) (hn : n ∈ root.postorder)
    (hc : c ∈ n.children) : c.serial < n.serial := by
  have hsub := ((isInfix_of_mem_postorder root hn).sublist.map serial)
  have hpairwise := h.sublist hsub
  rw [postorder_eq, List.map_append, List.pairwise_append] at hpairwise
  exact hpairwise.2.2 _ (List.mem_map_of_mem (mem_postorders_of_mem hc)) _ List.mem_cons_self

end Node

namespace Cursor

mutual
/-- The way up from any cursor but the topmost one goes to another one, of which it is at a child. -/
theorem above_of_mem_preorderFrom {c : Cursor} (above : List (Node × Nat)) : ∀ n : Node,
    c ∈ preorderFrom above n → c = ⟨n, above⟩ ∨
      ∃ p i rest, c.above = (p, i) :: rest ∧ p.children[i]? = some c.focus ∧
        ⟨p, rest⟩ ∈ preorderFrom above n
  | ⟨i, k, s, n, d, children⟩, h => by
    rw [preorderFrom] at h ⊢
    rcases List.mem_cons.mp h with rfl | h
    · exact .inl rfl
    · refine .inr ?_
      rcases above_of_mem_preorderList _ above 0 children h with
        ⟨j, hj, habove⟩ | ⟨p, j, rest, habove, hj, hp⟩
      · exact ⟨_, _, _, habove, by simpa using hj, List.mem_cons_self⟩
      · exact ⟨p, j, rest, habove, hj, List.mem_cons_of_mem _ hp⟩

theorem above_of_mem_preorderList {c : Cursor} (parent : Node) (above : List (Node × Nat))
    (position : Nat) : ∀ ns : List Node, c ∈ preorderList parent above position ns →
      (∃ i, ns[i]? = some c.focus ∧ c.above = (parent, position + i) :: above) ∨
      ∃ p i rest, c.above = (p, i) :: rest ∧ p.children[i]? = some c.focus ∧
        ⟨p, rest⟩ ∈ preorderList parent above position ns
  | [], h => nomatch h
  | m :: ms, h => by
    rw [preorderList] at h ⊢
    rcases List.mem_append.mp h with h | h
    · rcases above_of_mem_preorderFrom _ m h with rfl | ⟨p, j, rest, habove, hj, hp⟩
      · exact .inl ⟨0, rfl, rfl⟩
      · exact .inr ⟨p, j, rest, habove, hj, List.mem_append_left _ hp⟩
    · rcases above_of_mem_preorderList parent above (position + 1) ms h with
        ⟨j, hj, habove⟩ | ⟨p, j, rest, habove, hj, hp⟩
      · refine .inl ⟨j + 1, hj, ?_⟩
        rw [habove, Nat.add_right_comm, Nat.add_assoc]
      · exact .inr ⟨p, j, rest, habove, hj, List.mem_append_right _ hp⟩
end

variable {root : Node} {c : Cursor}

/-- A cursor of a tree is at the root, or at a child of a cursor of the tree. -/
theorem eq_asRoot_or_child (h : c ∈ root.asRoot.preorder) : c = root.asRoot ∨
    ∃ p i, c.parent? = some p ∧ c.indexInParent? = some i ∧
      p.focus.children[i]? = some c.focus ∧ p ∈ root.asRoot.preorder ∧
        c.ancestors = p :: p.ancestors := by
  rcases above_of_mem_preorderFrom [] root h with rfl | ⟨p, i, rest, habove, hi, hp⟩
  · exact .inl rfl
  · refine .inr ⟨⟨p, rest⟩, i, ?_, ?_, hi, hp, ?_⟩
    · rw [parent?, habove]
    · rw [indexInParent?, habove]
      rfl
    · rw [ancestors, habove]
      rfl

/-- An ancestor is a place on the way up. -/
theorem mem_ancestors_iff {a : Cursor} :
    a ∈ c.ancestors ↔ ∃ i, (a.focus, i) :: a.above <:+ c.above := by
  obtain ⟨focus, above⟩ := c
  induction above generalizing focus with
  | nil => simp [ancestors, ancestorsOf]
  | cons p above ih =>
    have hancestors : (mk focus (p :: above)).ancestors = ⟨p.1, above⟩ :: (mk p.1 above).ancestors :=
      rfl
    rw [hancestors, List.mem_cons, ih]
    simp only [List.suffix_cons_iff, exists_or]
    refine or_congr_left ⟨?_, ?_⟩
    · rintro rfl
      exact ⟨p.2, rfl⟩
    · rintro ⟨i, hi⟩
      cases hi
      rfl

theorem not_mem_ancestors_self : c ∉ c.ancestors := by
  intro h
  obtain ⟨i, hi⟩ := mem_ancestors_iff.mp h
  exact absurd hi.length_le (Nat.not_succ_le_self _)

mutual
theorem suffix_of_mem_preorderFrom {d : Cursor} (above : List (Node × Nat)) : ∀ n : Node,
    d ∈ preorderFrom above n → above <:+ d.above
  | ⟨i, k, s, n, t, children⟩, h => by
    rw [preorderFrom] at h
    rcases List.mem_cons.mp h with rfl | h
    · exact List.suffix_rfl
    · obtain ⟨j, -, hj⟩ := suffix_of_mem_preorderList _ above 0 children h
      exact (List.suffix_cons _ _).trans hj

/-- Below a parent the way up goes to it from one of its children. -/
theorem suffix_of_mem_preorderList {d : Cursor} (parent : Node) (above : List (Node × Nat))
    (position : Nat) : ∀ ns : List Node, d ∈ preorderList parent above position ns →
      ∃ i, position ≤ i ∧ (parent, i) :: above <:+ d.above
  | [], h => nomatch h
  | m :: ms, h => by
    rw [preorderList] at h
    rcases List.mem_append.mp h with h | h
    · exact ⟨position, Nat.le_refl _, suffix_of_mem_preorderFrom _ m h⟩
    · obtain ⟨i, hi, hsuffix⟩ := suffix_of_mem_preorderList parent above (position + 1) ms h
      exact ⟨i, Nat.le_of_succ_le hi, hsuffix⟩
end

/-- Below two children of one parent, no place is on the way up from the other. -/
theorem not_mem_ancestors_of_apart {d e : Cursor} {parent : Node} {above : List (Node × Nat)}
    {i j : Nat} (hij : i ≠ j) (hd : (parent, i) :: above <:+ d.above)
    (he : (parent, j) :: above <:+ e.above) : e ∉ d.ancestors := by
  intro hmem
  obtain ⟨k, hk⟩ := mem_ancestors_iff.mp hmem
  have hj := (he.trans (List.suffix_cons _ _)).trans hk
  have heq := (List.suffix_of_suffix_length_le hd hj (Nat.le_refl _)).eq_of_length rfl
  exact hij (congrArg Prod.snd (List.cons.inj heq).1)

/-- How two places of a tree stand when the first is visited earlier: no place comes before one on
its way up, and `S` goes from the node below to the one above, or else from the first to the second. -/
structure Earlier (S : Node → Node → Prop) (c d : Cursor) : Prop where
  not_below : d ∉ c.ancestors
  above : c ∈ d.ancestors → S d.focus c.focus
  apart : c ∉ d.ancestors → S c.focus d.focus

mutual
/-- What relates the nodes in the order of building relates them in the order of visits, but the
other way round for a node and those below it. -/
theorem pairwise_preorderFrom {S : Node → Node → Prop} (above : List (Node × Nat)) : ∀ n : Node,
    n.postorder.Pairwise S → (preorderFrom above n).Pairwise (Earlier S)
  | ⟨i, k, s, n, t, children⟩, h => by
    rw [Node.postorder, List.pairwise_append] at h
    refine List.pairwise_cons.mpr ⟨fun d hd => ?_, pairwise_preorderList _ above 0 children h.1⟩
    have hfocus := (Node.preorders_perm _ above 0 children).subset (List.mem_map_of_mem hd)
    obtain ⟨j, -, hj⟩ := suffix_of_mem_preorderList _ above 0 children hd
    refine ⟨fun hbelow => ?_, fun _ => h.2.2 _ hfocus _ List.mem_cons_self, fun hout => ?_⟩
    · obtain ⟨l, hl⟩ := mem_ancestors_iff.mp hbelow
      have hshort : d.above.length + 1 ≤ above.length := hl.length_le
      have hlong : above.length + 1 ≤ d.above.length := hj.length_le
      omega
    · exact absurd (mem_ancestors_iff.mpr ⟨j, hj⟩) hout

theorem pairwise_preorderList {S : Node → Node → Prop} (parent : Node) (above : List (Node × Nat))
    (position : Nat) : ∀ ns : List Node, (Node.postorders ns).Pairwise S →
      (preorderList parent above position ns).Pairwise (Earlier S)
  | [], _ => List.Pairwise.nil
  | m :: ms, h => by
    rw [Node.postorders, List.pairwise_append] at h
    rw [preorderList, List.pairwise_append]
    refine ⟨pairwise_preorderFrom _ m h.1, pairwise_preorderList parent above _ ms h.2.1, ?_⟩
    intro d hd e he
    have hdfocus := (Node.preorder_perm _ m).subset (List.mem_map_of_mem hd)
    have hefocus := (Node.preorders_perm _ above _ ms).subset (List.mem_map_of_mem he)
    have hdabove := suffix_of_mem_preorderFrom _ m hd
    obtain ⟨j, hj, heabove⟩ := suffix_of_mem_preorderList parent above _ ms he
    have hne : position ≠ j := by omega
    refine ⟨not_mem_ancestors_of_apart hne hdabove heabove, fun hmem => ?_,
      fun _ => h.2.2 _ hdfocus _ hefocus⟩
    exact absurd hmem (not_mem_ancestors_of_apart hne.symm heabove hdabove)
end

end Cursor

end Subscriptions
