import Subscriptions.Proofs.Syntax.Spanning
import Subscriptions.Syntax.Arena

namespace Subscriptions

def Node.entry (n : Node) (parent : Option NodeId) : Arena.Entry :=
  ⟨n.kind, n.span, n.name, n.declared, parent, n.children.map Node.id⟩

namespace Arena

variable {a : Arena} {n : Node} {ns : List Node} {id : NodeId}

def grow (a : Arena) (n : Node) : Arena := n.postorder.foldl add a

theorem size_grow (a : Arena) (n : Node) : (a.grow n).size = a.size + n.size := by
  have hfold (ms : List Node) : ∀ a : Arena, (ms.foldl add a).size = a.size + ms.length := by
    induction ms with
    | nil => exact fun _ => rfl
    | cons m ms ih =>
      intro a
      rw [List.foldl_cons, ih, size_add, List.length_cons, Nat.add_assoc, Nat.add_comm 1]
  rw [grow, hfold, Node.length_postorder]

theorem grow_of_child (a : Arena) (serial : Nat) (kind : Kind) (span : Span) (name : Option Name)
    (declared : Option String) (c : Node) : a.grow ⟨serial, kind, span, name, declared, [c]⟩ =
      (a.grow c).add ⟨serial, kind, span, name, declared, [c]⟩ := by
  rw [grow, Node.postorder_eq, Node.postorders_singleton, List.foldl_append]
  rfl

theorem toNat_id (h : n.serial < UInt32.size) : n.id.toNat = n.serial := UInt32.toNat_ofNat_of_lt h

theorem data?_amend (a : Arena) (id j : NodeId) (f : Entry → Entry) :
    (a.amend id f).data? j = if j = id then (a.data? j).map f else a.data? j := by
  rw [amend, data?, Array.getElem?_modify]
  simp only [UInt32.toNat_inj, eq_comm, data?]

theorem data?_link (ids : List NodeId) (a : Arena) (parent j : NodeId) :
    (ids.foldl (·.setParent parent ·) a).data? j =
      (a.data? j).map fun e => if j ∈ ids then { e with parent := some parent } else e := by
  induction ids generalizing a with
  | nil => simp
  | cons c cs ih =>
    rw [List.foldl_cons, ih, setParent, data?_amend]
    by_cases hc : j = c <;> cases a.data? j <;> simp [hc]

theorem data?_alloc (h : a.size < UInt32.size) (kind : Kind) (span : Span) (ids : List NodeId)
    (j : NodeId) : (a.alloc kind span ids).2.data? j =
      if j = UInt32.ofNat a.size then some { kind, span, children := ids }
      else (a.data? j).map fun e =>
        if j ∈ ids then { e with parent := some (UInt32.ofNat a.size) } else e := by
  have hplace : j.toNat = a.size ↔ j = UInt32.ofNat a.size := by
    have hid : (UInt32.ofNat a.size).toNat = a.size := UInt32.toNat_ofNat_of_lt h
    rw [← UInt32.toNat_inj, hid]
  have hsize := size_link ids (UInt32.ofNat a.size) a
  rw [size] at hsize
  rw [alloc, data?, Array.getElem?_push, hsize]
  simp only [hplace]
  split
  · rfl
  · exact data?_link ids a (UInt32.ofNat a.size) j

/-- What is told of a node when it is in its place. -/
theorem data?_told (a : Arena) (id j : NodeId) (name : Option Name) (declared : Option String) :
    let named := name.elim a (a.setName id)
    (declared.elim named (named.setDeclared id)).data? j =
      if j = id then (a.data? j).map fun e =>
        { e with name := name.or e.name, declared := declared.or e.declared }
      else a.data? j := by
  by_cases hj : j = id <;> cases name <;> cases declared <;>
    simp [setName, setDeclared, data?_amend, hj, Function.comp_def]

/-- A node takes the place behind all others, and becomes the parent of its children. -/
theorem data?_add (h : a.size < UInt32.size) (n : Node) (j : NodeId) : (a.add n).data? j =
    if j = UInt32.ofNat a.size then some (n.entry none)
    else (a.data? j).map fun e => if j ∈ n.children.map Node.id then
      { e with parent := some (UInt32.ofNat a.size) } else e := by
  let b := a.alloc n.kind n.span (n.children.map Node.id)
  have htold := data?_told b.2 (UInt32.ofNat a.size) j n.name n.declared
  rw [data?_alloc h] at htold
  refine htold.trans ?_
  split
  · cases hname : n.name <;> cases hdeclared : n.declared <;> simp [Node.entry, hname, hdeclared]
  · rfl

/-- The arena keeps the nodes of trees, each linked to its parent. -/
structure Shows (a : Arena) (ns : List Node) : Prop where
  top : ∀ n ∈ ns, a.data? n.id = some (n.entry none)
  below : ∀ p ∈ Node.postorders ns, ∀ c ∈ p.children, a.data? c.id = some (c.entry (some p.id))

/-- Trees whose nodes have the places of an arena for serials, which fit into ids. -/
structure Numbered (ns : List Node) (size : Nat) : Prop where
  serials : (Node.postorders ns).map Node.serial = List.range size
  fits : size ≤ UInt32.size

namespace Numbered

variable {size : Nat}

theorem serial_lt (h : Numbered ns size) (hn : n ∈ Node.postorders ns) : n.serial < size := by
  rw [← List.mem_range, ← h.serials]
  exact List.mem_map_of_mem hn

theorem toNat_id (h : Numbered ns size) (hn : n ∈ Node.postorders ns) : n.id.toNat = n.serial :=
  Arena.toNat_id (Nat.lt_of_lt_of_le (h.serial_lt hn) h.fits)

/-- No two nodes have the same id, whether they are topmost or children. -/
theorem nodup_ids (h : Numbered ns size) :
    ((ns ++ (Node.postorders ns).flatMap Node.children).map Node.id).Nodup := by
  have hperm := Node.postorders_perm_children ns
  have hnodup : ((Node.postorders ns).map Node.id).Nodup := by
    have hserials : ((Node.postorders ns).map Node.serial).Nodup := by
      rw [h.serials]
      exact List.nodup_range
    refine List.Nodup.map_on (fun n hn m hm heq => ?_) hserials.of_map
    refine List.inj_on_of_nodup_map hserials hn hm ?_
    rw [← h.toNat_id hn, ← h.toNat_id hm, heq]
  exact ((hperm.map Node.id).nodup_iff).mpr hnodup

end Numbered

theorem mem_or_child (hn : n ∈ Node.postorders ns) :
    n ∈ ns ∨ ∃ p ∈ Node.postorders ns, n ∈ p.children := by
  rw [← (Node.postorders_perm_children ns).mem_iff, List.mem_append, List.mem_flatMap] at hn
  exact hn

theorem mem_of_child {p : Node} (hp : p ∈ Node.postorders ns) (hn : n ∈ p.children) :
    n ∈ Node.postorders ns :=
  (Node.postorders_perm_children ns).subset
    (List.mem_append_right _ (List.mem_flatMap.mpr ⟨p, hp, hn⟩))

namespace Shows

/-- A node that takes in the last trees of a forest keeps it in the arena. -/
theorem add {before : List Node} (h : a.Shows (before ++ n.children)) (hn : n.serial = a.size)
    (hnumbered : Numbered (before ++ n.children) a.size) (hfits : a.size < UInt32.size) :
    (a.add n).Shows (before ++ [n]) := by
  have hid : n.id = UInt32.ofNat a.size := congrArg UInt32.ofNat hn
  have hold {m : Node} (hm : m ∈ Node.postorders (before ++ n.children)) :
      m.id ≠ UInt32.ofNat a.size := by
    rw [← hid, Ne, ← UInt32.toNat_inj, hnumbered.toNat_id hm, toNat_id (hn ▸ hfits), hn]
    exact Nat.ne_of_lt (hnumbered.serial_lt hm)
  have hnodup := hnumbered.nodup_ids
  rw [List.map_append, List.nodup_append'] at hnodup
  obtain ⟨htops, -, hapart⟩ := hnodup
  rw [List.map_append, List.nodup_append'] at htops
  obtain ⟨-, -, hbefore⟩ := htops
  constructor
  · intro m hm
    rw [data?_add hfits]
    rcases List.mem_append.mp hm with hm | hm
    · have hmem := List.mem_append_left n.children hm
      have hnot : m.id ∉ n.children.map Node.id := fun h => hbefore (List.mem_map_of_mem hm) h
      rw [if_neg (hold (Node.mem_postorders_of_mem hmem)), h.top m hmem, Option.map_some,
        if_neg hnot]
    · obtain rfl := List.mem_singleton.mp hm
      rw [if_pos hid]
  · intro p hp c hc
    rw [Node.postorders_concat, List.mem_append, List.mem_singleton] at hp
    rw [data?_add hfits]
    rcases hp with hp | rfl
    · have hmem := mem_of_child hp hc
      have hnot : c.id ∉ n.children.map Node.id := by
        refine fun h => hapart ?_ (List.mem_map_of_mem (List.mem_flatMap.mpr ⟨p, hp, hc⟩))
        rw [List.map_append]
        exact List.mem_append_right _ h
      rw [if_neg (hold hmem), h.below p hp c hc, Option.map_some, if_neg hnot]
    · have hmem := List.mem_append_right before hc
      rw [if_neg (hold (Node.mem_postorders_of_mem hmem)), h.top c hmem, Option.map_some,
        if_pos (List.mem_map_of_mem hc), ← hid]
      rfl

theorem exists_entry (h : a.Shows ns) (hn : n ∈ Node.postorders ns) :
    ∃ parent, a.data? n.id = some (n.entry parent) := by
  rcases mem_or_child hn with hn | ⟨p, hp, hn⟩
  · exact ⟨none, h.top n hn⟩
  · exact ⟨some p.id, h.below p hp n hn⟩

theorem children (h : a.Shows ns) (hn : n ∈ Node.postorders ns) :
    a.children n.id = n.children.map Node.id := by
  obtain ⟨parent, hentry⟩ := h.exists_entry hn
  rw [Arena.children, hentry]
  rfl

theorem nodup_children (h : a.Shows ns) (hnumbered : Numbered ns a.size)
    (hn : n ∈ Node.postorders ns) : (a.children n.id).Nodup := by
  have hnodup := hnumbered.nodup_ids
  rw [List.map_append, List.nodup_append', List.map_flatMap, List.nodup_flatMap] at hnodup
  rw [h.children hn]
  exact hnodup.2.1.1 n hn

theorem parent?_child (h : a.Shows ns) {p : Node} (hp : p ∈ Node.postorders ns)
    (hn : n ∈ p.children) : a.parent? n.id = some p.id := by
  rw [parent?, h.below p hp n hn]
  rfl

theorem parent?_top (h : a.Shows ns) (hn : n ∈ ns) : a.parent? n.id = none := by
  rw [parent?, h.top n hn]
  rfl

end Shows

mutual
/-- The nodes of a tree on the stack are visited in the order of its cursors. -/
theorem visits_tree (above : List (Node × Nat)) (fuel : Nat) (stack : List NodeId) : ∀ n : Node,
    (∀ p ∈ n.postorder, a.children p.id = p.children.map Node.id) →
      a.visits (n.size + fuel) (n.id :: stack) = (a.visits fuel stack).map
        ((Cursor.preorderFrom above n).map (fun c => c.focus.id) ++ ·)
  | ⟨i, k, s, x, d, cs⟩, h => by
    have hroot := h _ (Node.mem_postorder_self _)
    have hsize : Node.size ⟨i, k, s, x, d, cs⟩ + fuel = (Node.sizes cs + fuel) + 1 :=
      Nat.add_right_comm _ _ _
    have hcs : ∀ p ∈ Node.postorders cs, a.children p.id = p.children.map Node.id :=
      fun p hp => h p (List.mem_append_left _ hp)
    rw [hsize, visits, hroot, visits_trees _ above 0 fuel stack cs hcs, Option.map_map]
    rfl

theorem visits_trees (parent : Node) (above : List (Node × Nat)) (position fuel : Nat)
    (stack : List NodeId) : ∀ ns : List Node,
    (∀ p ∈ Node.postorders ns, a.children p.id = p.children.map Node.id) →
      a.visits (Node.sizes ns + fuel) (ns.map Node.id ++ stack) = (a.visits fuel stack).map
        ((Cursor.preorderList parent above position ns).map (fun c => c.focus.id) ++ ·)
  | [], _ => by
    rw [Node.sizes, Nat.zero_add]
    exact Option.map_id'.symm
  | n :: ns, h => by
    have hn : ∀ p ∈ n.postorder, a.children p.id = p.children.map Node.id :=
      fun p hp => h p (List.mem_append_left _ hp)
    have hns : ∀ p ∈ Node.postorders ns, a.children p.id = p.children.map Node.id :=
      fun p hp => h p (List.mem_append_right _ hp)
    rw [Node.sizes, Nat.add_assoc, List.map_cons, List.cons_append,
      visits_tree ((parent, position) :: above) _ _ n hn,
      visits_trees parent above (position + 1) fuel stack ns hns, Option.map_map,
      Cursor.preorderList, List.map_append]
    congr 1
    funext ids
    exact (List.append_assoc _ _ _).symm
end

/-- The cursors of a tree are the nodes of the arena, with the same ways through it. -/
structure Holds (a : Arena) (root : Node) : Prop where
  entry : ∀ c ∈ root.asRoot.preorder,
    a.data? c.focus.id = some (c.focus.entry (c.parent?.map fun p => p.focus.id))
  index : ∀ c ∈ root.asRoot.preorder, a.indexInParent? c.focus.id = c.indexInParent?
  preorder : a.preorder root.id = some (root.asRoot.preorder.map fun c => c.focus.id)
  ancestors : ∀ c ∈ root.asRoot.preorder,
    a.ancestors c.focus.id = some (c.ancestors.map fun d => d.focus.id)

section
variable {root : Node}

theorem focus_mem {c : Cursor} (hc : c ∈ root.asRoot.preorder) :
    c.focus ∈ Node.postorders [root] := by
  rw [Node.postorders_singleton]
  exact (Node.preorder_perm [] root).subset (List.mem_map_of_mem hc)

theorem Numbered.root_serials {size : Nat} (h : Numbered [root] size) :
    root.postorder.map Node.serial = List.range size := by
  rw [← Node.postorders_singleton, h.serials]

/-- Serials grow on the way up. -/
theorem Numbered.serial_lt_parent {size : Nat} (h : Numbered [root] size) {p : Node}
    (hp : p ∈ Node.postorders [root]) (hn : n ∈ p.children) : n.serial < p.serial := by
  have hpairwise : (root.postorder.map Node.serial).Pairwise (· < ·) := by
    rw [h.root_serials]
    exact List.pairwise_lt_range
  rw [Node.postorders_singleton] at hp
  exact Node.serial_lt_of_mem_children hpairwise hp hn

theorem idxOf?_of_getElem? {ids : List NodeId} {i : Nat} (hnodup : ids.Nodup)
    (hi : ids[i]? = some id) : ids.idxOf? id = some i := by
  obtain ⟨hlt, rfl⟩ := List.getElem?_eq_some_iff.mp hi
  refine List.idxOf?_eq_some_iff.mpr ⟨hlt, rfl, fun j hj heq => ?_⟩
  exact Nat.ne_of_lt hj ((hnodup.getElem_inj_iff).mp heq)

namespace Shows

/-- The way up from a node is no longer than there are serials above its own. -/
theorem climb (h : a.Shows [root]) (hnumbered : Numbered [root] a.size) {fuel : Nat} :
    ∀ c ∈ root.asRoot.preorder, a.size ≤ c.focus.serial + fuel →
      a.climb fuel c.focus.id = some (c.ancestors.map fun d => d.focus.id) := by
  induction fuel with
  | zero =>
    intro c hc hfuel
    have hlt := hnumbered.serial_lt (focus_mem hc)
    omega
  | succ fuel ih =>
    intro c hc hfuel
    rcases Cursor.eq_asRoot_or_child hc with rfl | ⟨p, i, -, -, hi, hp, hancestors⟩
    · have hroot : a.parent? root.asRoot.focus.id = none := h.parent?_top List.mem_cons_self
      rw [Arena.climb, hroot]
      rfl
    · have hchild := List.mem_of_getElem? hi
      have hbelow := hnumbered.serial_lt_parent (focus_mem hp) hchild
      rw [Arena.climb, h.parent?_child (focus_mem hp) hchild, Option.elim_some,
        ih p hp (by omega), hancestors]
      rfl

theorem holds (h : a.Shows [root]) (hnumbered : Numbered [root] a.size) : a.Holds root where
  entry c hc := by
    rcases Cursor.eq_asRoot_or_child hc with rfl | ⟨p, i, hparent, -, hi, hp, -⟩
    · exact h.top root List.mem_cons_self
    · rw [hparent]
      exact h.below p.focus (focus_mem hp) _ (List.mem_of_getElem? hi)
  index c hc := by
    rcases Cursor.eq_asRoot_or_child hc with rfl | ⟨p, i, -, hindex, hi, hp, -⟩
    · have hroot : a.parent? root.asRoot.focus.id = none := h.parent?_top List.mem_cons_self
      rw [indexInParent?, hroot]
      rfl
    · have hparent := h.parent?_child (focus_mem hp) (List.mem_of_getElem? hi)
      have hplace : (a.children p.focus.id)[i]? = some c.focus.id := by
        rw [h.children (focus_mem hp), List.getElem?_map, hi, Option.map_some]
      rw [indexInParent?, hparent, Option.bind_some, hindex]
      exact idxOf?_of_getElem? (h.nodup_children hnumbered (focus_mem hp)) hplace
  preorder := by
    have hvisits := visits_tree (a := a) [] 0 [] root fun p hp =>
      h.children (Node.postorders_singleton root ▸ hp)
    have hsize : root.size = a.size := by
      have hlength := congrArg List.length hnumbered.root_serials
      rwa [List.length_map, List.length_range, Node.length_postorder] at hlength
    rw [Nat.add_zero, hsize] at hvisits
    rw [Arena.preorder, hvisits, Arena.visits, Option.map_some, List.append_nil]
    rfl
  ancestors c hc := h.climb hnumbered c hc (Nat.le_add_left _ _)

end Shows

end

end Arena

end Subscriptions
