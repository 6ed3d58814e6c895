import Mathlib.Data.List.Nodup
import Mathlib.Data.List.Pairwise
import Subscriptions.Proofs.Syntax.Postorder

namespace Subscriptions

namespace Node

variable {root : Node} {built : Nat}

/-- The lists of children of all nodes hold no node twice. -/
theorem nodup_children (h : root.postorder.map serial = List.range built) :
    (root.asRoot.preorder.flatMap fun c => c.focus.children.map serial).Nodup := by
  have hnodup : ((root :: root.postorder.flatMap children).map serial).Nodup := by
    rw [((postorder_perm_children root).map serial).nodup_iff, h]
    exact List.nodup_range
  have hperm : (root.asRoot.preorder.flatMap fun c => c.focus.children.map serial).Perm
      ((root.postorder.flatMap children).map serial) := by
    rw [List.map_flatMap]
    have hvisits := (preorder_perm [] root).flatMap_right fun n => n.children.map serial
    rwa [List.flatMap_map] at hvisits
  rw [hperm.nodup_iff]
  exact (List.nodup_cons.mp hnodup).2

end Node

end Subscriptions
