import Mathlib

namespace RcControl.Data

/-! References among nodes: each node may refer to one other, and a node counts the nodes
that refer to it. -/

namespace References

variable {Node : Type*} [Fintype Node] [DecidableEq Node] {reference : Node → Option Node}
  {node target : Node} {value : Option Node}

/-- How many nodes refer to a node. -/
def referencers (reference : Node → Option Node) (target : Node) : Nat :=
  ∑ node, if reference node = some target then 1 else 0

theorem referencers_update (reference : Node → Option Node) (node : Node) (value : Option Node)
    (target : Node) :
    referencers (Function.update reference node value) target +
        (if reference node = some target then 1 else 0) =
      referencers reference target + (if value = some target then 1 else 0) := by
  have others : ∑ other ∈ Finset.univ.erase node,
      (if Function.update reference node value other = some target then 1 else 0) =
      ∑ other ∈ Finset.univ.erase node, if reference other = some target then 1 else 0 := by
    apply Finset.sum_congr rfl
    intro other member
    rw [Function.update_of_ne (Finset.ne_of_mem_erase member)]
  have before := Finset.add_sum_erase Finset.univ
    (fun other => if reference other = some target then 1 else 0) (Finset.mem_univ node)
  have after := Finset.add_sum_erase Finset.univ
    (fun other => if Function.update reference node value other = some target then 1 else 0)
    (Finset.mem_univ node)
  rw [Function.update_self, others] at after
  rw [referencers, referencers, ← before, ← after]
  omega

theorem referencers_pos (refers : reference node = some target) : 0 < referencers reference target :=
  Finset.sum_pos' (fun _ _ => Nat.zero_le _) ⟨node, Finset.mem_univ node, by rw [if_pos refers]; exact one_pos⟩

theorem referencers_eq_zero (unreferenced : ∀ node, reference node ≠ some target) :
    referencers reference target = 0 :=
  Finset.sum_eq_zero fun node _ => if_neg (unreferenced node)

theorem referencers_none : referencers (fun _ : Node => none) target = 0 :=
  referencers_eq_zero fun _ refers => by cases refers

end References

end RcControl.Data
