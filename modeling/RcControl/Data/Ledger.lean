import Mathlib

namespace RcControl.Data

/-! Items that are moved between places.

A ledger says which items are at each place.  What matters for conservation is the
multiset of everything at all places: moving one item leaves it as it is, and where it
has no duplicates each item is at one place, once. -/

namespace Ledger

variable {Place Item : Type*} {ledger after : Place → List Item} {item other : Item}
  {place source target : Place}

section Total

variable [Fintype Place]

def total (ledger : Place → List Item) : Multiset Item :=
  ∑ place, (ledger place : Multiset Item)

theorem total_perm (same : ∀ place, (after place).Perm (ledger place)) : total after = total ledger :=
  Finset.sum_congr rfl fun place _ => Multiset.coe_eq_coe.mpr (same place)

theorem mem_total : item ∈ total ledger ↔ ∃ place, item ∈ ledger place := by
  simp [total, Multiset.mem_sum]

end Total

variable [DecidableEq Place]

/-- The item leaves the source and arrives at the target; the other places keep what
they have. -/
def Moves (ledger after : Place → List Item) (source target : Place) (item : Item) : Prop :=
  ∀ place, (after place : Multiset Item) + (if place = source then {item} else 0) =
    (ledger place : Multiset Item) + (if place = target then {item} else 0)

/-- It is enough to know the two places, and that no other is touched. -/
theorem Moves.of_perm (apart : source ≠ target) (left : (ledger source).Perm (item :: after source))
    (arrived : (after target).Perm (item :: ledger target))
    (elsewhere : ∀ place, place ≠ source → place ≠ target → after place = ledger place) :
    Moves ledger after source target item := by
  intro place
  by_cases atSource : place = source
  · subst atSource
    rw [if_pos rfl, if_neg apart, Multiset.coe_eq_coe.mpr left, add_zero, add_comm,
      Multiset.singleton_add, Multiset.cons_coe]
  · by_cases atTarget : place = target
    · subst atTarget
      rw [if_neg atSource, if_pos rfl, Multiset.coe_eq_coe.mpr arrived, add_zero, add_comm,
        Multiset.singleton_add, Multiset.cons_coe]
    · rw [if_neg atSource, if_neg atTarget, elsewhere place atSource atTarget]

theorem Moves.mem (moves : Moves ledger after source target item) (member : other ∈ after place) :
    other ∈ ledger place ∨ other = item ∧ place = target := by
  have found : other ∈ (ledger place : Multiset Item) + (if place = target then {item} else 0) := by
    rw [← moves place]
    exact Multiset.mem_add.mpr (.inl (Multiset.mem_coe.mpr member))
  rcases Multiset.mem_add.mp found with earlier | moved
  · exact .inl (Multiset.mem_coe.mp earlier)
  · split at moved
    · rename_i arrived
      exact .inr ⟨Multiset.mem_singleton.mp moved, arrived⟩
    · exact absurd moved (Multiset.notMem_zero other)

theorem Moves.mem_before (moves : Moves ledger after source target item) (member : other ∈ ledger place) :
    other ∈ after place ∨ other = item ∧ place = source := by
  have found : other ∈ (after place : Multiset Item) + (if place = source then {item} else 0) := by
    rw [moves place]
    exact Multiset.mem_add.mpr (.inl (Multiset.mem_coe.mpr member))
  rcases Multiset.mem_add.mp found with later | moved
  · exact .inl (Multiset.mem_coe.mp later)
  · split at moved
    · rename_i left
      exact .inr ⟨Multiset.mem_singleton.mp moved, left⟩
    · exact absurd moved (Multiset.notMem_zero other)

theorem Moves.arrived (moves : Moves ledger after source target item) (apart : source ≠ target) :
    item ∈ after target := by
  have balance := moves target
  rw [if_neg apart.symm, if_pos rfl, add_zero] at balance
  exact Multiset.mem_coe.mp (balance ▸ Multiset.mem_add.mpr (.inr (Multiset.mem_singleton_self item)))

variable [Fintype Place]

theorem total_moves (moves : Moves ledger after source target item) : total after = total ledger := by
  have balance := Finset.sum_congr (Eq.refl Finset.univ) fun place (_ : place ∈ _) => moves place
  simp only [Finset.sum_add_distrib, Finset.sum_ite_eq', Finset.mem_univ, if_true] at balance
  exact add_right_cancel balance

theorem total_eq_add (ledger : Place → List Item) (place : Place) :
    total ledger = ledger place + ∑ other ∈ Finset.univ.erase place, (ledger other : Multiset Item) :=
  (Finset.add_sum_erase _ _ (Finset.mem_univ place)).symm

theorem le_total (ledger : Place → List Item) (place : Place) :
    (ledger place : Multiset Item) ≤ total ledger := by
  rw [total_eq_add ledger place]
  exact Multiset.le_add_right _ _

theorem nodup_place (nodup : (total ledger).Nodup) (place : Place) : (ledger place).Nodup :=
  Multiset.coe_nodup.mp (Multiset.nodup_of_le (le_total ledger place) nodup)

theorem place_unique (nodup : (total ledger).Nodup) {elsewhere : Place} (here : item ∈ ledger place)
    (there : item ∈ ledger elsewhere) : elsewhere = place := by
  by_contra different
  rw [total_eq_add ledger place, Multiset.nodup_add] at nodup
  have outside : item ∈ ∑ other ∈ Finset.univ.erase place, (ledger other : Multiset Item) :=
    Multiset.mem_sum.mpr ⟨elsewhere, Finset.mem_erase.mpr ⟨different, Finset.mem_univ elsewhere⟩,
      Multiset.mem_coe.mpr there⟩
  exact Multiset.disjoint_left.mp nodup.2.2 (Multiset.mem_coe.mpr here) outside

theorem existsUnique_place (nodup : (total ledger).Nodup) (member : item ∈ total ledger) :
    ∃! place, item ∈ ledger place := by
  obtain ⟨place, here⟩ := mem_total.mp member
  exact ⟨place, here, fun elsewhere there => place_unique nodup here there⟩

end Ledger

end RcControl.Data
