import Mathlib

namespace RcControl.Data

/-! Items held in the slots of a list.

What a row of slots holds is a multiset, and each change of one slot is an equation
between what is held before and after: nothing is said about the other slots. -/

namespace Slots

variable {Slot Item : Type*} {holds : Slot → List Item} {slots : List Slot} {slot new : Slot}
  {item : Item} {index : Nat}

def held (holds : Slot → List Item) (slots : List Slot) : Multiset Item := slots.flatMap holds

@[simp] theorem held_nil : held holds [] = 0 := rfl

@[simp] theorem held_cons : held holds (slot :: slots) = holds slot + held holds slots := by
  rw [held, List.flatMap_cons, ← Multiset.coe_add, held]

@[simp] theorem held_append (front back : List Slot) :
    held holds (front ++ back) = held holds front + held holds back := by
  rw [held, List.flatMap_append, ← Multiset.coe_add, held, held]

theorem mem_held : item ∈ held holds slots ↔ ∃ slot ∈ slots, item ∈ holds slot := by
  rw [held, Multiset.mem_coe, List.mem_flatMap]

theorem held_set (found : slots[index]? = some slot) (new : Slot) :
    held holds (slots.set index new) + holds slot = held holds slots + holds new := by
  induction slots generalizing index with
  | nil => cases found
  | cons first slots ih =>
      cases index with
      | zero =>
          obtain rfl := Option.some.inj found
          simp only [List.set_cons_zero, held_cons]
          abel
      | succ index =>
          have rest := ih found
          simp only [List.set_cons_succ, held_cons]
          rw [add_assoc, rest, add_assoc]

theorem held_eraseIdx (found : slots[index]? = some slot) :
    held holds (slots.eraseIdx index) + holds slot = held holds slots := by
  induction slots generalizing index with
  | nil => cases found
  | cons first slots ih =>
      cases index with
      | zero =>
          obtain rfl := Option.some.inj found
          simp only [List.eraseIdx_cons_zero, held_cons]
          abel
      | succ index =>
          have rest := ih found
          simp only [List.eraseIdx_cons_succ, held_cons]
          rw [add_assoc, rest]

/-- A change that no slot's contents show. -/
theorem held_map {change : Slot → Slot} (same : ∀ slot, holds (change slot) = holds slot)
    (slots : List Slot) : held holds (slots.map change) = held holds slots := by
  simp only [held, List.flatMap_map, same]

theorem held_modify {change : Slot → Slot} (same : ∀ slot, holds (change slot) = holds slot)
    (slots : List Slot) (index : Nat) :
    held holds (slots.modify index change) = held holds slots := by
  induction slots generalizing index with
  | nil => simp
  | cons slot slots ih =>
      cases index with
      | zero => simp [same]
      | succ index => simp [ih index]

/-- What is found in a slot after one more has been added. -/
theorem getElem?_concat_eq_some {last : Slot} :
    (slots ++ [last])[index]? = some new ↔
      slots[index]? = some new ∨ index = slots.length ∧ new = last := by
  rcases Nat.lt_trichotomy index slots.length with inside | rfl | beyond
  · rw [List.getElem?_append_left inside]
    simp [Nat.ne_of_lt inside]
  · simp [eq_comm]
  · rw [List.getElem?_eq_none (by simpa using beyond), List.getElem?_eq_none (Nat.le_of_lt beyond)]
    simp [Nat.ne_of_gt beyond]

/-- What is found in a slot after one of the slots has changed. -/
theorem getElem?_modify_eq_some {change : Slot → Slot} {position : Nat} :
    (slots.modify index change)[position]? = some new ↔
      ∃ before, slots[position]? = some before ∧
        new = if index = position then change before else before := by
  rw [List.getElem?_modify]
  constructor
  · intro found
    obtain ⟨before, here, rfl⟩ := Option.map_eq_some_iff.mp found
    exact ⟨before, here, rfl⟩
  · rintro ⟨before, here, rfl⟩
    exact Option.map_eq_some_iff.mpr ⟨before, here, rfl⟩

theorem held_replicate_nil (empty : holds slot = []) (count : Nat) :
    held holds (List.replicate count slot) = 0 := by
  simp [held, List.flatMap_replicate, empty]

/-- An equation over all slots survives a change that balances for one of them. -/
theorem balance_set {counted countedAfter returned returnedAfter : Multiset Item}
    (found : slots[index]? = some slot) (before : counted = returned + held holds slots)
    (moved : countedAfter + holds slot + returned = counted + holds new + returnedAfter) :
    countedAfter = returnedAfter + held holds (slots.set index new) := by
  have hands : held holds (slots.set index new) + holds slot = held holds slots + holds new :=
    held_set found new
  have both : countedAfter + (holds slot + returned) =
      (returnedAfter + held holds (slots.set index new)) + (holds slot + returned) := by
    calc countedAfter + (holds slot + returned : Multiset Item)
      _ = counted + holds new + returnedAfter := by rw [← add_assoc, moved]
      _ = returnedAfter + returned + (held holds slots + holds new) := by
        rw [before]
        abel
      _ = (returnedAfter + held holds (slots.set index new)) + (holds slot + returned) := by
        rw [← hands]
        abel
  exact add_right_cancel both

/-! The same for numbers. -/

def weigh (weight : Slot → Nat) (slots : List Slot) : Nat := (slots.map weight).sum

variable {weight : Slot → Nat}

@[simp] theorem weigh_append (front back : List Slot) :
    weigh weight (front ++ back) = weigh weight front + weigh weight back := by
  rw [weigh, List.map_append, List.sum_append, weigh, weigh]

theorem weigh_set (found : slots[index]? = some slot) (new : Slot) :
    weigh weight (slots.set index new) + weight slot = weigh weight slots + weight new := by
  induction slots generalizing index with
  | nil => cases found
  | cons first slots ih =>
      cases index with
      | zero =>
          obtain rfl := Option.some.inj found
          simp only [List.set_cons_zero, weigh, List.map_cons, List.sum_cons]
          omega
      | succ index =>
          have rest := ih found
          simp only [List.set_cons_succ, weigh, List.map_cons, List.sum_cons] at rest ⊢
          omega

theorem weigh_eq_zero (zero : ∀ slot ∈ slots, weight slot = 0) : weigh weight slots = 0 :=
  List.sum_eq_zero (by simpa using zero)

theorem weight_le_weigh (found : slots[index]? = some slot) : weight slot ≤ weigh weight slots :=
  List.le_sum_of_mem (List.mem_map_of_mem (List.mem_of_getElem? found))

end Slots

end RcControl.Data
