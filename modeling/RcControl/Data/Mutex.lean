import Mathlib

namespace RcControl.Data

/-! Threads and a mutex.

A thread is a stage of its program, and some stages are inside the part that the mutex
protects.  What one step has to show is about the thread that takes it alone. -/

section Excludes

variable {Who : Type*} {inside after : Who → Bool} {owner : Option Who} {who : Who}

/-- Those who are inside are those who own the mutex. -/
def Excludes (inside : Who → Bool) (owner : Option Who) : Prop :=
  ∀ who, inside who = true ↔ owner = some who

namespace Excludes

theorem owned (excludes : Excludes inside owner) (within : inside who = true) : owner = some who :=
  (excludes who).mp within

/-- A step inside, or one outside. -/
theorem stay (excludes : Excludes inside owner) (others : ∀ other, other ≠ who → after other = inside other)
    (same : after who = inside who) : Excludes after owner := by
  intro other
  by_cases here : other = who
  · rw [here, same]
    exact excludes who
  · rw [others other here]
    exact excludes other

theorem enter (excludes : Excludes inside none) (others : ∀ other, other ≠ who → after other = inside other)
    (enters : after who = true) : Excludes after (some who) := by
  intro other
  by_cases here : other = who
  · rw [here]
    exact iff_of_true enters rfl
  · rw [others other here, excludes other]
    exact iff_of_false (by simp) fun same => here (Option.some.inj same).symm

theorem leave (excludes : Excludes inside owner) (others : ∀ other, other ≠ who → after other = inside other)
    (within : inside who = true) (leaves : after who = false) : Excludes after none := by
  have owned := excludes.owned within
  intro other
  by_cases here : other = who
  · rw [here, leaves]
    exact iff_of_false Bool.false_ne_true (by simp)
  · rw [others other here, excludes other, owned]
    exact iff_of_false (fun same => here (Option.some.inj same).symm) (by simp)

end Excludes

end Excludes

variable {Stage : Type*} {inside : Stage → Bool} {threads : List Stage} {owner : Option Nat}
  {index other : Nat} {stage next : Stage}

/-- A thread is inside exactly if it owns the mutex. -/
def Guarded (inside : Stage → Bool) (threads : List Stage) (owner : Option Nat) : Prop :=
  Excludes (fun index : Nat => threads[index]?.any inside) owner

namespace Guarded

theorem inside_iff (guarded : Guarded inside threads owner) (found : threads[index]? = some stage) :
    inside stage = true ↔ owner = some index := by
  have within : threads[index]?.any inside = true ↔ owner = some index := guarded index
  rw [← within, found, Option.any_some]

theorem owner_found (guarded : Guarded inside threads owner) (owned : owner = some index) :
    ∃ stage, threads[index]? = some stage ∧ inside stage = true := by
  have any : threads[index]?.any inside = true := (guarded index).mpr owned
  cases found : threads[index]? with
  | none =>
      rw [found] at any
      cases any
  | some stage =>
      rw [found] at any
      exact ⟨stage, rfl, any⟩

theorem any_set_self (found : threads[index]? = some stage) (next : Stage) :
    (threads.set index next)[index]?.any inside = inside next := by
  rw [List.getElem?_set_self (List.getElem?_eq_some_iff.mp found).1, Option.any_some]

theorem any_set_ne (threads : List Stage) (next : Stage) (position : Nat) (elsewhere : position ≠ index) :
    (threads.set index next)[position]?.any inside = threads[position]?.any inside := by
  rw [List.getElem?_set_ne (Ne.symm elsewhere)]

/-- A step inside, or one outside. -/
theorem stay (guarded : Guarded inside threads owner) (found : threads[index]? = some stage)
    (same : inside next = inside stage) : Guarded inside (threads.set index next) owner :=
  Excludes.stay guarded (any_set_ne threads next) (by rw [any_set_self found, same, found, Option.any_some])

theorem enter (guarded : Guarded inside threads none) (found : threads[index]? = some stage)
    (enters : inside next = true) : Guarded inside (threads.set index next) (some index) :=
  Excludes.enter guarded (any_set_ne threads next) (by rw [any_set_self found, enters])

theorem leave (guarded : Guarded inside threads owner) (found : threads[index]? = some stage)
    (within : inside stage = true) (leaves : inside next = false) :
    Guarded inside (threads.set index next) none :=
  Excludes.leave guarded (any_set_ne threads next) (by rw [found, Option.any_some, within])
    (by rw [any_set_self found, leaves])

theorem concat (guarded : Guarded inside threads owner) (outside : inside next = false) :
    Guarded inside (threads ++ [next]) owner := by
  intro position
  change (threads ++ [next])[position]?.any inside = true ↔ owner = some position
  rcases Nat.lt_trichotomy position threads.length with older | rfl | beyond
  · rw [List.getElem?_append_left older]
    exact guarded position
  · have unowned : owner ≠ some threads.length := by
      intro owned
      obtain ⟨stage, found, -⟩ := guarded.owner_found owned
      exact absurd (List.getElem?_eq_some_iff.mp found).1 (Nat.lt_irrefl _)
    rw [List.getElem?_concat_length, Option.any_some, outside]
    exact iff_of_false Bool.false_ne_true unowned
  · have older : threads[position]?.any inside = true ↔ owner = some position := guarded position
    rw [List.getElem?_eq_none (Nat.le_of_lt beyond)] at older
    rw [List.getElem?_eq_none (by simpa using beyond)]
    exact older

end Guarded

end RcControl.Data
