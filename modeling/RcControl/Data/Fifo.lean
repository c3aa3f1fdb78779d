import Mathlib

namespace RcControl.Data

/-! First-in first-out queues that remember what went through them.

`pushed` and `taken` list the items in the order they entered and left.  The item
taken last may be put back at the head, which undoes the taking, and clearing the queue
discards what is in it. -/

structure Fifo (Item : Type*) where
  queue : List Item
  pushed : List Item
  taken : List Item
  discarded : List Item

namespace Fifo

variable {Item : Type*}

def filled (items : List Item) : Fifo Item := ⟨items, items, [], []⟩

def empty : Fifo Item := filled []

def push (fifo : Fifo Item) (item : Item) : Fifo Item :=
  { fifo with queue := fifo.queue ++ [item], pushed := fifo.pushed ++ [item] }

def take (fifo : Fifo Item) : Fifo Item :=
  match fifo.queue with
  | [] => fifo
  | item :: queue => { fifo with queue, taken := fifo.taken ++ [item] }

def putBack (fifo : Fifo Item) (item : Item) : Fifo Item :=
  { fifo with queue := item :: fifo.queue, taken := fifo.taken.dropLast }

def clear (fifo : Fifo Item) : Fifo Item :=
  { fifo with queue := [], discarded := fifo.discarded ++ fifo.queue }

theorem take_cons {fifo : Fifo Item} {item : Item} {rest : List Item}
    (head : fifo.queue = item :: rest) :
    fifo.take = { fifo with queue := rest, taken := fifo.taken ++ [item] } := by
  rw [take, head]

/-- Items leave in the order they came, and each one that came is taken, in the queue or
discarded, as often as it came. -/
structure Accounted (fifo : Fifo Item) : Prop where
  order : (fifo.taken ++ fifo.queue).Sublist fifo.pushed
  whole : fifo.pushed.Perm (fifo.taken ++ fifo.queue ++ fifo.discarded)

variable {fifo : Fifo Item}

theorem accounted_filled (items : List Item) : (filled items).Accounted where
  order := List.Sublist.refl items
  whole := (List.append_nil items).symm ▸ List.Perm.refl items

theorem Accounted.push (accounted : fifo.Accounted) (item : Item) : (fifo.push item).Accounted where
  order := by
    change (fifo.taken ++ (fifo.queue ++ [item])).Sublist (fifo.pushed ++ [item])
    rw [← List.append_assoc]
    exact accounted.order.append_right [item]
  whole := by
    change (fifo.pushed ++ [item]).Perm (fifo.taken ++ (fifo.queue ++ [item]) ++ fifo.discarded)
    refine (accounted.whole.append_right [item]).trans ?_
    rw [← List.append_assoc fifo.taken, List.append_assoc _ fifo.discarded,
      List.append_assoc _ [item]]
    exact List.perm_append_comm.append_left _

/-- Taking the head moves it from the front of the queue to the end of what was taken. -/
theorem take_append (fifo : Fifo Item) :
    fifo.take.taken ++ fifo.take.queue = fifo.taken ++ fifo.queue := by
  unfold take
  split
  · rfl
  · rename_i item queue head
    rw [head, List.append_assoc]
    rfl

theorem putBack_append {front : List Item} {item : Item} (last : fifo.taken = front ++ [item]) :
    (fifo.putBack item).taken ++ (fifo.putBack item).queue = fifo.taken ++ fifo.queue := by
  rw [putBack, last, List.dropLast_concat, List.append_assoc]
  rfl

theorem take_frame (fifo : Fifo Item) :
    fifo.take.pushed = fifo.pushed ∧ fifo.take.discarded = fifo.discarded := by
  unfold take
  split <;> exact ⟨rfl, rfl⟩

theorem Accounted.take (accounted : fifo.Accounted) : fifo.take.Accounted := by
  obtain ⟨pushed, discarded⟩ := fifo.take_frame
  constructor
  · rw [take_append, pushed]
    exact accounted.order
  · rw [take_append, pushed, discarded]
    exact accounted.whole

theorem Accounted.putBack (accounted : fifo.Accounted) {front : List Item} {item : Item}
    (last : fifo.taken = front ++ [item]) : (fifo.putBack item).Accounted := by
  constructor
  · rw [putBack_append last]
    exact accounted.order
  · rw [putBack_append last]
    exact accounted.whole

theorem Accounted.clear (accounted : fifo.Accounted) : fifo.clear.Accounted where
  order := by
    rw [Fifo.clear, List.append_nil]
    exact (List.sublist_append_left _ _).trans accounted.order
  whole := by
    rw [Fifo.clear, List.append_nil]
    refine accounted.whole.trans ?_
    rw [List.append_assoc]
    exact List.perm_append_comm.append_left _

theorem Accounted.taken_sublist (accounted : fifo.Accounted) : fifo.taken.Sublist fifo.pushed :=
  (List.sublist_append_left _ _).trans accounted.order

theorem Accounted.mem_pushed (accounted : fifo.Accounted) {item : Item} (member : item ∈ fifo.pushed) :
    item ∈ fifo.taken ∨ item ∈ fifo.queue ∨ item ∈ fifo.discarded := by
  have found := accounted.whole.subset member
  simpa only [List.mem_append, or_assoc] using found

/-- As long as nothing is discarded, what came is what was taken and what is waiting. -/
theorem Accounted.eq_of_not_discarded (accounted : fifo.Accounted) (kept : fifo.discarded = []) :
    fifo.pushed = fifo.taken ++ fifo.queue := by
  have size := accounted.whole.length_eq
  rw [kept, List.append_nil] at size
  exact (accounted.order.eq_of_length size.symm).symm

end Fifo

end RcControl.Data
