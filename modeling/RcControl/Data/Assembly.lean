import RcControl.Data.Machine

namespace RcControl.Data

/-! Batches of items of which some are held back until the next batch arrives.

A batch that is to be held waits, unless one is already waiting: then the two go
out together.  Nothing is lost, duplicated or reordered on the way. -/

variable {Item : Type*}

/-- The state is the batch held back, an event a batch and whether it is to be held. -/
def assembler (Item : Type*) : Machine (Option (List Item)) (Bool × List Item) (Option (List Item)) where
  next held batch :=
    match held with
    | some _ => none
    | none => if batch.1 then some batch.2 else none
  emit held batch :=
    match held with
    | some earlier => some (earlier ++ batch.2)
    | none => if batch.1 then none else some batch.2

theorem assembler_step_held (earlier : List Item) (batch : Bool × List Item) :
    (assembler Item).next (some earlier) batch = none ∧
      (assembler Item).emit (some earlier) batch = some (earlier ++ batch.2) :=
  ⟨rfl, rfl⟩

theorem assembler_step_hold (items : List Item) :
    (assembler Item).next none (true, items) = some items ∧
      (assembler Item).emit none (true, items) = none :=
  ⟨rfl, rfl⟩

theorem assembler_step_pass (items : List Item) :
    (assembler Item).next none (false, items) = none ∧
      (assembler Item).emit none (false, items) = some items :=
  ⟨rfl, rfl⟩

theorem assembler_conserves (held : Option (List Item)) (batches : List (Bool × List Item)) :
    ((assembler Item).outputs held batches).reduceOption.flatten ++
        ((assembler Item).run held batches).getD [] =
      held.getD [] ++ (batches.map Prod.snd).flatten := by
  induction batches generalizing held with
  | nil => simp
  | cons batch batches ih =>
      rw [Machine.outputs_cons, Machine.run_cons, List.map_cons, List.flatten_cons]
      cases held with
      | some earlier =>
          obtain ⟨next, emit⟩ := assembler_step_held earlier batch
          rw [next, emit, List.reduceOption_cons_of_some, List.flatten_cons, List.append_assoc, ih,
            Option.getD_none, List.nil_append, List.append_assoc, Option.getD_some]
      | none =>
          obtain ⟨hold, items⟩ := batch
          cases hold with
          | true =>
              obtain ⟨next, emit⟩ := assembler_step_hold items
              rw [next, emit, List.reduceOption_cons_of_none, ih, Option.getD_none,
                Option.getD_some, List.nil_append]
          | false =>
              obtain ⟨next, emit⟩ := assembler_step_pass items
              rw [next, emit, List.reduceOption_cons_of_some, List.flatten_cons,
                List.append_assoc, ih]
              rfl

/-- What is held at the end is the last batch, and that batch was to be held. -/
theorem assembler_holds_last {batches : List (Bool × List Item)} {items : List Item}
    (held : (assembler Item).run none batches = some items) :
    ∃ front, batches = front ++ [(true, items)] := by
  rcases List.eq_nil_or_concat batches with rfl | ⟨front, ⟨hold, last⟩, rfl⟩
  · cases held
  · rw [List.concat_eq_append, Machine.run_append] at held
    change (assembler Item).next ((assembler Item).run none front) (hold, last) = some items at held
    refine ⟨front, ?_⟩
    cases earlier : (assembler Item).run none front with
    | some _ => rw [earlier] at held; cases held
    | none =>
        rw [earlier] at held
        cases hold with
        | true =>
            cases held
            rw [List.concat_eq_append]
        | false => cases held

/-- What has gone out are the batches in order, all of them or all but a last one held. -/
theorem assembler_delivers (batches : List (Bool × List Item)) :
    ∃ delivered pending, batches = delivered ++ pending ∧
      ((assembler Item).outputs none batches).reduceOption.flatten =
        (delivered.map Prod.snd).flatten ∧
      match (assembler Item).run none batches with
      | none => pending = []
      | some items => pending = [(true, items)] := by
  have conserved := assembler_conserves none batches
  rw [Option.getD_none, List.nil_append] at conserved
  cases held : (assembler Item).run none batches with
  | none =>
      rw [held, Option.getD_none, List.append_nil] at conserved
      exact ⟨batches, [], (List.append_nil _).symm, conserved, rfl⟩
  | some items =>
      obtain ⟨front, split⟩ := assembler_holds_last held
      refine ⟨front, [(true, items)], split, ?_, rfl⟩
      have total : (batches.map Prod.snd).flatten = (front.map Prod.snd).flatten ++ items := by
        rw [split, List.map_append, List.flatten_append, List.map_singleton,
          List.flatten_singleton]
      rw [held, Option.getD_some, total] at conserved
      exact List.append_cancel_right conserved

end RcControl.Data
