import RcControl.Mmal.Callers

namespace RcControl.Mmal

open RcControl.Data RcControl.Data.Slots

/-! How far a call is from its end.

A thread that does not have to wait takes a step closer to its return.  What a getter is
promised by a length that is not zero is a header in the list, or one that a put has counted
and has not linked in yet. -/

variable {Header : Type*}

/-- The steps of a call that are left, and of what its caller does with the result: a length
above zero is followed by a get, and a header that was got is sent or put back. -/
def Thread.left : Thread Header → Nat
  | .readLength => 18
  | .returnedLength _ => 17
  | .trywait | .wait | .timedwait => 16
  | .getLock => 15
  | .getFirst => 14
  | .getNext _ => 13
  | .getTail _ => 12
  | .getCount _ => 11
  | .getUnlock _ => 10
  | .returned (some _) => 9
  | .lock _ _ => 7
  | .count _ _ => 6
  | .link _ _ => 5
  | .splice _ _ => 4
  | .tail _ _ => 3
  | .post => 2
  | .unlock => 1
  | .returned none => 0

/-- A thread that does not have to wait. -/
def Thread.Ready (queue : Queue Header) : Thread Header → Prop
  | .lock _ _ | .getLock => queue.owner = none
  | .trywait | .wait | .timedwait => queue.semaphore ≠ 0
  | .getFirst => queue.list.first ≠ none
  | .returned _ | .returnedLength _ => False
  | _ => True

/-- A put that has raised the length and has not added its header yet. -/
def Thread.counted : Thread Header → Bool
  | .link _ _ | .splice _ _ | .tail _ _ => true
  | _ => false

/-- A header is waited for: a length above zero has been read, and nothing got yet. -/
def Thread.hopes : Thread Header → Bool
  | .trywait | .returnedLength (_ + 1) => true
  | _ => false

/-- A header is in the list, or counted. -/
def Queue.Promises [DecidableEq Header] (queue : Queue Header) : Prop :=
  (∀ headers ∈ replay [] queue.log, headers ≠ []) ∨
    ∃ (index : Nat) (stage : Thread Header), queue.threads[index]? = some stage ∧ stage.counted = true

variable {queue : Queue Header} {stage : Thread Header} {headers : List Header} {index : Nat}
  {buffer : Header} {side : Side}

theorem Thread.left_le (stage : Thread Header) : stage.left ≤ 18 := by
  cases stage with
  | returned result => cases result <;> simp [Thread.left]
  | _ => simp [Thread.left]

theorem Thread.left_next_lt (ready : stage.Ready queue) : (stage.next queue).left < stage.left := by
  cases stage with
  | lock side buffer | getLock =>
      rw [Thread.next, if_pos (show queue.owner = none from ready)]
      simp [Thread.left]
  | trywait | wait | timedwait =>
      rw [Thread.next, if_neg (show queue.semaphore ≠ 0 from ready)]
      simp [Thread.left]
  | getFirst =>
      cases first : queue.list.first with
      | none => exact absurd first ready
      | some buffer => simp [Thread.next, first, Thread.left]
  | returned result | returnedLength length => exact ready.elim
  | _ => simp [Thread.next, Thread.left]

/-- The stages of a put have at most seven steps left. -/
theorem Thread.Puts.left_le (puts : stage.Puts side buffer) : stage.left ≤ 7 := by
  cases stage with
  | returned result =>
      cases result with
      | none => simp [Thread.left]
      | some header => cases puts
  | lock own header | count own header | link own header | splice own header | tail own header | post |
    unlock => simp [Thread.left]
  | _ => cases puts

theorem Thread.Puts.ready (puts : stage.Puts side buffer) (inside : stage.inside = true) :
    stage.Ready queue := by
  cases stage with
  | count own header | link own header | splice own header | tail own header | post | unlock => trivial
  | lock own header | returned result => cases inside
  | _ => cases puts

theorem hopes_next (hopes : (stage.next queue).hopes = true) :
    stage = .readLength ∧ 0 < queue.length ∨ stage.next queue = stage ∧ stage.hopes = true := by
  cases stage with
  | readLength =>
      refine .inl ⟨rfl, ?_⟩
      rw [Thread.next] at hopes
      cases length : queue.length with
      | zero =>
          rw [length] at hopes
          cases hopes
      | succ count => exact Nat.succ_pos count
  | returnedLength length => exact .inr ⟨rfl, hopes⟩
  | lock side buffer | trywait | wait | timedwait | getLock | getFirst =>
      rw [Thread.next] at hopes
      split at hopes <;> cases hopes
  | _ => cases hopes

theorem next_eq_returned (next : stage.next queue = .returned none)
    (running : stage.done = false) : stage = .unlock ∨ stage = .trywait ∧ queue.semaphore = 0 := by
  cases stage with
  | unlock => exact .inl rfl
  | trywait =>
      rw [Thread.next] at next
      split at next
      · exact .inr ⟨rfl, ‹_›⟩
      · cases next
  | lock side buffer | wait | timedwait | getLock | getFirst =>
      rw [Thread.next] at next
      split at next <;> cases next
  | returned result | returnedLength length => cases running
  | _ => cases next

theorem Thread.Puts.left_next_le (puts : stage.Puts side buffer) :
    (stage.next queue).left ≤ stage.left := by
  by_cases ready : stage.Ready queue
  · exact (Thread.left_next_lt ready).le
  · cases stage with
    | lock own header =>
        rw [Thread.next, if_neg (show queue.owner ≠ none from ready)]
    | returned result => exact le_rfl
    | count own header | link own header | splice own header | tail own header | post | unlock =>
        exact absurd trivial ready
    | _ => cases puts

section Steps

variable [DecidableEq Header] {passed : Multiset Header}

/-- A put that has to wait for the lock, or has returned, leaves everything as it is. -/
theorem step_of_not_ready (found : queue.threads[index]? = some stage) (puts : stage.Puts side buffer)
    (waits : ¬ stage.Ready queue) : queue.step index = queue := by
  cases stage with
  | lock own header =>
      simp only [Queue.step, found, Queue.take, if_neg (show queue.owner ≠ none from waits)]
  | returned result => simp only [Queue.step, found]
  | count own header | link own header | splice own header | tail own header | post | unlock =>
      exact absurd trivial waits
  | _ => cases puts

/-- A step takes the lock for the thread, gives it back or leaves it. -/
theorem step_owner (queue : Queue Header) (index : Nat) :
    (queue.step index).owner = queue.owner ∨ (queue.step index).owner = none ∨
      (queue.step index).owner = some index := by
  unfold Queue.step
  split
  case h_2 | h_15 =>
    rw [Queue.take]
    split
    · exact .inr (.inr rfl)
    · exact .inl rfl
  all_goals first
    | exact .inl rfl
    | exact .inr (.inl rfl)
    | split <;> exact .inl rfl

theorem Promises.called {call : Call Header} (promises : queue.Promises) :
    (queue.next (.call call)).Promises := by
  refine promises.imp id ?_
  rintro ⟨index, stage, found, counted⟩
  exact ⟨index, stage, (List.getElem?_append_left (List.getElem?_eq_some_iff.mp found).1).trans found,
    counted⟩

/-- A header that is counted arrives, and only a get takes one away. -/
theorem Sound.promises_step (sound : Sound passed queue headers) (found : queue.threads[index]? = some stage)
    (quiet : ∀ buffer, stage ≠ .getNext buffer) (promises : queue.Promises) :
    (queue.step index).Promises := by
  have replayed := (sound.advance found).replayed
  have threads := step_threads found
  rcases promises with some_ | ⟨other, stage', found', counted⟩
  · have before := some_ headers sound.replayed
    left
    intro after same
    obtain rfl := Option.some.inj (replayed.symm.trans same)
    cases stage with
    | tail side buffer => cases side <;> simp [Thread.changes]
    | getNext buffer => exact absurd rfl (quiet buffer)
    | _ => exact before
  · by_cases own : other = index
    · subst own
      obtain rfl := Option.some.inj (found.symm.trans found')
      have next : (queue.step other).threads[other]? = some (stage.next queue) := by
        rw [threads]
        exact List.getElem?_set_self (List.getElem?_eq_some_iff.mp found).1
      cases stage with
      | link side buffer | splice side buffer => exact .inr ⟨other, _, next, rfl⟩
      | tail side buffer =>
          left
          intro after same
          obtain rfl := Option.some.inj (replayed.symm.trans same)
          cases side <;> simp [Thread.changes]
      | _ => cases counted
    · refine .inr ⟨other, stage', ?_, counted⟩
      rw [threads, List.getElem?_set_ne (Ne.symm own)]
      exact found'

/-- A length above zero promises a header, where no getter is about to lower it. -/
theorem Sound.promises_of_length (sound : Sound passed queue headers) (some_ : 0 < queue.length)
    (nobodyGets : ∀ (index : Nat) (stage : Thread Header), queue.owner = some index →
      queue.threads[index]? = some stage → ∃ side buffer, stage.Puts side buffer) : queue.Promises := by
  have atRest (resting : AtRest queue.length queue.list headers) : queue.Promises := by
    left
    intro after same
    obtain rfl := Option.some.inj (sound.replayed.symm.trans same)
    rintro rfl
    have none_ : queue.length = 0 := resting.length
    omega
  cases owner : queue.owner with
  | none => exact atRest (sound.atRest owner)
  | some index =>
      obtain ⟨stage, found, inside⟩ := sound.guarded.owner_found owner
      have shape := sound.shaped index stage owner found
      obtain ⟨side, buffer, puts⟩ := nobodyGets index stage owner found
      cases stage with
      | count own header | post | unlock => exact atRest shape
      | link own header | splice own header | tail own header => exact .inr ⟨index, _, found, rfl⟩
      | lock own header | returned result => cases inside
      | _ => cases puts

/-- Where nobody else is inside and a header is promised, a get finds the semaphore raised. -/
theorem Sound.semaphore_ne_zero (sound : Sound passed queue headers) (promises : queue.Promises)
    (free : queue.owner = none)
    (nobodyGets : ∀ stage ∈ queue.threads, stage.claims = 1 → stage.inside = true) :
    queue.semaphore ≠ 0 := by
  have outside : ∀ (index : Nat) (stage : Thread Header), queue.threads[index]? = some stage →
      stage.inside = false := by
    intro index stage found
    by_contra inside
    rw [Bool.not_eq_false, sound.guarded.inside_iff found, free] at inside
    cases inside
  have unclaimed : queue.claimed = 0 := by
    refine weigh_eq_zero fun stage member => ?_
    obtain ⟨index, found⟩ := List.mem_iff_getElem?.mp member
    by_contra claims
    have one : stage.claims = 1 := by cases stage <;> first | rfl | exact absurd rfl claims
    have inside := nobodyGets stage member one
    rw [outside index stage found] at inside
    cases inside
  have tokens := sound.tokens
  rw [unclaimed, Nat.add_zero] at tokens
  rw [tokens]
  rcases promises with some_ | ⟨index, stage, found, counted⟩
  · exact mt List.length_eq_zero_iff.mp (some_ headers sound.replayed)
  · have inside := outside index stage found
    cases stage with
    | link own header | splice own header | tail own header => cases inside
    | _ => cases counted

end Steps

end RcControl.Mmal
