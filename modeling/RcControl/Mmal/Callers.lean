import RcControl.Mmal.QueueContents

namespace RcControl.Mmal

open RcControl.Data RcControl.Data.Slots

/-! Parties that call the functions of several queues.

Each party is in one call at a time.  A step of a party is one step of its call, and what it
does to the other parties is in the lock, the semaphore, the list and the length alone. -/

variable {Header Party Place : Type*}

section Stages

variable {queue : Queue Header} {stage : Thread Header} {index : Nat} {call : Call Header}

/-- The function has returned. -/
def Thread.done : Thread Header → Bool
  | .returned _ | .returnedLength _ => true
  | _ => false

/-- The stage after a step, which is the same one for a thread that has to wait. -/
def Thread.next (queue : Queue Header) : Thread Header → Thread Header
  | .lock side buffer => if queue.owner = none then .count side buffer else .lock side buffer
  | .count side buffer => .link side buffer
  | .link side buffer => .splice side buffer
  | .splice side buffer => .tail side buffer
  | .tail _ _ => .post
  | .post => .unlock
  | .unlock => .returned none
  | .trywait => if queue.semaphore = 0 then .returned none else .getLock
  | .wait => if queue.semaphore = 0 then .wait else .getLock
  | .timedwait => if queue.semaphore = 0 then .timedwait else .getLock
  | .getLock => if queue.owner = none then .getFirst else .getLock
  | .getFirst =>
      match queue.list.first with
      | none => .getFirst
      | some buffer => .getNext buffer
  | .getNext buffer => .getTail buffer
  | .getTail buffer => .getCount buffer
  | .getCount buffer => .getUnlock buffer
  | .getUnlock buffer => .returned (some buffer)
  | .readLength => .returnedLength queue.length
  | .returned result => .returned result
  | .returnedLength length => .returnedLength length

/-- The stages of a put. -/
def Thread.Puts (side : Side) (buffer : Header) : Thread Header → Prop
  | .lock own header | .count own header | .link own header | .splice own header | .tail own header =>
      own = side ∧ header = buffer
  | .post | .unlock | .returned none => True
  | _ => False

/-- The stages of a get behind its first one. -/
def Thread.Gets : Thread Header → Prop
  | .getLock | .getFirst | .getNext _ | .getTail _ | .getCount _ | .getUnlock _ | .returned _ => True
  | _ => False

/-- The stages of a call. -/
def Call.Reaches (call : Call Header) (stage : Thread Header) : Prop :=
  match call with
  | .put buffer => stage.Puts .back buffer
  | .putBack buffer => stage.Puts .front buffer
  | .get | .wait | .timedwait => stage = call.start ∨ stage.Gets
  | .length => stage = .readLength ∨ ∃ length, stage = .returnedLength length

theorem Call.reaches_start (call : Call Header) : call.Reaches call.start := by
  cases call <;> simp [Call.Reaches, Call.start, Thread.Puts]

theorem Thread.Puts.next {side : Side} {buffer : Header} (puts : stage.Puts side buffer) :
    (stage.next queue).Puts side buffer := by
  cases stage with
  | lock own header =>
      rw [Thread.next]
      split <;> exact puts
  | count own header | link own header | splice own header => exact puts
  | tail own header | post | unlock => trivial
  | returned result => exact puts
  | _ => cases puts

theorem Thread.Gets.next (gets : stage.Gets) : (stage.next queue).Gets := by
  cases stage with
  | getLock =>
      rw [Thread.next]
      split <;> trivial
  | getFirst =>
      rw [Thread.next]
      split <;> trivial
  | getNext buffer | getTail buffer | getCount buffer | getUnlock buffer | returned result => trivial
  | _ => cases gets

theorem Call.Reaches.next (reaches : call.Reaches stage) : call.Reaches (stage.next queue) := by
  cases call with
  | put buffer | putBack buffer => exact Thread.Puts.next reaches
  | get | wait | timedwait =>
      rcases reaches with rfl | gets
      · simp only [Call.start, Thread.next]
        split
        · first
          | exact .inl rfl
          | exact .inr trivial
        · exact .inr trivial
      · exact .inr gets.next
  | length =>
      rcases reaches with rfl | ⟨length, rfl⟩
      · exact .inr ⟨_, rfl⟩
      · exact .inr ⟨length, rfl⟩

theorem running_of_inside (inside : stage.inside = true) : stage.done = false := by
  cases stage with
  | returned result | returnedLength length => cases inside
  | _ => rfl

theorem Thread.done_next (done : stage.done = true) : stage.next queue = stage := by
  cases stage with
  | returned result | returnedLength length => rfl
  | _ => cases done

/-- Only one step takes a header off the queue. -/
theorem Thread.takes_next (quiet : ∀ buffer, stage ≠ .getNext buffer) :
    (stage.next queue).takes = stage.takes := by
  cases stage with
  | lock side buffer | trywait | wait | timedwait | getLock | getFirst =>
      rw [Thread.next]
      split <;> rfl
  | getNext buffer => exact absurd rfl (quiet buffer)
  | _ => rfl

variable [DecidableEq Header]

theorem step_threads (found : queue.threads[index]? = some stage) :
    (queue.step index).threads = queue.threads.set index (stage.next queue) := by
  have still : queue.threads.set index stage = queue.threads := by
    obtain ⟨inside, rfl⟩ := List.getElem?_eq_some_iff.mp found
    exact List.set_getElem_self inside
  cases stage with
  | lock side buffer | getLock =>
      simp only [Queue.step, found, Queue.take, Thread.next]
      split
      · rfl
      · exact still.symm
  | link side buffer | splice side buffer | tail side buffer =>
      cases side <;> simp only [Queue.step, found, Queue.goTo, Thread.next]
  | trywait =>
      simp only [Queue.step, found, Thread.next]
      split <;> rfl
  | wait | timedwait =>
      simp only [Queue.step, found, Thread.next]
      split
      · exact still.symm
      · rfl
  | getFirst =>
      simp only [Queue.step, found, Thread.next]
      cases queue.list.first with
      | none => exact still.symm
      | some buffer => rfl
  | returned result | returnedLength length =>
      simp only [Queue.step, found, Thread.next]
      exact still.symm
  | _ => simp only [Queue.step, found, Queue.goTo, Thread.next]

end Stages

/-! The first header, while others are put behind it. -/

section First

variable [DecidableEq Header] {queue : Queue Header} {headers : List Header} {passed : Multiset Header}
  {stage : Thread Header} {buffer first : Header}

omit [DecidableEq Header] in
theorem first_of_head {list : LinkedList Header} (holds : list.Holds headers)
    (head : headers.head? = some first) : list.first = some first := by
  obtain ⟨rest, rfl⟩ := List.head?_eq_some_iff.mp head
  exact holds.first_cons

theorem first_of_store {list : LinkedList Header} (holds : list.Holds headers) (nodup : headers.Nodup)
    (head : headers.head? = some first) : (list.store list.last (some buffer)).first = some first := by
  obtain ⟨rest, rfl⟩ := List.head?_eq_some_iff.mp head
  exact (holds.store_last nodup).1

/-- The list's first node is the head, also while headers are put at the back. -/
theorem Sound.first_eq (sound : Sound passed queue headers) (head : headers.head? = some first)
    (puts : ∀ index stage, queue.owner = some index → queue.threads[index]? = some stage →
      ∃ buffer, stage.Puts .back buffer) : queue.list.first = some first := by
  cases owner : queue.owner with
  | none => exact first_of_head (sound.atRest owner).holds head
  | some index =>
      obtain ⟨stage, found, inside⟩ := sound.guarded.owner_found owner
      have shape := sound.shaped index stage owner found
      obtain ⟨buffer, puts⟩ := puts index stage owner found
      cases stage with
      | count side own | post | unlock => exact first_of_head shape.holds head
      | link side own => exact first_of_head shape.1 head
      | splice side own =>
          obtain ⟨rfl, rfl⟩ := puts
          obtain ⟨before, holds, list, -⟩ := shape
          rw [list]
          exact first_of_store holds sound.nodup head
      | tail side own =>
          obtain ⟨rfl, rfl⟩ := puts
          obtain ⟨before, holds, list, -⟩ := shape
          rw [list]
          exact first_of_store holds sound.nodup head
      | lock side own | returned result => cases inside
      | _ => cases puts

end First

/-! What the queue holds, and who has it in hand. -/

section Balance

variable [DecidableEq Header] {queue : Queue Header} {headers : List Header} {passed : Multiset Header}
  {stage : Thread Header} {index : Nat}

/-- What the callers have passed in is on its way in, in the queue, or taken. -/
theorem Sound.passed_eq (sound : Sound passed queue headers) :
    passed = held Thread.carries queue.threads + headers + held Thread.takes queue.threads := by
  have balance := replay_balance sound.replayed
  rw [sound.puts, ← sound.gets, add_assoc, ← balance]
  exact congrArg _ (zero_add _).symm

/-- A header that leaves the queue is in the hands of the thread that takes it. -/
theorem Sound.balance (sound : Sound passed queue headers) (found : queue.threads[index]? = some stage) :
    (held Thread.carries (queue.step index).threads + stage.changes headers + (stage.next queue).takes :
      Multiset Header) = held Thread.carries queue.threads + headers + stage.takes := by
  have before := sound.passed_eq
  have after := (sound.advance found).passed_eq
  have taken : held Thread.takes (queue.step index).threads + stage.takes =
      held Thread.takes queue.threads + (stage.next queue).takes := by
    rw [step_threads found]
    exact held_set found (stage.next queue)
  apply add_right_cancel (b := held Thread.takes queue.threads)
  calc held Thread.carries (queue.step index).threads + (stage.changes headers : Multiset Header) +
        (stage.next queue).takes + held Thread.takes queue.threads
    _ = held Thread.carries (queue.step index).threads + (stage.changes headers : Multiset Header) +
        (held Thread.takes queue.threads + (stage.next queue).takes) := by abel
    _ = held Thread.carries (queue.step index).threads + (stage.changes headers : Multiset Header) +
        held Thread.takes (queue.step index).threads + stage.takes := by
      rw [← taken]
      abel
    _ = held Thread.carries queue.threads + headers + stage.takes + held Thread.takes queue.threads := by
      rw [← after, before]
      abel

end Balance

/-- What is in a queue or on its way into it. -/
def Queue.stored (queue : Queue Header) (headers : List Header) : List Header :=
  queue.threads.flatMap Thread.carries ++ headers

section Stored

variable [DecidableEq Header] {queue : Queue Header} {headers : List Header} {passed : Multiset Header}
  {stage : Thread Header} {buffer : Header} {index : Nat}

omit [DecidableEq Header] in
theorem coe_stored : (queue.stored headers : Multiset Header) = held Thread.carries queue.threads + headers :=
  (Multiset.coe_add _ _).symm

omit [DecidableEq Header] in
theorem stored_of_carries (found : queue.threads[index]? = some stage) (carries : buffer ∈ stage.carries) :
    buffer ∈ queue.stored headers :=
  List.mem_append_left _ (List.mem_flatMap.mpr ⟨stage, List.mem_of_getElem? found, carries⟩)

theorem Sound.stored_step (sound : Sound passed queue headers) (found : queue.threads[index]? = some stage)
    (quiet : ∀ buffer, stage ≠ .getNext buffer) :
    ((queue.step index).stored (stage.changes headers)).Perm (queue.stored headers) := by
  have balance := sound.balance found
  rw [Thread.takes_next quiet] at balance
  rw [← Multiset.coe_eq_coe, coe_stored, coe_stored]
  exact add_right_cancel balance

theorem Sound.stored_got (sound : Sound passed queue headers)
    (found : queue.threads[index]? = some (.getNext buffer)) :
    (queue.stored headers).Perm
      (buffer :: (queue.step index).stored ((Thread.getNext buffer).changes headers)) := by
  have balance := sound.balance found
  rw [← Multiset.coe_eq_coe, ← Multiset.cons_coe, coe_stored, coe_stored, ← Multiset.singleton_add,
    add_comm ({buffer} : Multiset Header)]
  exact (add_zero _).symm.trans balance.symm

theorem stored_call (call : Call Header) :
    ((queue.next (.call call)).stored headers).Perm ((Event.call call).passes ++ queue.stored headers) := by
  have carried : call.start.carries = (Event.call call).passes := by cases call <;> rfl
  rw [Queue.stored, Queue.next, List.flatMap_append, List.flatMap_singleton, carried, Queue.stored,
    ← List.append_assoc]
  exact List.perm_append_comm.append_right _

end Stored

structure Callers (Party Place Header : Type*) where
  queues : Place → Queue Header
  /-- The queue, the thread and the function of a party's last call. -/
  calls : Party → Option (Place × Nat × Call Header)

namespace Callers

variable [DecidableEq Header] [DecidableEq Party] [DecidableEq Place]

def initial (Party Place Header : Type*) : Callers Party Place Header where
  queues _ := Queue.create Header
  calls _ := none

/-- Where a party is in its call. -/
def stage (callers : Callers Party Place Header) (party : Party) : Option (Thread Header) :=
  match callers.calls party with
  | none => none
  | some (place, thread, _) => (callers.queues place).threads[thread]?

def busy (callers : Callers Party Place Header) (party : Party) : Bool :=
  (callers.stage party).any (!·.done)

def enter (callers : Callers Party Place Header) (party : Party) (place : Place) (call : Call Header) :
    Callers Party Place Header where
  queues := Function.update callers.queues place ((callers.queues place).next (.call call))
  calls := Function.update callers.calls party
    (some (place, (callers.queues place).threads.length, call))

def step (callers : Callers Party Place Header) (party : Party) : Callers Party Place Header :=
  match callers.calls party with
  | none => callers
  | some (place, thread, _) =>
      { callers with
        queues := Function.update callers.queues place ((callers.queues place).step thread) }

/-- The length that a party has read. -/
def lengthRead (callers : Callers Party Place Header) (party : Party) : Nat :=
  match callers.stage party with
  | some (.returnedLength length) => length
  | _ => 0

/-- The header that a party has got. -/
def headerGot (callers : Callers Party Place Header) (party : Party) : Option Header :=
  match callers.stage party with
  | some (.returned result) => result
  | _ => none

end Callers

structure Callers.Sound [DecidableEq Header] (passed : Place → Multiset Header)
    (contents : Place → List Header) (callers : Callers Party Place Header) : Prop where
  queues : ∀ place, Mmal.Sound (passed place) (callers.queues place) (contents place)
  reaches : ∀ party place thread call, callers.calls party = some (place, thread, call) →
    ∃ stage, (callers.queues place).threads[thread]? = some stage ∧ call.Reaches stage
  apart : ∀ party other place thread call call', callers.calls party = some (place, thread, call) →
    callers.calls other = some (place, thread, call') → other = party
  live : ∀ (place : Place) (thread : Nat) (stage : Thread Header),
    (callers.queues place).threads[thread]? = some stage → stage.done = false →
      ∃ party call, callers.calls party = some (place, thread, call)

section Parties

variable {passed : Place → Multiset Header} {contents : Place → List Header}
  {callers : Callers Party Place Header} {party other : Party} {place : Place} {thread : Nat}
  {call : Call Header} {stage : Thread Header}

theorem Callers.stage_eq (called : callers.calls party = some (place, thread, call)) :
    callers.stage party = (callers.queues place).threads[thread]? := by
  rw [Callers.stage, called]

variable [DecidableEq Header]

theorem Callers.initial_sound : (Callers.initial Party Place Header).Sound (fun _ => 0) fun _ => [] where
  queues _ :=
    { guarded := fun index => by simp [Callers.initial, Queue.create]
      distinct := Multiset.nodup_zero
      puts := rfl
      gets := rfl
      replayed := rfl
      tokens := rfl
      atRest := fun _ => ⟨LinkedList.empty_holds, rfl⟩
      shaped := fun index stage owned => by cases owned }
  reaches _ _ _ _ called := by cases called
  apart _ _ _ _ _ _ called := by cases called
  live _ _ _ found := by simp [Callers.initial, Queue.create] at found

variable [DecidableEq Place]

theorem Callers.step_calls : (callers.step party).calls = callers.calls := by
  unfold Callers.step
  split <;> rfl

theorem Callers.step_called (called : callers.calls other = some (place, thread, call)) :
    (callers.step party).calls other = some (place, thread, call) := by
  rw [Callers.step_calls]
  exact called

theorem Callers.step_queues (called : callers.calls party = some (place, thread, call)) :
    (callers.step party).queues =
      Function.update callers.queues place ((callers.queues place).step thread) := by
  rw [Callers.step, called]

theorem Callers.step_stage_self (called : callers.calls party = some (place, thread, call))
    (found : (callers.queues place).threads[thread]? = some stage) :
    (callers.step party).stage party = some (stage.next (callers.queues place)) := by
  rw [Callers.stage_eq (Callers.step_called called), Callers.step_queues called, Function.update_self,
    step_threads found, List.getElem?_set_self (List.getElem?_eq_some_iff.mp found).1]

/-- A step of a party leaves the others where they are in their calls. -/
theorem Callers.Sound.step_stage_other (sound : callers.Sound passed contents) (different : other ≠ party) :
    (callers.step party).stage other = callers.stage other := by
  cases called : callers.calls party with
  | none => rw [Callers.step, called]
  | some record =>
      obtain ⟨place, thread, call⟩ := record
      cases otherCalled : callers.calls other with
      | none => rw [Callers.stage, Callers.step_calls, otherCalled, Callers.stage, otherCalled]
      | some record' =>
          obtain ⟨place', thread', call'⟩ := record'
          rw [Callers.stage_eq (Callers.step_called otherCalled), Callers.step_queues called,
            Callers.stage_eq otherCalled]
          by_cases same : place' = place
          · subst same
            obtain ⟨stage, found, -⟩ := sound.reaches _ _ _ _ called
            have apart : thread ≠ thread' := by
              rintro rfl
              exact different (sound.apart _ _ _ _ _ _ called otherCalled)
            rw [Function.update_self, step_threads found, List.getElem?_set_ne apart]
          · rw [Function.update_of_ne same]

theorem Callers.Sound.step (sound : callers.Sound passed contents)
    (called : callers.calls party = some (place, thread, call))
    (found : (callers.queues place).threads[thread]? = some stage) :
    (callers.step party).Sound passed
      (Function.update contents place (stage.changes (contents place))) where
  queues := by
    intro where_
    rw [Callers.step_queues called]
    by_cases same : where_ = place
    · subst same
      rw [Function.update_self, Function.update_self]
      exact (sound.queues _).advance found
    · rw [Function.update_of_ne same, Function.update_of_ne same]
      exact sound.queues where_
  reaches := by
    intro other place' thread' call' otherCalled
    rw [← Callers.stage_eq otherCalled]
    rw [Callers.step_calls] at otherCalled
    obtain ⟨stage', found', reaches⟩ := sound.reaches _ _ _ _ otherCalled
    by_cases same : other = party
    · subst same
      rw [called] at otherCalled
      cases otherCalled
      obtain rfl := Option.some.inj (found.symm.trans found')
      exact ⟨_, Callers.step_stage_self called found, reaches.next⟩
    · rw [sound.step_stage_other same, Callers.stage_eq otherCalled]
      exact ⟨stage', found', reaches⟩
  apart := by
    rw [Callers.step_calls]
    exact sound.apart
  live := by
    intro place' thread' stage' found' running
    rw [Callers.step_calls]
    rw [Callers.step_queues called] at found'
    by_cases same : place' = place
    · subst same
      rw [Function.update_self, step_threads found] at found'
      by_cases own : thread' = thread
      · exact ⟨party, call, own ▸ called⟩
      · rw [List.getElem?_set_ne (Ne.symm own)] at found'
        exact sound.live _ _ _ found' running
    · rw [Function.update_of_ne same] at found'
      exact sound.live _ _ _ found' running

variable [DecidableEq Party]

theorem Callers.enter_queues : (callers.enter party place call).queues =
    Function.update callers.queues place ((callers.queues place).next (.call call)) := rfl

theorem Callers.enter_calls_self :
    (callers.enter party place call).calls party =
      some (place, (callers.queues place).threads.length, call) :=
  Function.update_self _ _ _

theorem Callers.enter_calls_other (different : other ≠ party) :
    (callers.enter party place call).calls other = callers.calls other :=
  Function.update_of_ne different _ _

theorem Callers.enter_stage_self : (callers.enter party place call).stage party = some call.start := by
  rw [Callers.stage_eq Callers.enter_calls_self, Callers.enter_queues, Function.update_self]
  exact List.getElem?_concat_length

theorem enter_threads {place' : Place} (found : (callers.queues place').threads[thread]? = some stage) :
    ((callers.enter party place call).queues place').threads[thread]? = some stage := by
  by_cases same : place' = place
  · subst same
    rw [Callers.enter_queues, Function.update_self]
    exact (List.getElem?_append_left (List.getElem?_eq_some_iff.mp found).1).trans found
  · rw [Callers.enter_queues, Function.update_of_ne same]
    exact found

theorem Callers.Sound.enter_stage_other (sound : callers.Sound passed contents) (different : other ≠ party) :
    (callers.enter party place call).stage other = callers.stage other := by
  cases called : callers.calls other with
  | none => rw [Callers.stage, Callers.enter_calls_other different, called, Callers.stage, called]
  | some record =>
      obtain ⟨place', thread', call'⟩ := record
      obtain ⟨stage, found, -⟩ := sound.reaches _ _ _ _ called
      rw [Callers.stage_eq ((Callers.enter_calls_other different).trans called), enter_threads found,
        Callers.stage_eq called, found]

/-- A party that is in no call enters one. -/
theorem Callers.Sound.enter (sound : callers.Sound passed contents) (idle : callers.busy party = false)
    (own : OwnHeader (callers.queues place) (.call call)) :
    (callers.enter party place call).Sound
      (Function.update passed place (passed place + ((Event.call call).passes : Multiset Header)))
      contents where
  queues := by
    intro where_
    by_cases same : where_ = place
    · subst same
      rw [Callers.enter_queues, Function.update_self, Function.update_self]
      exact (sound.queues _).called own
    · rw [Callers.enter_queues, Function.update_of_ne same, Function.update_of_ne same]
      exact sound.queues where_
  reaches := by
    intro other place' thread' call' otherCalled
    rw [← Callers.stage_eq otherCalled]
    by_cases same : other = party
    · subst same
      rw [Callers.enter_calls_self] at otherCalled
      cases otherCalled
      exact ⟨_, Callers.enter_stage_self, call.reaches_start⟩
    · rw [Callers.enter_calls_other same] at otherCalled
      rw [sound.enter_stage_other same, Callers.stage_eq otherCalled]
      exact sound.reaches _ _ _ _ otherCalled
  apart := by
    -- The new thread is behind all others.
    have fresh : ∀ other call' place' thread', callers.calls other = some (place', thread', call') →
        ¬ (place' = place ∧ thread' = (callers.queues place).threads.length) := by
      rintro other call' place' thread' otherCalled ⟨rfl, rfl⟩
      obtain ⟨stage, found, -⟩ := sound.reaches _ _ _ _ otherCalled
      exact absurd (List.getElem?_eq_some_iff.mp found).1 (Nat.lt_irrefl _)
    intro first second place' thread' call₁ call₂ firstCalled secondCalled
    by_cases isFirst : first = party
    · by_cases isSecond : second = party
      · rw [isFirst, isSecond]
      · subst isFirst
        rw [Callers.enter_calls_self] at firstCalled
        rw [Callers.enter_calls_other isSecond] at secondCalled
        cases firstCalled
        exact absurd ⟨rfl, rfl⟩ (fresh _ _ _ _ secondCalled)
    · rw [Callers.enter_calls_other isFirst] at firstCalled
      by_cases isSecond : second = party
      · subst isSecond
        rw [Callers.enter_calls_self] at secondCalled
        cases secondCalled
        exact absurd ⟨rfl, rfl⟩ (fresh _ _ _ _ firstCalled)
      · rw [Callers.enter_calls_other isSecond] at secondCalled
        exact sound.apart _ _ _ _ _ _ firstCalled secondCalled
  live := by
    intro place' thread' stage' found' running
    have older : (callers.queues place').threads[thread']? = some stage' ∨
        place' = place ∧ thread' = (callers.queues place).threads.length := by
      by_cases same : place' = place
      · subst same
        rw [Callers.enter_queues, Function.update_self] at found'
        exact (getElem?_concat_eq_some.mp found').imp id fun last => ⟨rfl, last.1⟩
      · rw [Callers.enter_queues, Function.update_of_ne same] at found'
        exact .inl found'
    rcases older with found | ⟨rfl, rfl⟩
    · obtain ⟨holder, call', called⟩ := sound.live _ _ _ found running
      by_cases same : holder = party
      · -- Its last call has returned.
        subst same
        rw [Callers.busy, Callers.stage_eq called, found, Option.any_some, running] at idle
        cases idle
      · exact ⟨holder, call', (Callers.enter_calls_other same).trans called⟩
    · exact ⟨party, call, Callers.enter_calls_self⟩

end Parties

end RcControl.Mmal
