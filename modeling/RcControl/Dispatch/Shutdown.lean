import RcControl.Dispatch.Placement

namespace RcControl.Dispatch

open RcControl.Data RcControl.Data.Slots

/-! The destructor outlives the workers.

It joins the threads one after the other, so that the invariant counts how far it has come. -/

variable {Op : Type*} {queue after : DispatchQueue Op} {index woken : Nat}

def Caller.destroyed (caller : Caller Op) : Bool :=
  match caller with
  | { call := .destructor, stage := .returned } => true
  | _ => false

/-- No worker will do anything any more, and what was called has returned. -/
structure Shut (queue : DispatchQueue Op) : Prop where
  ended : ∀ stage ∈ queue.workers, stage = .finished
  returned : queue.started.Perm queue.finished
  everyTaken : queue.jobs.taken.Perm queue.finished
  left : ∀ job ∈ queue.jobs.pushed, job ∈ queue.finished ∨ job ∈ queue.jobs.queue ∨
    job ∈ queue.jobs.discarded

/-- No operation is taken, called or returns. -/
def AtRest (queue after : DispatchQueue Op) : Prop :=
  after.workers = queue.workers ∧ after.jobs.taken = queue.jobs.taken ∧
    after.started = queue.started ∧ after.finished = queue.finished

/-- How many threads a destructor has joined. -/
def Caller.Joined (workers : List (Worker Op)) (caller : Caller Op) : Prop :=
  caller.call = .destructor →
    (∀ joined : Nat, caller.stage = .join joined → ∀ position < joined, workers[position]? = some .finished) ∧
      (caller.stage = .returned → ∀ stage ∈ workers, stage = .finished)

structure Joining (queue : DispatchQueue Op) : Prop where
  handedOut : HandedOut queue
  joined : ∀ caller ∈ queue.callers, caller.Joined queue.workers

section Finished

/-- A thread that has ended stays so. -/
def Lasting (workers workersAfter : List (Worker Op)) : Prop :=
  workersAfter.length = workers.length ∧
    ∀ position : Nat, workers[position]? = some .finished → workersAfter[position]? = some .finished

theorem Lasting.refl (workers : List (Worker Op)) : Lasting workers workers := ⟨rfl, fun _ => id⟩

theorem Woken.lasting {workers workersAfter : List (Worker Op)} (wakes : Woken workers workersAfter) :
    Lasting workers workersAfter := by
  rcases wakes with rfl | ⟨woken, rfl⟩ | rfl
  · exact .refl _
  · refine ⟨List.length_modify .., fun position ended => ?_⟩
    rw [List.getElem?_modify, ended]
    split <;> rfl
  · refine ⟨List.length_map .., fun position ended => ?_⟩
    rw [List.getElem?_map, ended]
    rfl

theorem workerStep_lasting (queue : DispatchQueue Op) (index : Nat) :
    Lasting queue.workers (queue.workerStep index).workers := by
  cases found : queue.workers[index]? with
  | none =>
      simp only [DispatchQueue.workerStep, found]
      exact .refl _
  | some stage =>
      rcases workerStep_cases found with ⟨same, -⟩ | ⟨next, move⟩
      · rw [same]
        exact .refl _
      · rw [move.workers]
        refine ⟨List.length_set .., fun position ended => ?_⟩
        by_cases here : index = position
        · subst here
          obtain rfl := Option.some.inj (found.symm.trans ended)
          simp only [DispatchQueue.workerStep, found] at move
          have same := congrArg (·[index]?) move.workers
          rw [ended] at same
          exact same.symm
        · rw [List.getElem?_set_ne here, ended]

theorem callerStep_woken (queue : DispatchQueue Op) (index woken : Nat) :
    Woken queue.workers (queue.callerStep index woken).workers := by
  rcases callerStep_cases queue index woken with same | ⟨call, stage, -, move⟩
  · rw [same]
    exact .inl rfl
  · generalize queue.callerStep index woken = after at move
    cases move with
    | act => exact .inl (act_workers call)
    | notify wakes => exact notify_workers queue woken call
    | lock free => exact .inl rfl
    | unlock | join _ | joinedAll _ => exact .inl rfl

theorem next_lasting (queue : DispatchQueue Op) (event : Event Op) :
    Lasting queue.workers (queue.next event).workers := by
  cases event with
  | call call => exact .refl _
  | caller index woken => exact (callerStep_woken queue index woken).lasting
  | worker index => exact workerStep_lasting queue index
  | spuriousWakeup index => exact Woken.lasting (.inr (.inl ⟨index, rfl⟩))

theorem Lasting.all {workers workersAfter : List (Worker Op)} (lasting : Lasting workers workersAfter)
    (ended : ∀ stage ∈ workers, stage = .finished) : ∀ stage ∈ workersAfter, stage = .finished := by
  obtain ⟨size, kept⟩ := lasting
  intro stage member
  obtain ⟨position, found⟩ := List.mem_iff_getElem?.mp member
  have inside : position < workers.length := size ▸ (List.getElem?_eq_some_iff.mp found).1
  have before : workers[position]? = some .finished := by
    rw [List.getElem?_eq_getElem inside, ended _ (List.getElem_mem inside)]
  exact Option.some.inj (found.symm.trans (kept position before))

theorem Caller.Joined.lasting {workers workersAfter : List (Worker Op)} {caller : Caller Op}
    (joined : caller.Joined workers) (lasting : Lasting workers workersAfter) :
    caller.Joined workersAfter := by
  intro destroys
  obtain ⟨counted, all⟩ := joined destroys
  refine ⟨fun number here position below => ?_, fun here => lasting.all (all here)⟩
  exact lasting.2 position (counted number here position below)

end Finished

section Callers

variable {call : Call Op}

theorem callerStep_join (queue : DispatchQueue Op) {joined : Nat} (woken : Nat)
    (found : queue.callers[index]? = some ⟨call, .join joined⟩) :
    queue.callerStep index woken = queue ∨
      (queue.workers[joined]? = some .finished ∧
        queue.callerStep index woken = queue.setCaller index ⟨call, .join (joined + 1)⟩) ∨
      (queue.workers[joined]? = none ∧
        queue.callerStep index woken = queue.setCaller index ⟨call, .returned⟩) := by
  simp only [DispatchQueue.callerStep, found]
  split
  · rename_i none
    exact .inr (.inr ⟨none, rfl⟩)
  · rename_i ended
    exact .inr (.inl ⟨ended, rfl⟩)
  · exact .inl rfl

/-- Joining one more thread. -/
theorem Caller.Joined.next {workers : List (Worker Op)} {joined : Nat}
    (earlier : Caller.Joined workers ⟨call, .join joined⟩) (ended : workers[joined]? = some .finished) :
    Caller.Joined workers ⟨call, .join (joined + 1)⟩ := by
  intro destroys
  refine ⟨?_, by rintro ⟨⟩⟩
  rintro number ⟨⟩ position below
  rcases Nat.lt_succ_iff_lt_or_eq.mp below with less | rfl
  · exact (earlier destroys).1 joined rfl position less
  · exact ended

theorem Caller.Joined.all {workers : List (Worker Op)} {joined : Nat}
    (earlier : Caller.Joined workers ⟨call, .join joined⟩) (none : workers[joined]? = none) :
    Caller.Joined workers ⟨call, .returned⟩ := by
  intro destroys
  refine ⟨by rintro number ⟨⟩, fun _ stage member => ?_⟩
  obtain ⟨position, found⟩ := List.mem_iff_getElem?.mp member
  have inside := (List.getElem?_eq_some_iff.mp found).1
  have below : position < joined := Nat.lt_of_lt_of_le inside (List.getElem?_eq_none_iff.mp none)
  have ended := (earlier destroys).1 joined rfl position below
  exact Option.some.inj (found.symm.trans ended)

/-- Before it joins, a destructor claims nothing. -/
theorem Caller.Joined.early {workers : List (Worker Op)} {stage : Stage}
    (early : call = .destructor → stage = .join 0 ∨ stage = .act ∨ stage = .unlock ∨ stage = .notify) :
    Caller.Joined workers ⟨call, stage⟩ := by
  intro destroys
  rcases early destroys with rfl | rfl | rfl | rfl
  · refine ⟨?_, by rintro ⟨⟩⟩
    rintro number ⟨⟩ position below
    cases below
  all_goals exact ⟨by rintro number ⟨⟩, by rintro ⟨⟩⟩

/-- The call that takes a step has joined what it says. -/
theorem callerStep_joined (queue : DispatchQueue Op) {caller : Caller Op} (woken : Nat)
    (found : queue.callers[index]? = some caller) (joined : caller.Joined queue.workers) :
    ∃ next : Caller Op, (queue.callerStep index woken).callers = queue.callers.set index next ∧
      next.Joined queue.workers := by
  have still : queue.callers = queue.callers.set index caller := by
    obtain ⟨inside, rfl⟩ := List.getElem?_eq_some_iff.mp found
    exact (List.set_getElem_self inside).symm
  rcases callerStep_cases queue index woken with same | ⟨call, stage, here, move⟩
  · exact ⟨caller, by rw [same]; exact still, joined⟩
  · obtain rfl := Option.some.inj (here.symm.trans found)
    cases stage with
    | join count =>
        rcases callerStep_join queue woken found with same | ⟨ended, moved⟩ | ⟨none, moved⟩
        · exact ⟨_, by rw [same]; exact still, joined⟩
        · exact ⟨_, by rw [moved]; rfl, joined.next ended⟩
        · exact ⟨_, by rw [moved]; rfl, joined.all none⟩
    | lock =>
        generalize queue.callerStep index woken = after at move
        cases move
        exact ⟨_, rfl, .early fun _ => .inr (.inl rfl)⟩
    | act =>
        generalize queue.callerStep index woken = after at move
        cases move
        exact ⟨_, act_moved queue call index _, .early fun _ => .inr (.inr (.inl rfl))⟩
    | unlock =>
        generalize queue.callerStep index woken = after at move
        cases move
        exact ⟨_, rfl, .early fun destroys => .inr (.inr (.inr (by rw [destroys]; rfl)))⟩
    | notify =>
        generalize queue.callerStep index woken = after at move
        cases move
        exact ⟨_, notify_moved queue woken call index _, .early fun destroys => .inl (by rw [destroys]; rfl)⟩
    | returned => cases move

theorem next_joined (queue : DispatchQueue Op) (event : Event Op)
    (joined : ∀ caller ∈ queue.callers, caller.Joined queue.workers) :
    ∀ caller ∈ (queue.next event).callers, caller.Joined (queue.next event).workers := by
  have lasting := next_lasting queue event
  intro caller member
  suffices before : caller.Joined queue.workers from before.lasting lasting
  cases event with
  | call call =>
      rcases List.mem_append.mp member with older | new
      · exact joined caller older
      · obtain rfl := List.mem_singleton.mp new
        intro destroys
        exact ⟨by rintro number ⟨⟩, by rintro ⟨⟩⟩
  | worker index =>
      have same := workerStep_callers queue index
      exact joined caller (same ▸ member)
  | spuriousWakeup index => exact joined caller member
  | caller index woken =>
      cases found : queue.callers[index]? with
      | none =>
          simp only [DispatchQueue.next, DispatchQueue.callerStep, found] at member
          exact joined caller member
      | some earlier =>
          obtain ⟨next, callers, done⟩ := callerStep_joined queue woken found
            (joined earlier (List.mem_of_getElem? found))
          rw [DispatchQueue.next, callers] at member
          rcases List.mem_or_eq_of_mem_set member with older | rfl
          · exact joined caller older
          · exact done

end Callers

theorem next_joining (queue : DispatchQueue Op) (event : Event Op) (joining : Joining queue) :
    Joining (queue.next event) where
  handedOut := next_handedOut queue event joining.handedOut
  joined := next_joined queue event joining.joined

theorem initial_joining (Op : Type*) (threadCount : Nat) :
    Joining (DispatchQueue.initial Op threadCount) where
  handedOut := initial_handedOut Op threadCount
  joined := fun _ member => by cases member

section Ended

theorem held_ended {holds : Worker Op → List (Job Op)} (nothing : holds .finished = [])
    {workers : List (Worker Op)} (ended : ∀ stage ∈ workers, stage = .finished) :
    held holds workers = 0 := by
  rw [List.eq_replicate_of_mem ended, held_replicate_nil nothing]

theorem Joining.ended (joining : Joining queue) {caller : Caller Op} (member : caller ∈ queue.callers)
    (destroyed : caller.destroyed = true) : ∀ stage ∈ queue.workers, stage = .finished := by
  obtain ⟨call, stage⟩ := caller
  have joined := joining.joined _ member
  cases call with
  | destructor =>
      cases stage with
      | returned => exact (joined rfl).2 rfl
      | _ => cases destroyed
  | _ => cases destroyed

theorem HandedOut.shut (handedOut : HandedOut queue) (ended : ∀ stage ∈ queue.workers, stage = .finished) :
    Shut queue where
  ended := ended
  returned := by
    have runs := handedOut.runs
    rw [held_ended rfl ended, add_zero] at runs
    exact Multiset.coe_eq_coe.mp runs
  everyTaken := by
    have hands := handedOut.hands
    rw [held_ended rfl ended, add_zero] at hands
    exact Multiset.coe_eq_coe.mp hands
  left := by
    have hands := handedOut.hands
    rw [held_ended rfl ended, add_zero] at hands
    intro job pushed
    rcases handedOut.accounted.mem_pushed pushed with taken | rest
    · exact .inl ((Multiset.coe_eq_coe.mp hands).subset taken)
    · exact .inr rest

theorem Woken.ended {workers workersAfter : List (Worker Op)} (wakes : Woken workers workersAfter)
    (ended : ∀ stage ∈ workers, stage = .finished) : workersAfter = workers := by
  obtain ⟨size, -⟩ := wakes.lasting
  have endedAfter := wakes.lasting.all ended
  rw [List.eq_replicate_of_mem ended, List.eq_replicate_of_mem endedAfter, size]

/-- Without a worker that could do it, nothing more is taken, called or returned. -/
theorem atRest_of_ended (ended : ∀ stage ∈ queue.workers, stage = .finished) (event : Event Op) :
    AtRest queue (queue.next event) := by
  cases event with
  | call call => exact ⟨rfl, rfl, rfl, rfl⟩
  | spuriousWakeup index => exact ⟨Woken.ended (.inr (.inl ⟨index, rfl⟩)) ended, rfl, rfl, rfl⟩
  | worker index =>
      have same : queue.workerStep index = queue := by
        cases found : queue.workers[index]? with
        | none => simp only [DispatchQueue.workerStep, found]
        | some stage =>
            obtain rfl := ended stage (List.mem_of_getElem? found)
            simp only [DispatchQueue.workerStep, found]
      rw [AtRest, DispatchQueue.next, same]
      exact ⟨rfl, rfl, rfl, rfl⟩
  | caller index woken =>
      have workers := (callerStep_woken queue index woken).ended ended
      refine ⟨workers, ?_⟩
      rcases callerStep_cases queue index woken with same | ⟨call, stage, -, move⟩
      · rw [DispatchQueue.next, same]
        exact ⟨rfl, rfl, rfl⟩
      · rw [DispatchQueue.next]
        generalize queue.callerStep index woken = after at move
        cases move with
        | act => exact act_taken queue call
        | notify wakes =>
            obtain ⟨jobs, kept⟩ := notify_kept queue woken call
            exact ⟨congrArg Fifo.taken jobs, kept⟩
        | lock free => exact ⟨rfl, rfl, rfl⟩
        | unlock | join _ | joinedAll _ => exact ⟨rfl, rfl, rfl⟩

end Ended

/-- Once a destructor has returned, all threads have ended, every operation that was called has
returned, and whatever happens next no operation is taken or called any more. -/
theorem destructor_joins (reenters : Op → Bool) (threadCount : Nat) (events : List (Event Op)) :
    (dispatchQueue reenters).Along (fun queue event => (∃ caller ∈ queue.callers, caller.destroyed = true) →
      Shut queue ∧ AtRest queue (queue.step reenters event)) (DispatchQueue.initial Op threadCount)
        events := by
  have along := (dispatchQueue reenters).along_of_invariant
    (DispatchQueue.step_keeps reenters next_joining) (initial_joining Op threadCount) events
  refine (dispatchQueue reenters).along_mono (fun queue event joining => ?_) along
  rintro ⟨caller, member, destroyed⟩
  have ended := joining.ended member destroyed
  refine ⟨joining.handedOut.shut ended, ?_⟩
  unfold DispatchQueue.step
  split
  · exact ⟨rfl, rfl, rfl, rfl⟩
  · exact atRest_of_ended ended event

end RcControl.Dispatch
