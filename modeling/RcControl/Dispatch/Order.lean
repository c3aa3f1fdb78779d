import RcControl.Data.Slots
import RcControl.Dispatch.Exclusion

namespace RcControl.Dispatch

open RcControl.Data RcControl.Data.Slots

/-! In which order the operations run, with one worker. -/

variable {Op : Type*} {queue : DispatchQueue Op}

/-- The operation that a call has put into the queue. -/
def Caller.dispatched (caller : Caller Op) : List Op :=
  match caller.call, caller.stage with
  | _, .lock | _, .act => []
  | .dispatchCopy op, _ | .dispatchMove op, _ => [op]
  | .removePending, _ | .destructor, _ => []

/-- A destructor that has left the lock has set `quit`. -/
def Caller.Quits (quit : Bool) (caller : Caller Op) : Prop :=
  caller.call = .destructor → caller.stage = .lock ∨ caller.stage = .act ∨ quit = true

def Worker.inHand : Worker Op → List (Job Op)
  | .unlock job | .call job | .running job => [job]
  | .lock | .test | .asleep | .relock | .choose | .take | .lockAgain _ | .destroy _ | .loop |
    .leave | .finished => []

def Worker.inRun : Worker Op → List (Job Op)
  | .running job => [job]
  | .lock | .test | .asleep | .relock | .choose | .take | .unlock _ | .call _ | .lockAgain _ |
    .destroy _ | .loop | .leave | .finished => []

/-- What has been dispatched so far is accounted for, and what has been taken runs in turn. -/
structure Orderly (queue : DispatchQueue Op) : Prop where
  /-- What has been pushed is what the calls of `dispatch` have brought. -/
  dispatched : (queue.jobs.pushed.map Job.op).Perm (queue.callers.flatMap Caller.dispatched)
  quits : ∀ caller ∈ queue.callers, caller.Quits queue.quit
  distinct : queue.jobs.pushed.Nodup
  inOrder : queue.jobs.taken.Sublist queue.jobs.pushed
  accounted : ∀ job ∈ queue.jobs.pushed, job ∉ queue.jobs.taken →
    job ∈ queue.jobs.queue ∨ job ∈ queue.jobs.discarded
  /-- All operations taken have run to completion, but for one in hand, and each one that
  was started is one of these. -/
  runs : ∃ inHand, queue.jobs.taken = queue.finished ++ inHand ∧ inHand.length ≤ 1 ∧
    (queue.started = queue.finished ∨ queue.started = queue.jobs.taken)
  /-- The operation in hand is the worker's, from the moment it is taken until it returns. -/
  inHand : ∃ stage, queue.workers = [stage] ∧ queue.jobs.taken = queue.finished ++ stage.inHand ∧
    queue.started = queue.finished ++ stage.inRun

/-- An event that takes an operation takes the first in the queue, when all operations
taken before have completed and before `quit` is set; and `quit` stays set.  Only a dispatch
inside the lock pushes, at the end, and only `removePending` inside the lock discards. -/
structure InTurn (queue after : DispatchQueue Op) (event : Event Op) : Prop where
  takes : after.jobs.taken = queue.jobs.taken ∨
    queue.finished = queue.jobs.taken ∧ queue.started = queue.jobs.taken ∧ queue.quit = false ∧
      ∃ job rest, queue.jobs.queue = job :: rest ∧ after.jobs.taken = queue.jobs.taken ++ [job]
  quits : queue.quit = true → after.quit = true
  pushes : after.jobs.pushed = queue.jobs.pushed ∨
    ∃ index woken call op, event = .caller index woken ∧ queue.callers[index]? = some ⟨call, .act⟩ ∧
      (call = .dispatchCopy op ∨ call = .dispatchMove op) ∧
        after.jobs.pushed = queue.jobs.pushed ++ [⟨queue.jobs.pushed.length, op⟩]
  discards : after.jobs.discarded = queue.jobs.discarded ∨
    ∃ index woken, event = .caller index woken ∧ queue.callers[index]? = some ⟨.removePending, .act⟩ ∧
      after.jobs.discarded = queue.jobs.discarded ++ queue.jobs.queue ∧ after.jobs.queue = []

/-- The one worker: what it has in hand is what is taken and not finished. -/
def Tends (queue : DispatchQueue Op) : Prop :=
  ∃ stage, queue.workers = [stage] ∧
    queue.jobs.taken = queue.finished ++ stage.inHand ∧
    queue.started = queue.finished ++ stage.inRun ∧
    (stage = .take → queue.quit = false ∧ queue.jobs.queue ≠ [])

/-- What the calls have done so far is what the queue has seen. -/
structure Answered (queue : DispatchQueue Op) : Prop where
  dispatched : (queue.jobs.pushed.map Job.op : Multiset Op) = held Caller.dispatched queue.callers
  quits : ∀ caller ∈ queue.callers, caller.Quits queue.quit

structure Tended (queue : DispatchQueue Op) : Prop where
  exclusive : Exclusive queue
  answered : Answered queue
  accounted : queue.jobs.Accounted
  numbered : queue.jobs.pushed.map Job.number = List.range queue.jobs.pushed.length
  tends : Tends queue

section Worker

theorem workerStep_tends (tends : Tends queue) (index : Nat) : Tends (queue.workerStep index) := by
  obtain ⟨stage, single, hand, run, chosen⟩ := tends
  cases index with
  | succ index =>
      have none : queue.workers[index + 1]? = none := by
        rw [single]
        rfl
      simp only [DispatchQueue.workerStep, none]
      exact ⟨stage, single, hand, run, chosen⟩
  | zero =>
      have found : queue.workers[0]? = some stage := by
        rw [single]
        rfl
      have moved : ∀ next : Worker Op, queue.workers.set 0 next = [next] := by
        rw [single]
        exact fun _ => rfl
      cases stage with
      | lock | relock =>
          simp only [DispatchQueue.workerStep, found]
          split
          · exact ⟨.test, moved .test, hand, run, by simp⟩
          · exact ⟨_, single, hand, run, chosen⟩
      | test =>
          simp only [DispatchQueue.workerStep, found]
          split
          · exact ⟨.choose, moved .choose, hand, run, by simp⟩
          · exact ⟨.asleep, moved .asleep, hand, run, by simp⟩
      | choose =>
          simp only [DispatchQueue.workerStep, found]
          split
          · rename_i both
            have waiting : queue.quit = false ∧ queue.jobs.queue ≠ [] := by simpa using both
            exact ⟨.take, moved .take, hand, run, fun _ => waiting⟩
          · exact ⟨.loop, moved .loop, hand, run, by simp⟩
      | take =>
          simp only [DispatchQueue.workerStep, found]
          split
          · exact ⟨.take, single, hand, run, chosen⟩
          · rename_i job rest head
            have all : queue.jobs.taken = queue.finished := hand.trans (List.append_nil _)
            have inHand : queue.jobs.take.taken = queue.finished ++ [job] := by
              rw [Fifo.take_cons head, all]
            exact ⟨.unlock job, moved (.unlock job), inHand, run, by simp⟩
      | unlock job =>
          simp only [DispatchQueue.workerStep, found]
          exact ⟨.call job, moved (.call job), hand, run, by simp⟩
      | call job =>
          simp only [DispatchQueue.workerStep, found]
          have none_run : queue.started = queue.finished := run.trans (List.append_nil _)
          have inRun : queue.started ++ [job] = queue.finished ++ [job] := by rw [none_run]
          exact ⟨.running job, moved (.running job), hand, inRun, by simp⟩
      | running job =>
          simp only [DispatchQueue.workerStep, found]
          exact ⟨.lockAgain job, moved (.lockAgain job), hand.trans (List.append_nil _).symm,
            run.trans (List.append_nil _).symm, by simp⟩
      | lockAgain job =>
          simp only [DispatchQueue.workerStep, found]
          split
          · exact ⟨.destroy job, moved (.destroy job), hand, run, by simp⟩
          · exact ⟨_, single, hand, run, chosen⟩
      | destroy job =>
          simp only [DispatchQueue.workerStep, found]
          exact ⟨.loop, moved .loop, hand, run, by simp⟩
      | loop =>
          simp only [DispatchQueue.workerStep, found]
          split
          · exact ⟨.leave, moved .leave, hand, run, by simp⟩
          · exact ⟨.test, moved .test, hand, run, by simp⟩
      | leave =>
          simp only [DispatchQueue.workerStep, found]
          exact ⟨.finished, moved .finished, hand, run, by simp⟩
      | asleep | finished =>
          simp only [DispatchQueue.workerStep, found]
          exact ⟨_, single, hand, run, chosen⟩

/-- A worker touches the queue and its history in one step only. -/
theorem workerStep_jobs (queue : DispatchQueue Op) (index : Nat) :
    (queue.workerStep index).quit = queue.quit ∧ ((queue.workerStep index).jobs = queue.jobs ∨
      queue.workers[index]? = some .take ∧ ∃ job rest, queue.jobs.queue = job :: rest ∧
        (queue.workerStep index).jobs = queue.jobs.take) := by
  cases found : queue.workers[index]? with
  | none =>
      simp only [DispatchQueue.workerStep, found]
      exact ⟨trivial, .inl trivial⟩
  | some stage =>
      rcases workerStep_cases found with ⟨same, -⟩ | ⟨next, move⟩
      · rw [same]
        exact ⟨rfl, .inl rfl⟩
      · refine ⟨move.quit, ?_⟩
        rcases move.jobs with same | ⟨rfl, taken⟩
        · exact .inl same
        · exact .inr ⟨rfl, taken⟩

end Worker

section Caller

variable {after : DispatchQueue Op} {index woken : Nat} {call : Call Op} {stage : Stage}

/-- A call touches the queue, its history and `quit` inside the lock only. -/
theorem CallerMove.jobs (move : CallerMove queue index woken call stage after) :
    after.jobs = queue.jobs ∧ after.quit = queue.quit ∨
      after.jobs = (queue.act call).jobs ∧ after.quit = (queue.act call).quit := by
  cases move with
  | act => exact .inr ⟨rfl, rfl⟩
  | notify wakes =>
      obtain ⟨-, -, jobs, quit⟩ := notify_frame queue woken call
      exact .inl ⟨jobs, quit⟩
  | lock free => exact .inl ⟨rfl, rfl⟩
  | unlock | join _ | joinedAll _ => exact .inl ⟨rfl, rfl⟩

theorem callerStep_jobs (queue : DispatchQueue Op) (index woken : Nat) :
    (queue.callerStep index woken).jobs = queue.jobs ∧
        (queue.callerStep index woken).quit = queue.quit ∨
      ∃ call, (queue.callerStep index woken).jobs = (queue.act call).jobs ∧
        (queue.callerStep index woken).quit = (queue.act call).quit := by
  rcases callerStep_cases queue index woken with same | ⟨call, stage, -, move⟩
  · left
    rw [same]
    exact ⟨rfl, rfl⟩
  · rcases move.jobs with same | acted
    · exact .inl same
    · exact .inr ⟨call, acted⟩

theorem wake_inHand (stage : Worker Op) : stage.wake.inHand = stage.inHand := by
  cases stage <;> rfl

theorem wake_inRun (stage : Worker Op) : stage.wake.inRun = stage.inRun := by
  cases stage <;> rfl

theorem wake_eq_take {stage : Worker Op} (taking : stage.wake = .take) : stage = .take := by
  cases stage <;> cases taking
  rfl

/-- A wakeup leaves the worker with what it has in hand. -/
theorem Tends.wake {after : DispatchQueue Op} {stage : Worker Op} (single : after.workers = [stage.wake])
    (hand : after.jobs.taken = after.finished ++ stage.inHand)
    (run : after.started = after.finished ++ stage.inRun)
    (chosen : stage = .take → after.quit = false ∧ after.jobs.queue ≠ []) : Tends after :=
  ⟨stage.wake, single, by rw [hand, wake_inHand], by rw [run, wake_inRun],
    fun taking => chosen (wake_eq_take taking)⟩

theorem modify_single {Item : Type*} (change : Item → Item) (item : Item) (index : Nat) :
    [item].modify index change = [item] ∨ [item].modify index change = [change item] := by
  cases index with
  | zero => exact .inr rfl
  | succ index => exact .inl (by simp)

theorem CallerMove.tends (move : CallerMove queue index woken call stage after)
    (found : queue.callers[index]? = some ⟨call, stage⟩) (exclusive : Exclusive queue)
    (tends : Tends queue) : Tends after := by
  obtain ⟨own, single, hand, run, chosen⟩ := tends
  cases move with
  | act =>
      -- The worker is not about to take an operation: it would own the lock.
      have notTaking : own ≠ .take := by
        intro taking
        subst taking
        have worker : queue.inside (.worker 0) = true := by
          rw [DispatchQueue.inside, single]
          rfl
        have same := exclusive.only worker (inside_caller found)
        cases same
      cases call with
      | dispatchCopy op | dispatchMove op | removePending | destructor =>
          exact ⟨own, single, hand, run, fun taking => absurd taking notTaking⟩
  | notify wakes =>
      cases call with
      | dispatchCopy op | dispatchMove op =>
          rcases modify_single Worker.wake own woken with same | woke
          · exact ⟨own, (congrArg (·.modify woken Worker.wake) single).trans same, hand, run, chosen⟩
          · exact .wake ((congrArg (·.modify woken Worker.wake) single).trans woke) hand run chosen
      | removePending => exact ⟨own, single, hand, run, chosen⟩
      | destructor => exact .wake (congrArg (·.map Worker.wake) single) hand run chosen
  | lock free => exact ⟨own, single, hand, run, chosen⟩
  | unlock | join _ | joinedAll _ => exact ⟨own, single, hand, run, chosen⟩

theorem callerStep_tends (exclusive : Exclusive queue) (tends : Tends queue) (index woken : Nat) :
    Tends (queue.callerStep index woken) := by
  rcases callerStep_cases queue index woken with same | ⟨call, stage, found, move⟩
  · rw [same]
    exact tends
  · exact move.tends found exclusive tends

end Caller

section Answered

variable {after : DispatchQueue Op} {index woken : Nat} {call : Call Op} {stage : Stage}

/-- A step that neither pushes nor moves a call. -/
theorem Answered.still (answered : Answered queue) (pushed : after.jobs.pushed = queue.jobs.pushed)
    (callers : after.callers = queue.callers) (quit : after.quit = queue.quit) : Answered after where
  dispatched := by rw [pushed, callers]; exact answered.dispatched
  quits := by rw [callers, quit]; exact answered.quits

/-- A call has gone on, and has pushed what it says. -/
theorem Answered.moved (answered : Answered queue) {caller next : Caller Op} {ops : List Op}
    (found : queue.callers[index]? = some caller) (callers : after.callers = queue.callers.set index next)
    (pushed : after.jobs.pushed.map Job.op = queue.jobs.pushed.map Job.op ++ ops)
    (brings : next.dispatched = caller.dispatched ++ ops) (kept : queue.quit = true → after.quit = true)
    (quits : next.Quits after.quit) : Answered after where
  dispatched := by
    have moved : held Caller.dispatched (queue.callers.set index next) + caller.dispatched =
        held Caller.dispatched queue.callers + next.dispatched := held_set found next
    rw [pushed, callers, ← Multiset.coe_add, answered.dispatched]
    rw [brings, ← Multiset.coe_add] at moved
    apply add_right_cancel (b := (caller.dispatched : Multiset Op))
    rw [moved]
    abel
  quits := by
    rw [callers]
    intro other member
    rcases List.mem_or_eq_of_mem_set member with old | rfl
    · intro destructs
      rcases answered.quits other old destructs with lock | act | set
      · exact .inl lock
      · exact .inr (.inl act)
      · exact .inr (.inr (kept set))
    · exact quits

theorem CallerMove.answered (move : CallerMove queue index woken call stage after)
    (found : queue.callers[index]? = some ⟨call, stage⟩) (answered : Answered queue) : Answered after := by
  have own := answered.quits _ (List.mem_of_getElem? found)
  have past (destructs : call = .destructor) (locked : stage ≠ .lock) (acted : stage ≠ .act) :
      queue.quit = true := ((own destructs).resolve_left locked).resolve_left acted
  have nothing : queue.jobs.pushed.map Job.op = queue.jobs.pushed.map Job.op ++ [] :=
    (List.append_nil _).symm
  cases move with
  | lock free => exact answered.moved found rfl nothing rfl id fun _ => .inr (.inl rfl)
  | act =>
      have moved := act_moved queue call index ⟨call, .unlock⟩
      cases call with
      | dispatchCopy op | dispatchMove op =>
          have pushed : (queue.jobs.pushed ++ [Job.mk queue.jobs.pushed.length op]).map Job.op =
              queue.jobs.pushed.map Job.op ++ [op] := List.map_append
          exact answered.moved found moved pushed rfl id fun destructs => by cases destructs
      | removePending => exact answered.moved found moved nothing rfl id fun destructs => by cases destructs
      | destructor => exact answered.moved found moved nothing rfl (fun _ => rfl) fun _ => .inr (.inr rfl)
  | unlock =>
      refine answered.moved found rfl nothing ?_ id ?_
      · cases call <;> rfl
      · exact fun destructs => .inr (.inr (past destructs (by simp) (by simp)))
  | notify wakes =>
      obtain ⟨-, -, jobs, quit⟩ := notify_frame queue woken call
      have pushed : (queue.notify woken call).jobs.pushed.map Job.op =
          queue.jobs.pushed.map Job.op ++ [] := by rw [jobs, List.append_nil]
      refine answered.moved found (notify_moved queue woken call index _) pushed ?_
        (fun set => quit.trans set) ?_
      · cases call <;> rfl
      · exact fun destructs => .inr (.inr (quit.trans (past destructs (by simp) (by simp))))
  | join joined | joinedAll joined =>
      refine answered.moved found rfl nothing ?_ id ?_
      · cases call <;> rfl
      · exact fun destructs => .inr (.inr (past destructs (by simp) (by simp)))

theorem workerStep_callers (queue : DispatchQueue Op) (index : Nat) :
    (queue.workerStep index).callers = queue.callers := by
  cases found : queue.workers[index]? with
  | none => simp only [DispatchQueue.workerStep, found]
  | some stage =>
      rcases workerStep_cases found with ⟨same, -⟩ | ⟨next, move⟩
      · rw [same]
      · exact move.callers

theorem next_answered (queue : DispatchQueue Op) (event : Event Op) (answered : Answered queue) :
    Answered (queue.next event) := by
  cases event with
  | spuriousWakeup index => exact answered.still rfl rfl rfl
  | worker index =>
      obtain ⟨quit, jobs⟩ := workerStep_jobs queue index
      refine answered.still ?_ (workerStep_callers queue index) quit
      rcases jobs with same | ⟨-, job, rest, -, taken⟩
      · exact congrArg Fifo.pushed same
      · exact (congrArg Fifo.pushed taken).trans queue.jobs.take_frame.1
  | caller index woken =>
      rcases callerStep_cases queue index woken with same | ⟨call, stage, found, move⟩
      · rw [DispatchQueue.next, same]
        exact answered
      · exact move.answered found answered
  | call call =>
      constructor
      · have fresh : held Caller.dispatched [(⟨call, .lock⟩ : Caller Op)] = 0 := by cases call <;> rfl
        rw [DispatchQueue.next, held_append, fresh, add_zero]
        exact answered.dispatched
      · intro caller member
        rcases List.mem_append.mp member with old | new
        · exact answered.quits caller old
        · obtain rfl := List.mem_singleton.mp new
          exact fun _ => .inl rfl

theorem initial_answered (Op : Type*) (threadCount : Nat) :
    Answered (DispatchQueue.initial Op threadCount) where
  dispatched := rfl
  quits := fun _ member => by cases member

theorem Answered.perm (answered : Answered queue) :
    (queue.jobs.pushed.map Job.op).Perm (queue.callers.flatMap Caller.dispatched) :=
  Multiset.coe_eq_coe.mp answered.dispatched

end Answered

section Run

theorem act_jobs (queue : DispatchQueue Op) (call : Call Op) :
    (queue.act call).jobs = queue.jobs ∨ (queue.act call).jobs = queue.jobs.clear ∨
      ∃ op, (queue.act call).jobs = queue.jobs.push ⟨queue.jobs.pushed.length, op⟩ := by
  cases call with
  | dispatchCopy op | dispatchMove op => exact .inr (.inr ⟨op, rfl⟩)
  | removePending => exact .inr (.inl rfl)
  | destructor => exact .inl rfl

/-- What one event does to the queue, its history and `quit`. -/
theorem next_jobs (queue : DispatchQueue Op) (event : Event Op) :
    (queue.next event).jobs = queue.jobs ∨ (queue.next event).jobs = queue.jobs.clear ∨
      (∃ op, (queue.next event).jobs = queue.jobs.push ⟨queue.jobs.pushed.length, op⟩) ∨
      ∃ index : Nat, queue.workers[index]? = some Worker.take ∧
        ∃ job rest, queue.jobs.queue = job :: rest ∧ (queue.next event).jobs = queue.jobs.take := by
  cases event with
  | call call | spuriousWakeup index => exact .inl rfl
  | worker index =>
      obtain ⟨-, same | ⟨taking, job, rest, head, taken⟩⟩ := workerStep_jobs queue index
      · exact .inl same
      · exact .inr (.inr (.inr ⟨index, taking, job, rest, head, taken⟩))
  | caller index woken =>
      rcases callerStep_jobs queue index woken with ⟨same, -⟩ | ⟨call, jobs, -⟩
      · exact .inl same
      · rcases act_jobs queue call with same | cleared | ⟨op, pushed⟩
        · exact .inl (jobs.trans same)
        · exact .inr (.inl (jobs.trans cleared))
        · exact .inr (.inr (.inl ⟨op, jobs.trans pushed⟩))

theorem next_quit (queue : DispatchQueue Op) (event : Event Op) (quit : queue.quit = true) :
    (queue.next event).quit = true := by
  cases event with
  | call call | spuriousWakeup index => exact quit
  | worker index => exact (workerStep_jobs queue index).1.trans quit
  | caller index woken =>
      rcases callerStep_jobs queue index woken with ⟨-, same⟩ | ⟨call, -, acted⟩
      · exact same.trans quit
      · have set : (queue.act call).quit = true := by
          cases call with
          | dispatchCopy op | dispatchMove op | removePending => exact quit
          | destructor => rfl
        exact acted.trans set

theorem next_tends (exclusive : Exclusive queue) (tends : Tends queue) (event : Event Op) :
    Tends (queue.next event) := by
  cases event with
  | call call => exact tends
  | caller index woken => exact callerStep_tends exclusive tends index woken
  | worker index => exact workerStep_tends tends index
  | spuriousWakeup index =>
      obtain ⟨stage, single, hand, run, chosen⟩ := tends
      have modified := congrArg (·.modify index Worker.wake) single
      rcases modify_single Worker.wake stage index with same | woke
      · exact ⟨stage, modified.trans same, hand, run, chosen⟩
      · exact .wake (modified.trans woke) hand run chosen

/-- The step lemma. -/
theorem next_tended (queue : DispatchQueue Op) (event : Event Op) (tended : Tended queue) :
    Tended (queue.next event) := by
  obtain ⟨exclusive, answered, accounted, numbered, tends⟩ := tended
  have exclusiveAfter := next_exclusive queue event exclusive
  have answeredAfter := next_answered queue event answered
  have tendsAfter := next_tends exclusive tends event
  rcases next_jobs queue event with same | cleared | ⟨op, pushed⟩ | ⟨index, -, job, rest, -, taken⟩
  · exact ⟨exclusiveAfter, answeredAfter, same ▸ accounted, same ▸ numbered, tendsAfter⟩
  · exact ⟨exclusiveAfter, answeredAfter, cleared ▸ accounted.clear, cleared ▸ numbered, tendsAfter⟩
  · have next : (queue.next event).jobs.pushed.map Job.number =
        List.range (queue.next event).jobs.pushed.length := by
      rw [pushed]
      simp only [Fifo.push, List.map_append, numbered, List.length_append, List.map_cons, List.map_nil,
        List.length_cons, List.length_nil, Nat.zero_add, List.range_succ]
    exact ⟨exclusiveAfter, answeredAfter, pushed ▸ accounted.push _, next, tendsAfter⟩
  · have same : (queue.next event).jobs.pushed = queue.jobs.pushed := by
      rw [taken, queue.jobs.take_frame.1]
    exact ⟨exclusiveAfter, answeredAfter, taken ▸ accounted.take, same.symm ▸ numbered, tendsAfter⟩

theorem initial_tended (Op : Type*) : Tended (DispatchQueue.initial Op 1) where
  exclusive := initial_exclusive Op 1
  answered := initial_answered Op 1
  accounted := Fifo.accounted_filled []
  numbered := rfl
  tends := ⟨.lock, rfl, rfl, rfl, by simp⟩

theorem Tended.orderly (tended : Tended queue) : Orderly queue where
  dispatched := tended.answered.perm
  quits := tended.answered.quits
  distinct := by
    have numbers : (queue.jobs.pushed.map Job.number).Nodup := by
      rw [tended.numbered]
      exact List.nodup_range
    exact numbers.of_map
  inOrder := tended.accounted.taken_sublist
  accounted := by
    intro job pushed notTaken
    exact (tended.accounted.mem_pushed pushed).resolve_left notTaken
  runs := by
    obtain ⟨stage, -, hand, run, -⟩ := tended.tends
    have single : stage.inHand.length ≤ 1 := by cases stage <;> simp [Worker.inHand]
    have begun : queue.started = queue.finished ∨ queue.started = queue.jobs.taken := by
      cases stage with
      | running job => exact .inr (run.trans hand.symm)
      | _ => exact .inl (run.trans (List.append_nil _))
    exact ⟨stage.inHand, hand, single, begun⟩
  inHand := by
    obtain ⟨stage, workers, hand, run, -⟩ := tended.tends
    exact ⟨stage, workers, hand, run⟩

/-- Where a step pushes or discards. -/
theorem next_changes (queue : DispatchQueue Op) (event : Event Op) :
    ((queue.next event).jobs.pushed = queue.jobs.pushed ∧
        (queue.next event).jobs.discarded = queue.jobs.discarded) ∨
      ∃ index woken call, event = .caller index woken ∧ queue.callers[index]? = some ⟨call, .act⟩ ∧
        (queue.next event).jobs = (queue.act call).jobs := by
  cases event with
  | call call | spuriousWakeup index => exact .inl ⟨rfl, rfl⟩
  | worker index =>
      obtain ⟨-, same | ⟨-, job, rest, -, taken⟩⟩ := workerStep_jobs queue index
      · rw [DispatchQueue.next, same]
        exact .inl ⟨rfl, rfl⟩
      · rw [DispatchQueue.next, taken]
        exact .inl queue.jobs.take_frame
  | caller index woken =>
      rcases callerStep_cases queue index woken with same | ⟨call, stage, found, move⟩
      · rw [DispatchQueue.next, same]
        exact .inl ⟨rfl, rfl⟩
      · by_cases acts : stage = .act
        · subst acts
          refine .inr ⟨index, woken, call, rfl, found, ?_⟩
          rw [DispatchQueue.next]
          generalize queue.callerStep index woken = after at move
          cases move
          rfl
        · have jobs : (queue.callerStep index woken).jobs = queue.jobs := by
            generalize queue.callerStep index woken = after at move
            cases move with
            | act => exact absurd rfl acts
            | notify wakes => exact (notify_frame queue woken call).2.2.1
            | lock free => rfl
            | unlock | join _ | joinedAll _ => rfl
          rw [DispatchQueue.next, jobs]
          exact .inl ⟨rfl, rfl⟩

theorem Tended.inTurn (tended : Tended queue) (event : Event Op) :
    InTurn queue (queue.next event) event where
  takes := by
    rcases next_jobs queue event with same | cleared | ⟨op, pushed⟩ |
      ⟨index, taking, job, rest, head, taken⟩
    · exact .inl (by rw [same])
    · exact .inl (by rw [cleared]; rfl)
    · exact .inl (by rw [pushed]; rfl)
    · obtain ⟨stage, single, hand, run, chosen⟩ := tended.tends
      have here : stage = .take := by
        rw [single] at taking
        cases index with
        | zero => exact Option.some.inj taking
        | succ index => cases taking
      subst here
      have all : queue.jobs.taken = queue.finished := hand.trans (List.append_nil _)
      have none_run : queue.started = queue.finished := run.trans (List.append_nil _)
      have appended : (queue.next event).jobs.taken = queue.jobs.taken ++ [job] := by
        rw [taken, Fifo.take_cons head]
      exact .inr ⟨all.symm, none_run.trans all.symm, (chosen rfl).1, job, rest, head, appended⟩
  quits := next_quit queue event
  pushes := by
    rcases next_changes queue event with ⟨same, -⟩ | ⟨index, woken, call, rfl, found, acted⟩
    · exact .inl same
    · rw [acted]
      cases call with
      | dispatchCopy op => exact .inr ⟨index, woken, _, op, rfl, found, .inl rfl, rfl⟩
      | dispatchMove op => exact .inr ⟨index, woken, _, op, rfl, found, .inr rfl, rfl⟩
      | removePending | destructor => exact .inl rfl
  discards := by
    rcases next_changes queue event with ⟨-, same⟩ | ⟨index, woken, call, rfl, found, acted⟩
    · exact .inl same
    · rw [acted]
      cases call with
      | removePending => exact .inr ⟨index, woken, rfl, found, rfl, rfl⟩
      | dispatchCopy op | dispatchMove op | destructor => exact .inl rfl

theorem InTurn.refl (queue : DispatchQueue Op) (event : Event Op) : InTurn queue queue event where
  takes := .inl rfl
  quits := id
  pushes := .inl rfl
  discards := .inl rfl

end Run

/-- In every interleaving with one worker, also if threads deadlock in destructors. -/
theorem execution_in_order (reenters : Op → Bool) (events : List (Event Op)) :
    (dispatchQueue reenters).Always Orderly (DispatchQueue.initial Op 1) events ∧
      (dispatchQueue reenters).Along (fun queue event => InTurn queue (queue.step reenters event) event)
        (DispatchQueue.initial Op 1) events := by
  have kept := DispatchQueue.step_keeps reenters next_tended
  have always := (dispatchQueue reenters).always_of_invariant kept (initial_tended Op) events
  have along := (dispatchQueue reenters).along_of_invariant kept (initial_tended Op) events
  apply And.intro
  · exact (dispatchQueue reenters).always_mono (fun _ => Tended.orderly) always
  · refine (dispatchQueue reenters).along_mono (fun queue event tended => ?_) along
    unfold DispatchQueue.step
    split
    · exact .refl queue event
    · exact tended.inTurn event

end RcControl.Dispatch
