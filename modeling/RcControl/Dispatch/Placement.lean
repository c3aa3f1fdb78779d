import RcControl.Data.Ledger
import RcControl.Data.Slots
import RcControl.Dispatch.Order

namespace RcControl.Dispatch

open RcControl.Data RcControl.Data.Slots

/-! Where each operation is, with any number of workers. -/

variable {Op : Type*} {queue after : DispatchQueue Op} {index woken : Nat}

/-- Where an operation is that no worker has in hand. -/
inductive Resting where
  | queue
  | returned
  | discarded
deriving DecidableEq, Repr

instance : Fintype Resting where
  elems := {.queue, .returned, .discarded}
  complete place := by cases place <;> decide

/-- A worker has an operation in hand from the moment it has taken it until it returns. -/
abbrev Place (threadCount : Nat) := Fin threadCount ⊕ Resting

def DispatchQueue.ledger (queue : DispatchQueue Op) : Place queue.workers.length → List (Job Op)
  | .inl index => queue.workers[index].inHand
  | .inr .queue => queue.jobs.queue
  | .inr .returned => queue.finished
  | .inr .discarded => queue.jobs.discarded

/-- An operation that was dispatched is at one place, no operation is called a second
time, and those that were called have returned or are running. -/
structure Placed (queue : DispatchQueue Op) : Prop where
  /-- What has been pushed is what the calls of `dispatch` have brought. -/
  dispatched : (queue.jobs.pushed.map Job.op).Perm (queue.callers.flatMap Caller.dispatched)
  somewhere : ∀ job ∈ queue.jobs.pushed, ∃! place, job ∈ queue.ledger place
  once : ∀ place, (queue.ledger place).Nodup
  known : ∀ place, ∀ job ∈ queue.ledger place, job ∈ queue.jobs.pushed
  takenInOrder : queue.jobs.taken.Sublist queue.jobs.pushed
  calledOnce : queue.started.Nodup
  called : ∀ job, job ∈ queue.started ↔
    job ∈ queue.finished ∨ ∃ index : Nat, queue.workers[index]? = some (.running job)

/-- What was taken has been returned or is in the hands of a worker, and what was called
has been returned or is being run. -/
structure HandedOut (queue : DispatchQueue Op) : Prop where
  answered : Answered queue
  accounted : queue.jobs.Accounted
  numbered : queue.jobs.pushed.map Job.number = List.range queue.jobs.pushed.length
  hands : (queue.jobs.taken : Multiset (Job Op)) =
    queue.finished + held Worker.inHand queue.workers
  runs : (queue.started : Multiset (Job Op)) = queue.finished + held Worker.inRun queue.workers

section Worker

/-- What a worker's step takes, calls and returns is what goes through its hands. -/
structure HandMove (queue after : DispatchQueue Op) (index : Nat) (stage next : Worker Op) : Prop where
  workers : after.workers = queue.workers.set index next
  hands : (after.jobs.taken + stage.inHand + queue.finished : Multiset (Job Op)) =
    queue.jobs.taken + next.inHand + after.finished
  runs : (after.started + stage.inRun + queue.finished : Multiset (Job Op)) =
    queue.started + next.inRun + after.finished

theorem workerStep_hands {stage : Worker Op} (found : queue.workers[index]? = some stage) :
    queue.workerStep index = queue ∨ ∃ next, HandMove queue (queue.workerStep index) index stage next := by
  cases stage with
  | lock | relock =>
      simp only [DispatchQueue.workerStep, found]
      split
      · exact .inr ⟨.test, rfl, rfl, rfl⟩
      · exact .inl rfl
  | lockAgain job =>
      simp only [DispatchQueue.workerStep, found]
      split
      · exact .inr ⟨.destroy job, rfl, rfl, rfl⟩
      · exact .inl rfl
  | test =>
      simp only [DispatchQueue.workerStep, found]
      split
      · exact .inr ⟨.choose, rfl, rfl, rfl⟩
      · exact .inr ⟨.asleep, rfl, rfl, rfl⟩
  | choose =>
      simp only [DispatchQueue.workerStep, found]
      split
      · exact .inr ⟨.take, rfl, rfl, rfl⟩
      · exact .inr ⟨.loop, rfl, rfl, rfl⟩
  | take =>
      simp only [DispatchQueue.workerStep, found]
      split
      · exact .inl rfl
      · rename_i job rest head
        refine .inr ⟨.unlock job, rfl, ?_, rfl⟩
        simp only [Fifo.take_cons head, Worker.inHand, ← Multiset.coe_add, Multiset.coe_nil, add_zero]
        rfl
  | unlock job =>
      simp only [DispatchQueue.workerStep, found]
      exact .inr ⟨.call job, rfl, rfl, rfl⟩
  | call job =>
      simp only [DispatchQueue.workerStep, found]
      refine .inr ⟨.running job, rfl, rfl, ?_⟩
      simp only [Worker.inRun, ← Multiset.coe_add, Multiset.coe_nil, add_zero]
      rfl
  | running job =>
      simp only [DispatchQueue.workerStep, found]
      refine .inr ⟨.lockAgain job, rfl, ?_, ?_⟩
      · simp only [Worker.inHand, ← Multiset.coe_add, Multiset.coe_nil, add_zero]
        change (queue.jobs.taken : Multiset (Job Op)) + _ + _ = queue.jobs.taken + (_ + _)
        abel
      · simp only [Worker.inRun, ← Multiset.coe_add, Multiset.coe_nil, add_zero]
        change (queue.started : Multiset (Job Op)) + _ + _ = queue.started + (_ + _)
        abel
  | destroy job =>
      simp only [DispatchQueue.workerStep, found]
      exact .inr ⟨.loop, rfl, rfl, rfl⟩
  | loop =>
      simp only [DispatchQueue.workerStep, found]
      split
      · exact .inr ⟨.leave, rfl, rfl, rfl⟩
      · exact .inr ⟨.test, rfl, rfl, rfl⟩
  | leave =>
      simp only [DispatchQueue.workerStep, found]
      exact .inr ⟨.finished, rfl, rfl, rfl⟩
  | asleep | finished =>
      simp only [DispatchQueue.workerStep, found]
      exact .inl trivial

end Worker

section Step

/-- The two equations of `HandedOut`. -/
def Balanced (queue : DispatchQueue Op) : Prop :=
  (queue.jobs.taken : Multiset (Job Op)) = queue.finished + held Worker.inHand queue.workers ∧
    (queue.started : Multiset (Job Op)) = queue.finished + held Worker.inRun queue.workers

theorem workerStep_balanced (balanced : Balanced queue) (index : Nat) :
    Balanced (queue.workerStep index) := by
  cases found : queue.workers[index]? with
  | none =>
      simp only [DispatchQueue.workerStep, found]
      exact balanced
  | some stage =>
      rcases workerStep_hands found with same | ⟨next, move⟩
      · rw [same]
        exact balanced
      · rw [Balanced, move.workers]
        exact ⟨balance_set found balanced.1 move.hands, balance_set found balanced.2 move.runs⟩

/-- Some of the workers have been woken, and nothing else has happened to them. -/
def Woken (workers workersAfter : List (Worker Op)) : Prop :=
  workersAfter = workers ∨ (∃ woken : Nat, workersAfter = workers.modify woken Worker.wake) ∨
    workersAfter = workers.map Worker.wake

/-- A step that only wakes workers, and neither takes, calls nor returns an operation. -/
theorem Balanced.wake (balanced : Balanced queue) (taken : after.jobs.taken = queue.jobs.taken)
    (started : after.started = queue.started) (finished : after.finished = queue.finished)
    (workers : Woken queue.workers after.workers) : Balanced after := by
  have hands {holds : Worker Op → List (Job Op)} (same : ∀ stage, holds (Worker.wake stage) = holds stage) :
      held holds after.workers = held holds queue.workers := by
    rcases workers with kept | ⟨woken, modified⟩ | all
    · rw [kept]
    · rw [modified, held_modify same]
    · rw [all, held_map same]
  rw [Balanced, taken, started, finished, hands wake_inHand, hands wake_inRun]
  exact balanced

theorem act_taken (queue : DispatchQueue Op) (call : Call Op) :
    (queue.act call).jobs.taken = queue.jobs.taken ∧
    (queue.act call).started = queue.started ∧ (queue.act call).finished = queue.finished := by
  cases call <;> exact ⟨rfl, rfl, rfl⟩

theorem notify_workers (queue : DispatchQueue Op) (woken : Nat) (call : Call Op) :
    Woken queue.workers (queue.notify woken call).workers := by
  cases call with
  | dispatchCopy op | dispatchMove op => exact .inr (.inl ⟨woken, rfl⟩)
  | removePending => exact .inl rfl
  | destructor => exact .inr (.inr rfl)

theorem notify_kept (queue : DispatchQueue Op) (woken : Nat) (call : Call Op) :
    (queue.notify woken call).jobs = queue.jobs ∧ (queue.notify woken call).started = queue.started ∧
      (queue.notify woken call).finished = queue.finished := by
  cases call <;> exact ⟨rfl, rfl, rfl⟩

theorem callerStep_balanced (balanced : Balanced queue) (index woken : Nat) :
    Balanced (queue.callerStep index woken) := by
  rcases callerStep_cases queue index woken with same | ⟨call, stage, -, move⟩
  · rw [same]
    exact balanced
  · generalize queue.callerStep index woken = after at move
    cases move with
    | act =>
        obtain ⟨taken, started, finished⟩ := act_taken queue call
        exact balanced.wake taken started finished (.inl (act_workers call))
    | notify wakes =>
        obtain ⟨jobs, started, finished⟩ := notify_kept queue woken call
        exact balanced.wake (congrArg Fifo.taken jobs) started finished (notify_workers queue woken call)
    | lock free => exact balanced.wake rfl rfl rfl (.inl rfl)
    | unlock | join _ | joinedAll _ => exact balanced.wake rfl rfl rfl (.inl rfl)

theorem next_balanced (balanced : Balanced queue) (event : Event Op) : Balanced (queue.next event) := by
  cases event with
  | call call => exact balanced.wake rfl rfl rfl (.inl rfl)
  | caller index woken => exact callerStep_balanced balanced index woken
  | worker index => exact workerStep_balanced balanced index
  | spuriousWakeup index => exact balanced.wake rfl rfl rfl (.inr (.inl ⟨index, rfl⟩))

/-- The history of the queue: pushes are numbered, and nothing leaves unrecorded. -/
theorem next_recorded (accounted : queue.jobs.Accounted)
    (numbered : queue.jobs.pushed.map Job.number = List.range queue.jobs.pushed.length)
    (event : Event Op) : (queue.next event).jobs.Accounted ∧
      (queue.next event).jobs.pushed.map Job.number =
        List.range (queue.next event).jobs.pushed.length := by
  rcases next_jobs queue event with same | cleared | ⟨op, pushed⟩ | ⟨index, -, job, rest, -, taken⟩
  · exact ⟨same ▸ accounted, same ▸ numbered⟩
  · exact ⟨cleared ▸ accounted.clear, cleared ▸ numbered⟩
  · refine ⟨pushed ▸ accounted.push _, ?_⟩
    rw [pushed]
    simp only [Fifo.push, List.map_append, numbered, List.length_append, List.map_cons, List.map_nil,
      List.length_cons, List.length_nil, Nat.zero_add, List.range_succ]
  · have same : (queue.next event).jobs.pushed = queue.jobs.pushed := by
      rw [taken, queue.jobs.take_frame.1]
    exact ⟨taken ▸ accounted.take, same.symm ▸ numbered⟩

theorem next_handedOut (queue : DispatchQueue Op) (event : Event Op) (handedOut : HandedOut queue) :
    HandedOut (queue.next event) := by
  obtain ⟨answered, accounted, numbered, hands, runs⟩ := handedOut
  obtain ⟨recorded, renumbered⟩ := next_recorded accounted numbered event
  obtain ⟨handsAfter, runsAfter⟩ := next_balanced ⟨hands, runs⟩ event
  exact ⟨next_answered queue event answered, recorded, renumbered, handsAfter, runsAfter⟩

theorem initial_handedOut (Op : Type*) (threadCount : Nat) :
    HandedOut (DispatchQueue.initial Op threadCount) where
  answered := initial_answered Op threadCount
  accounted := Fifo.accounted_filled []
  numbered := rfl
  hands := by rw [DispatchQueue.initial, held_replicate_nil rfl]; rfl
  runs := by rw [DispatchQueue.initial, held_replicate_nil rfl]; rfl

end Step

section Places

theorem sum_resting {Value : Type*} [AddCommMonoid Value] (value : Resting → Value) :
    ∑ place, value place = value .queue + (value .returned + value .discarded) := by
  have places : (Finset.univ : Finset Resting) = {.queue, .returned, .discarded} := rfl
  rw [places, Finset.sum_insert (by decide), Finset.sum_pair (by decide)]

theorem sum_inHand (workers : List (Worker Op)) :
    ∑ index : Fin workers.length, (workers[index].inHand : Multiset (Job Op)) =
      held Worker.inHand workers := by
  induction workers with
  | nil => rfl
  | cons worker workers ih =>
      rw [held_cons, ← ih]
      exact Fin.sum_univ_succ _

/-- The places together hold what was dispatched. -/
theorem HandedOut.total (handedOut : HandedOut queue) :
    Ledger.total queue.ledger = queue.jobs.pushed := by
  rw [Ledger.total, Fintype.sum_sum_type, sum_resting]
  have workers := sum_inHand queue.workers
  have whole := Multiset.coe_eq_coe.mpr handedOut.accounted.whole
  simp only [← Multiset.coe_add, handedOut.hands] at whole
  rw [whole]
  simp only [DispatchQueue.ledger]
  rw [workers]
  abel

theorem HandedOut.nodup_pushed (handedOut : HandedOut queue) : queue.jobs.pushed.Nodup := by
  have numbers : (queue.jobs.pushed.map Job.number).Nodup := by
    rw [handedOut.numbered]
    exact List.nodup_range
  exact numbers.of_map

theorem inRun_sublist (stage : Worker Op) : stage.inRun.Sublist stage.inHand := by
  cases stage <;> simp [Worker.inRun, Worker.inHand]

theorem HandedOut.nodup_started (handedOut : HandedOut queue) : queue.started.Nodup := by
  have taken : queue.jobs.taken.Nodup :=
    handedOut.nodup_pushed.sublist handedOut.accounted.taken_sublist
  have called : (queue.started : Multiset (Job Op)) ≤ queue.jobs.taken := by
    rw [handedOut.runs, handedOut.hands]
    refine add_le_add_right ?_ _
    exact (List.Sublist.flatMap_right _ fun stage _ => inRun_sublist stage).subperm
  exact Multiset.coe_nodup.mp (Multiset.nodup_of_le called taken)

theorem mem_inRun {stage : Worker Op} {job : Job Op} : job ∈ stage.inRun ↔ stage = .running job := by
  cases stage <;> simp [Worker.inRun, eq_comm]

theorem HandedOut.placed (handedOut : HandedOut queue) : Placed queue := by
  have total := handedOut.total
  have nodup : (Ledger.total queue.ledger).Nodup := by
    rw [total]
    exact handedOut.nodup_pushed
  constructor
  · exact handedOut.answered.perm
  · intro job pushed
    exact Ledger.existsUnique_place nodup (total ▸ pushed)
  · exact Ledger.nodup_place nodup
  · intro place job here
    have found := Ledger.mem_total.mpr ⟨place, here⟩
    rw [total] at found
    exact found
  · exact handedOut.accounted.taken_sublist
  · exact handedOut.nodup_started
  · intro job
    have found := congrArg (job ∈ ·) handedOut.runs
    simp only [Multiset.mem_add, Multiset.mem_coe, mem_held, mem_inRun] at found
    rw [found]
    apply or_congr_right
    constructor
    · rintro ⟨stage, member, rfl⟩
      exact List.mem_iff_getElem?.mp member
    · rintro ⟨index, running⟩
      exact ⟨_, List.mem_of_getElem? running, rfl⟩

end Places

/-- With any number of workers, each operation that was dispatched is queued, in the hands of
one worker, returned or discarded; it is taken in its turn and called at most once. -/
theorem operations_placed (reenters : Op → Bool) (threadCount : Nat) (events : List (Event Op)) :
    (dispatchQueue reenters).Always Placed (DispatchQueue.initial Op threadCount) events := by
  have always := (dispatchQueue reenters).always_of_invariant
    (DispatchQueue.step_keeps reenters next_handedOut) (initial_handedOut Op threadCount) events
  exact (dispatchQueue reenters).always_mono (fun _ => HandedOut.placed) always

end RcControl.Dispatch
