import RcControl.Data.Fifo
import RcControl.Data.Machine

namespace RcControl.Dispatch

open RcControl.Data

/-! The dispatch queue and the threads that use it.

An event is one step of one thread.  A step that has to wait for `lockMutex`, or for a
wakeup, leaves the state as it is; so does one that waits for the lock that its own thread
holds, which is for ever.  Jobs are numbered in the order their pushes took the
lock; `started` and `finished` list the operations that were called and that returned. -/

variable {Op : Type*}

structure Job (Op : Type*) where
  number : Nat
  op : Op
deriving DecidableEq, Repr

/-- Where a worker is in `dispatchThreadHandler`. -/
inductive Worker (Op : Type*) where
  | lock
  /-- In `condition.wait`, at the predicate. -/
  | test
  | asleep
  /-- In `condition.wait`, after a wakeup. -/
  | relock
  | choose
  | take
  | unlock (job : Job Op)
  | call (job : Job Op)
  | running (job : Job Op)
  | lockAgain (job : Job Op)
  /-- At the end of the block that `op` is local to. -/
  | destroy (job : Job Op)
  | loop
  | leave
  | finished
deriving DecidableEq, Repr

inductive Call (Op : Type*) where
  | dispatchCopy (op : Op)
  | dispatchMove (op : Op)
  | removePending
  | destructor
deriving DecidableEq, Repr

/-- Where a thread is in one of the calls from outside. -/
inductive Stage where
  | lock
  | act
  | unlock
  | notify
  | join (index : Nat)
  | returned
deriving DecidableEq, Repr

structure Caller (Op : Type*) where
  call : Call Op
  stage : Stage
deriving DecidableEq, Repr

inductive Owner where
  | worker (index : Nat)
  | caller (index : Nat)
deriving DecidableEq, Repr

structure DispatchQueue (Op : Type*) where
  owner : Option Owner
  jobs : Fifo (Job Op)
  quit : Bool
  workers : List (Worker Op)
  callers : List (Caller Op)
  started : List (Job Op)
  finished : List (Job Op)

inductive Event (Op : Type*) where
  /-- A thread, maybe one that is running an operation, makes a call. -/
  | call (call : Call Op)
  /-- A call takes its next step; `woken` is the worker a `notify_one` picks. -/
  | caller (index woken : Nat)
  | worker (index : Nat)
  | spuriousWakeup (index : Nat)

/-- The thread whose step an event is. -/
def Event.thread? : Event Op → Option Owner
  | .worker index => some (.worker index)
  | .caller index _ => some (.caller index)
  | .call _ | .spuriousWakeup _ => none

/-- The step of a call after the one that gives the lock back. -/
def Call.afterUnlock : Call Op → Stage
  | .dispatchCopy _ | .dispatchMove _ | .destructor => .notify
  | .removePending => .returned

def Call.afterNotify : Call Op → Stage
  | .dispatchCopy _ | .dispatchMove _ | .removePending => .returned
  | .destructor => .join 0

def Worker.wake : Worker Op → Worker Op
  | .asleep => .relock
  | stage => stage

def Worker.isAsleep : Worker Op → Bool
  | .asleep => true
  | _ => false

namespace DispatchQueue

def initial (Op : Type*) (threadCount : Nat) : DispatchQueue Op where
  owner := none
  jobs := Fifo.empty
  quit := false
  workers := List.replicate threadCount .lock
  callers := []
  started := []
  finished := []

variable (queue : DispatchQueue Op)

def setWorker (index : Nat) (stage : Worker Op) : DispatchQueue Op :=
  { queue with workers := queue.workers.set index stage }

def setCaller (index : Nat) (caller : Caller Op) : DispatchQueue Op :=
  { queue with callers := queue.callers.set index caller }

/-- The predicate of `condition.wait`. -/
def predicate : Bool := !queue.jobs.queue.isEmpty || queue.quit

def workerStep (index : Nat) : DispatchQueue Op :=
  match queue.workers[index]? with
  | none => queue
  | some .lock | some .relock =>
      if queue.owner = none then
        { queue.setWorker index .test with owner := some (.worker index) }
      else queue
  | some .test =>
      if queue.predicate then queue.setWorker index .choose
      -- The lock is given back and the worker falls asleep at once.
      else { queue.setWorker index .asleep with owner := none }
  | some .asleep => queue
  | some .choose =>
      if !queue.quit && !queue.jobs.queue.isEmpty then queue.setWorker index .take
      else queue.setWorker index .loop
  | some .take =>
      match queue.jobs.queue with
      | [] => queue
      | job :: _ => { queue.setWorker index (.unlock job) with jobs := queue.jobs.take }
  | some (.unlock job) => { queue.setWorker index (.call job) with owner := none }
  | some (.call job) =>
      { queue.setWorker index (.running job) with started := queue.started ++ [job] }
  | some (.running job) =>
      { queue.setWorker index (.lockAgain job) with finished := queue.finished ++ [job] }
  | some (.lockAgain job) =>
      if queue.owner = none then
        { queue.setWorker index (.destroy job) with owner := some (.worker index) }
      else queue
  | some (.destroy _) => queue.setWorker index .loop
  | some .loop => if queue.quit then queue.setWorker index .leave else queue.setWorker index .test
  | some .leave => { queue.setWorker index .finished with owner := none }
  | some .finished => queue

/-- What a call does under the lock. -/
def act : Call Op → DispatchQueue Op
  | .dispatchCopy op | .dispatchMove op =>
      { queue with jobs := queue.jobs.push { number := queue.jobs.pushed.length, op } }
  | .removePending => { queue with jobs := queue.jobs.clear }
  | .destructor => { queue with quit := true }

/-- `notify_one` wakes one of the workers that are asleep, if there are any. -/
def mayWake (woken : Nat) : Call Op → Bool
  | .dispatchCopy _ | .dispatchMove _ =>
      queue.workers[woken]?.any Worker.isAsleep || !queue.workers.any Worker.isAsleep
  | .removePending | .destructor => true

def notify (woken : Nat) : Call Op → DispatchQueue Op
  | .dispatchCopy _ | .dispatchMove _ =>
      { queue with workers := queue.workers.modify woken Worker.wake }
  | .removePending => queue
  | .destructor => { queue with workers := queue.workers.map Worker.wake }

def callerStep (index woken : Nat) : DispatchQueue Op :=
  match queue.callers[index]? with
  | none => queue
  | some { call, stage := .lock } =>
      if queue.owner = none then
        { queue.setCaller index { call, stage := .act } with owner := some (.caller index) }
      else queue
  | some { call, stage := .act } => (queue.act call).setCaller index { call, stage := .unlock }
  | some { call, stage := .unlock } =>
      { queue.setCaller index { call, stage := call.afterUnlock } with owner := none }
  | some { call, stage := .notify } =>
      if queue.mayWake woken call then
        (queue.notify woken call).setCaller index { call, stage := call.afterNotify }
      else queue
  | some { call, stage := .join joined } =>
      match queue.workers[joined]? with
      | none => queue.setCaller index { call, stage := .returned }
      | some .finished => queue.setCaller index { call, stage := .join (joined + 1) }
      | some _ => queue
  | some { stage := .returned, .. } => queue

def next : Event Op → DispatchQueue Op
  | .call call => { queue with callers := queue.callers ++ [{ call, stage := .lock }] }
  | .caller index woken => queue.callerStep index woken
  | .worker index => queue.workerStep index
  | .spuriousWakeup index => { queue with workers := queue.workers.modify index Worker.wake }

/-- The thread is to destroy an operation while it holds `lockMutex`, and the destructor of what
the operation has captured calls the queue: `reenters` tells of which operations that is so. -/
def deadlocked (reenters : Op → Bool) : Owner → Bool
  | .worker index =>
      match queue.workers[index]? with
      | some (.destroy job) => reenters job.op
      | _ => false
  | .caller index =>
      match queue.callers[index]? with
      | some { call := .removePending, stage := .act } => queue.jobs.queue.any (reenters ·.op)
      | _ => false

def step (reenters : Op → Bool) (event : Event Op) : DispatchQueue Op :=
  if event.thread?.any (queue.deadlocked reenters) then queue else queue.next event

variable {queue}

/-- What no step of a thread can change holds as well if threads are deadlocked. -/
theorem step_keeps {property : DispatchQueue Op → Prop} (reenters : Op → Bool)
    (kept : ∀ queue event, property queue → property (next queue event)) (queue : DispatchQueue Op)
    (event : Event Op) (holds : property queue) : property (queue.step reenters event) := by
  unfold step
  split
  · exact holds
  · exact kept queue event holds

end DispatchQueue

def dispatchQueue (reenters : Op → Bool) : Machine (DispatchQueue Op) (Event Op) Unit where
  next queue event := queue.step reenters event
  emit _ _ := ()

/-! Who owns the lock. -/

def Worker.owns : Worker Op → Bool
  | .test | .choose | .take | .unlock _ | .destroy _ | .loop | .leave => true
  | .lock | .asleep | .relock | .call _ | .running _ | .lockAgain _ | .finished => false

def Caller.owns (caller : Caller Op) : Bool :=
  match caller.stage with
  | .act | .unlock => true
  | .lock | .notify | .join _ | .returned => false

def DispatchQueue.inside (queue : DispatchQueue Op) : Owner → Bool
  | .worker index => queue.workers[index]?.any Worker.owns
  | .caller index => queue.callers[index]?.any Caller.owns

/-- A thread inside the code that the lock protects owns the lock. -/
def Exclusive (queue : DispatchQueue Op) : Prop :=
  ∀ thread, queue.inside thread = true → queue.owner = some thread

section Exclusion

variable {queue after : DispatchQueue Op} {thread : Owner} {index : Nat}

theorem Exclusive.only (exclusive : Exclusive queue) {other : Owner}
    (first : queue.inside thread = true) (second : queue.inside other = true) : other = thread :=
  Option.some.inj ((exclusive other second).symm.trans (exclusive thread first))

theorem Exclusive.none_inside (exclusive : Exclusive queue) (free : queue.owner = none) :
    queue.inside thread = false := by
  by_contra inside
  rw [exclusive thread (Bool.not_eq_false _ ▸ inside)] at free
  cases free

/-- The other threads stay where they are, or at least come no further in. -/
def Alone (queue after : DispatchQueue Op) (thread : Owner) : Prop :=
  ∀ other, other ≠ thread → after.inside other = true → queue.inside other = true

theorem Exclusive.enter (exclusive : Exclusive queue) (alone : Alone queue after thread)
    (free : queue.owner = none) (taken : after.owner = some thread) : Exclusive after := by
  intro other inside
  by_cases same : other = thread
  · rw [same, taken]
  · have earlier := alone other same inside
    rw [exclusive.none_inside free] at earlier
    cases earlier

theorem Exclusive.stay (exclusive : Exclusive queue) (alone : Alone queue after thread)
    (inside : queue.inside thread = true) (kept : after.owner = queue.owner) : Exclusive after := by
  intro other insideAfter
  rw [kept]
  by_cases same : other = thread
  · rw [same]
    exact exclusive thread inside
  · exact exclusive other (alone other same insideAfter)

theorem Exclusive.exit (exclusive : Exclusive queue) (alone : Alone queue after thread)
    (inside : queue.inside thread = true) (outside : after.inside thread = false) :
    Exclusive after := by
  intro other insideAfter
  by_cases same : other = thread
  · rw [same, outside] at insideAfter
    cases insideAfter
  · exact absurd (exclusive.only inside (alone other same insideAfter)) same

theorem Exclusive.outside (exclusive : Exclusive queue) (alone : Alone queue after thread)
    (outside : after.inside thread = false) (kept : after.owner = queue.owner) : Exclusive after := by
  intro other inside
  by_cases same : other = thread
  · rw [same, outside] at inside
    cases inside
  · rw [kept]
    exact exclusive other (alone other same inside)

end Exclusion

end RcControl.Dispatch
