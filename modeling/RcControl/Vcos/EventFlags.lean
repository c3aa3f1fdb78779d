import RcControl.Data.Machine
import RcControl.Data.TailedList

namespace RcControl.Vcos

open RcControl.Data

/-! `VCOS_EVENT_FLAGS_T`: a word of events with a mutex and a list of waiting threads.

Any number of threads call the two functions again and again.  A thread that waits has its
`VCOS_EVENT_WAITER_T` on its stack, so the list links threads.  With a timeout it sets the
timer of its thread, which is served by a thread of its own: that one holds the lock of the
timer whenever it is not waiting, also while it calls the expiration routine. -/

abbrev Unsigned := BitVec 32

def vcosOr : Unsigned := 1
def vcosAnd : Unsigned := 2
def vcosConsume : Unsigned := 4
def eventFlagOpMask : Unsigned := vcosOr ||| vcosAnd
def vcosSuspend : Unsigned := BitVec.allOnes 32

inductive Status where
  | success
  | eagain
  | einval
deriving DecidableEq, Repr

/-- `VCOS_EVENT_WAITER_T`, without the pointers to the flags, the thread and the next one. -/
structure Waiter where
  requestedEvents : Unsigned
  actualEvents : Unsigned
  op : Unsigned
  returnStatus : Status
deriving DecidableEq, Repr

inductive Call where
  | set (bitmask op : Unsigned)
  | get (bitmask op suspend : Unsigned)
deriving DecidableEq, Repr

inductive Reply where
  | void
  | got (status : Status) (bits : Unsigned)
deriving DecidableEq, Repr

variable {Id : Type*}

/-- Where a thread is in one of the functions. -/
inductive Stage (Id : Type*) where
  | idle
  | setLock (bitmask op : Unsigned)
  | setEvents (bitmask op : Unsigned)
  | setWalk (consumed : Unsigned) (prev : Option Id) (current : Link Id)
  /-- The waiter is out of the list, and the assertion comes next. -/
  | setWake (consumed : Unsigned) (prev : Option Id) (current : Link Id) (waiter : Id)
  | setConsume (consumed : Unsigned)
  | setUnlock
  | getLock (bitmask op suspend : Unsigned)
  | getTest (bitmask op suspend : Unsigned)
  | getUnlock (status : Status) (bits : Unsigned)
  /-- `_vcos_task_timer_set`, at its assertion. -/
  | timerSet (suspend : Unsigned)
  | timerStart (suspend : Unsigned)
  | sleepUnlock (suspend : Unsigned)
  | sleep (suspend : Unsigned)
  | woken (suspend : Unsigned)
  | timerCancel (status : Status) (bits : Unsigned)
  | timerClear (status : Status) (bits : Unsigned)
  | returned (reply : Reply)
deriving DecidableEq, Repr

/-- Where the thread of a timer is. -/
inductive TimerStage (Id : Type*) where
  /-- In `pthread_cond_wait` or `pthread_cond_timedwait`. -/
  | waiting
  /-- `_task_timer_expiration_routine`, at its assertion. -/
  | expired
  | lock (waitreq : Id)
  | walk (waitreq : Id) (prev : Option Id) (plist : Link Id)
  | unlock (thread : Option Id)
  | post (thread : Id)
  | clear
deriving DecidableEq, Repr

/-- `expires` is set while the timer has an expiry time, and `routine` is the argument that
`event_flags_timer_expired` is to be called with, if it is the routine. -/
structure Timer (Id : Type*) where
  stage : TimerStage Id
  expires : Bool
  routine : Option Id
deriving DecidableEq, Repr

/-- A `VCOS_THREAD_T`; `suspend` counts its semaphore. -/
structure Thread (Id : Type*) where
  stage : Stage Id
  waitreq : Waiter
  suspend : Nat
  timer : Timer Id
deriving DecidableEq, Repr

/-- Who can hold the lock. -/
inductive Worker (Id : Type*) where
  | thread (id : Id)
  | timer (id : Id)
deriving DecidableEq, Repr

structure EventFlags (Id : Type*) where
  events : Unsigned
  owner : Option (Worker Id)
  waiters : TailedList Id
  thread : Id → Thread Id

inductive Event (Id : Type*) where
  | call (id : Id) (call : Call)
  /-- A step of the thread, or of the one that serves its timer. -/
  | step (worker : Worker Id)
deriving DecidableEq

def Call.start : Call → Stage Id
  | .set bitmask op => .setLock bitmask op
  | .get bitmask op suspend => .getLock bitmask op suspend

namespace Thread

def initial (Id : Type*) : Thread Id where
  stage := .idle
  waitreq := ⟨0, 0, 0, .eagain⟩
  suspend := 0
  timer := ⟨.waiting, false, none⟩

def goTo (thread : Thread Id) (stage : Stage Id) : Thread Id := { thread with stage }

/-- `_vcos_thread_sem_post`. -/
def post (thread : Thread Id) : Thread Id := { thread with suspend := thread.suspend + 1 }

/-- What a set writes for a waiter before it posts. -/
def wake (thread : Thread Id) (events : Unsigned) : Thread Id :=
  { thread with
    waitreq := { thread.waitreq with returnStatus := .success, actualEvents := events } }

def timerGoTo (thread : Thread Id) (stage : TimerStage Id) : Thread Id :=
  { thread with timer := { thread.timer with stage } }

end Thread

/-- The test of `vcos_generic_event_flags_set` for one waiter. -/
def Waiter.satisfied (waiter : Waiter) (events : Unsigned) : Bool :=
  if waiter.op &&& vcosAnd ≠ 0 then events &&& waiter.requestedEvents == waiter.requestedEvents
  else events &&& waiter.requestedEvents != 0

/-- The test of `vcos_generic_event_flags_get`. -/
def getSatisfied (events bitmask op : Unsigned) : Bool :=
  if op &&& eventFlagOpMask = vcosAnd then events &&& bitmask == bitmask
  else if op &&& eventFlagOpMask = vcosOr then events &&& bitmask != 0
  else false

def getRc (op : Unsigned) : Status :=
  if op &&& eventFlagOpMask = vcosAnd ∨ op &&& eventFlagOpMask = vcosOr then .eagain else .einval

namespace EventFlags

/-- `vcos_generic_event_flags_create`, with all threads idle. -/
def create (Id : Type*) : EventFlags Id where
  events := 0
  owner := none
  waiters := TailedList.empty
  thread _ := Thread.initial Id

variable [DecidableEq Id] (flags : EventFlags Id) (id : Id)

def setThread (thread : Thread Id) : EventFlags Id :=
  { flags with thread := Function.update flags.thread id thread }

def goTo (stage : Stage Id) : EventFlags Id := flags.setThread id ((flags.thread id).goTo stage)

def timerGoTo (stage : TimerStage Id) : EventFlags Id :=
  flags.setThread id ((flags.thread id).timerGoTo stage)

/-- `vcos_mutex_lock`; with `none` the worker has to wait. -/
def lock (worker : Worker Id) : Option (EventFlags Id) :=
  if flags.owner = none then some { flags with owner := some worker } else none

/-- `vcos_generic_event_flags_get` inside the lock. -/
def getTest (bitmask op suspend : Unsigned) : EventFlags Id :=
  if getSatisfied flags.events bitmask op then
    { flags.goTo id (.getUnlock .success flags.events) with
      events := if op &&& vcosConsume ≠ 0 then flags.events &&& ~~~bitmask else flags.events }
  else if suspend ≠ 0 then
    { flags.setThread id { flags.thread id with
        waitreq := ⟨bitmask, 0, op, .eagain⟩
        stage := if suspend ≠ vcosSuspend then .timerSet suspend else .sleepUnlock suspend } with
      waiters := flags.waiters.append id }
  else flags.goTo id (.getUnlock (getRc op) 0)

/-- The next step of a thread; with `none` it has to wait, or has nothing to do. -/
def threadStep : Option (EventFlags Id) :=
  match (flags.thread id).stage with
  | .idle => none
  | .setLock bitmask op => (flags.goTo id (.setEvents bitmask op)).lock (.thread id)
  | .setEvents bitmask op =>
      some { flags.goTo id (if flags.waiters.head = none then .setUnlock else .setWalk 0 none .first) with
        events :=
          if op = vcosOr then flags.events ||| bitmask
          else if op = vcosAnd then flags.events &&& bitmask
          else flags.events }
  | .setWalk consumed prev current =>
      match flags.waiters.load current with
      | none => some (flags.goTo id (.setConsume consumed))
      | some waiter =>
          let waitreq := (flags.thread waiter).waitreq
          if waitreq.satisfied flags.events then
            let consumed :=
              if waitreq.op &&& vcosConsume ≠ 0 then consumed ||| waitreq.requestedEvents else consumed
            some { flags.goTo id (.setWake consumed prev current waiter) with
              waiters := flags.waiters.unlink prev current waiter }
          else some (flags.goTo id (.setWalk consumed (some waiter) (.next waiter)))
  | .setWake consumed prev current waiter =>
      let woken := ((flags.thread waiter).wake flags.events).post
      some ((flags.setThread waiter woken).goTo id (.setWalk consumed prev current))
  | .setConsume consumed =>
      some { flags.goTo id .setUnlock with events := flags.events &&& ~~~consumed }
  | .setUnlock => some { flags.goTo id (.returned .void) with owner := none }
  | .getLock bitmask op suspend => (flags.goTo id (.getTest bitmask op suspend)).lock (.thread id)
  | .getTest bitmask op suspend => some (flags.getTest id bitmask op suspend)
  | .getUnlock status bits => some { flags.goTo id (.returned (.got status bits)) with owner := none }
  | .timerSet suspend =>
      some (flags.setThread id { flags.thread id with
        timer := { (flags.thread id).timer with routine := some id }, stage := .timerStart suspend })
  | .timerStart suspend =>
      -- `vcos_timer_set` returns at once for no delay, else it takes the lock of the timer.
      if suspend = 0 then some (flags.goTo id (.sleepUnlock suspend))
      else if (flags.thread id).timer.stage = .waiting then
        some (flags.setThread id { flags.thread id with
          timer := { (flags.thread id).timer with expires := true }, stage := .sleepUnlock suspend })
      else none
  | .sleepUnlock suspend => some { flags.goTo id (.sleep suspend) with owner := none }
  | .sleep suspend =>
      if (flags.thread id).suspend = 0 then none
      else some (flags.setThread id { flags.thread id with
        suspend := (flags.thread id).suspend - 1, stage := .woken suspend })
  | .woken suspend =>
      let waitreq := (flags.thread id).waitreq
      if suspend ≠ vcosSuspend then
        some (flags.goTo id (.timerCancel waitreq.returnStatus waitreq.actualEvents))
      else some (flags.goTo id (.returned (.got waitreq.returnStatus waitreq.actualEvents)))
  | .timerCancel status bits =>
      if (flags.thread id).timer.stage = .waiting then
        some (flags.setThread id { flags.thread id with
          timer := { (flags.thread id).timer with expires := false }, stage := .timerClear status bits })
      else none
  | .timerClear status bits =>
      some (flags.setThread id { flags.thread id with
        timer := { (flags.thread id).timer with routine := none }
        stage := .returned (.got status bits) })
  | .returned _ => some (flags.goTo id .idle)

/-- The next step of the thread of a timer, which starts when its time has come. -/
def timerStep : Option (EventFlags Id) :=
  match (flags.thread id).timer.stage with
  | .waiting =>
      if (flags.thread id).timer.expires then
        some (flags.setThread id { flags.thread id with
          timer := { (flags.thread id).timer with expires := false, stage := .expired } })
      else none
  | .expired =>
      match (flags.thread id).timer.routine with
      -- The assertion fails here, and the next step would call a null pointer.
      | none => none
      | some waitreq => some (flags.timerGoTo id (.lock waitreq))
  | .lock waitreq => (flags.timerGoTo id (.walk waitreq none .first)).lock (.timer id)
  | .walk waitreq prev plist =>
      match flags.waiters.load plist with
      | none => some (flags.timerGoTo id (.unlock none))
      | some node =>
          if node = waitreq then
            some { flags.timerGoTo id (.unlock (some node)) with
              waiters := flags.waiters.unlink prev plist node }
          else some (flags.timerGoTo id (.walk waitreq (some node) (.next node)))
  | .unlock thread =>
      some { flags.timerGoTo id (thread.elim .clear .post) with owner := none }
  | .post thread =>
      some ((flags.setThread thread (flags.thread thread).post).timerGoTo id .clear)
  | .clear =>
      some (flags.setThread id { flags.thread id with
        timer := { (flags.thread id).timer with routine := none, stage := .waiting } })

def step : Worker Id → Option (EventFlags Id)
  | .thread id => flags.threadStep id
  | .timer id => flags.timerStep id

def next : Event Id → EventFlags Id
  | .call id call => if (flags.thread id).stage = .idle then flags.goTo id call.start else flags
  | .step worker => (flags.step worker).getD flags

end EventFlags

/-- What is seen of the threads: their calls, and what the calls return. -/
inductive Observed (Id Asked Answered : Type*) where
  | called (id : Id) (asked : Asked)
  | returned (id : Id) (answered : Answered)
deriving DecidableEq

def EventFlags.emit [DecidableEq Id] (flags : EventFlags Id) : Event Id → Option (Observed Id Call Reply)
  | .call id call => if (flags.thread id).stage = .idle then some (.called id call) else none
  | .step (.thread id) =>
      match (flags.thread id).stage with
      | .returned reply => some (.returned id reply)
      | _ => none
  | .step (.timer _) => none

def eventFlags (Id : Type*) [DecidableEq Id] :
    Machine (EventFlags Id) (Event Id) (Option (Observed Id Call Reply)) where
  next := EventFlags.next
  emit := EventFlags.emit

/-- The operations that `vcos_assert` lets pass. -/
def Call.Valid : Call → Prop
  | .set _ op => op = vcosOr ∨ op = vcosAnd
  | .get _ op _ => op &&& eventFlagOpMask = vcosOr ∨ op &&& eventFlagOpMask = vcosAnd

instance : DecidablePred Call.Valid
  | .set _ _ | .get _ _ _ => inferInstanceAs (Decidable (_ ∨ _))

def ValidCall (_ : EventFlags Id) : Event Id → Prop
  | .call _ call => call.Valid
  | .step _ => True

instance (flags : EventFlags Id) : DecidablePred (ValidCall flags)
  | .call _ call => inferInstanceAs (Decidable call.Valid)
  | .step _ => .isTrue trivial

section Assertions

variable [DecidableEq Id] (flags : EventFlags Id)

/-- `waiter_list_valid`. -/
def EventFlags.waiterListValid : Bool :=
  if flags.waiters.head.isSome && flags.waiters.head == flags.waiters.tail then
    (flags.waiters.head.bind flags.waiters.next).isNone
  else if flags.waiters.head.isNone then flags.waiters.tail.isNone
  else flags.waiters.tail.isSome

/-- What `vcos_assert` asks for before a step. -/
def EventFlags.asserts : Worker Id → Bool
  | .thread id =>
      match (flags.thread id).stage with
      | .setEvents bitmask op => decide (Call.set bitmask op).Valid
      | .setWake _ _ _ _ => flags.waiterListValid
      | .getTest bitmask op suspend => decide (Call.get bitmask op suspend).Valid
      | .timerSet _ => (flags.thread id).timer.routine.isNone
      | .timerStart suspend => suspend != 0
      | _ => true
  | .timer id =>
      match (flags.thread id).timer.stage with
      | .expired => (flags.thread id).timer.routine.isSome
      | .unlock _ => flags.waiterListValid
      | _ => true

/-- The thread in whose `VCOS_EVENT_WAITER_T` a link is. -/
def linkOwner : Link Id → Option Id
  | .first => none
  | .next node => some node

/-- The threads whose `VCOS_EVENT_WAITER_T` a step reads or writes, other than its own.
`waiter_list_valid` may read the one at the head. -/
def EventFlags.touches : Worker Id → List Id
  | .thread id =>
      match (flags.thread id).stage with
      | .setWalk _ _ current => (linkOwner current).toList ++ (flags.waiters.load current).toList
      | .setWake _ _ _ waiter => waiter :: flags.waiters.head.toList
      | .getTest _ _ _ => flags.waiters.tail.toList
      | _ => []
  | .timer id =>
      match (flags.thread id).timer.stage with
      | .expired => (flags.thread id).timer.routine.toList
      | .walk _ _ plist => (linkOwner plist).toList ++ (flags.waiters.load plist).toList
      | .unlock _ => flags.waiters.head.toList
      | _ => []

/-- The thread is in a get that has filled in its `VCOS_EVENT_WAITER_T` and not returned. -/
def Stage.waits : Stage Id → Bool
  | .timerSet _ | .timerStart _ | .sleepUnlock _ | .sleep _ | .woken _ | .timerCancel _ _ |
    .timerClear _ _ => true
  | _ => false

end Assertions

end RcControl.Vcos
