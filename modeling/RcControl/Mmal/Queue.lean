import RcControl.Data.LinkedList
import RcControl.Data.Machine
import RcControl.Data.Mutex
import RcControl.Data.Slots

namespace RcControl.Mmal

open RcControl.Data

/-! `MMAL_QUEUE_T`: a linked list of buffer headers with a mutex and a semaphore.

Any number of threads call the functions of the queue, and an event is one step of one of
them: one write, one semaphore operation, or taking or giving back the lock.  A step that
has to wait leaves the state as it is. -/

variable {Header : Type*}

/-- `mmal_queue_put` adds at the back, `mmal_queue_put_back` at the front. -/
inductive Side where
  | back
  | front
deriving DecidableEq, Repr

/-- Where a thread is in one of the functions. -/
inductive Thread (Header : Type*) where
  | lock (side : Side) (buffer : Header)
  | count (side : Side) (buffer : Header)
  | link (side : Side) (buffer : Header)
  | splice (side : Side) (buffer : Header)
  | tail (side : Side) (buffer : Header)
  | post
  | unlock
  | trywait
  | wait
  | timedwait
  /-- `mmal_queue_get_core`, with the semaphore claimed. -/
  | getLock
  | getFirst
  | getNext (buffer : Header)
  | getTail (buffer : Header)
  | getCount (buffer : Header)
  | getUnlock (buffer : Header)
  | readLength
  | returned (buffer : Option Header)
  | returnedLength (length : Nat)
deriving DecidableEq, Repr

inductive Call (Header : Type*) where
  | put (buffer : Header)
  | putBack (buffer : Header)
  | get
  | wait
  | timedwait
  | length

def Call.start : Call Header → Thread Header
  | .put buffer => .lock .back buffer
  | .putBack buffer => .lock .front buffer
  | .get => .trywait
  | .wait => .wait
  | .timedwait => .timedwait
  | .length => .readLength

/-- What a function has done to the queue. -/
inductive Operation (Header : Type*) where
  | put (buffer : Header)
  | putBack (buffer : Header)
  | got (buffer : Header)
deriving DecidableEq, Repr

def Operation.puts : Operation Header → List Header
  | .put buffer | .putBack buffer => [buffer]
  | .got _ => []

def Operation.gets : Operation Header → List Header
  | .got buffer => [buffer]
  | _ => []

/-- `length` is an `unsigned int`.  `log` is the history of the operations, each one recorded
when the list has taken its new shape. -/
structure Queue (Header : Type*) where
  owner : Option Nat
  length : Nat
  list : LinkedList Header
  semaphore : Nat
  threads : List (Thread Header)
  log : List (Operation Header)

inductive Event (Header : Type*) where
  | call (call : Call Header)
  | step (thread : Nat)
  /-- The time of a timed wait is over. -/
  | timeout (thread : Nat)

namespace Queue

/-- `mmal_queue_create`. -/
def create (Header : Type*) : Queue Header where
  owner := none
  length := 0
  list := LinkedList.empty
  semaphore := 0
  threads := []
  log := []

/-- The loop of `mmal_queue_sanity_check` from a header on, with so many headers still to come.
Its `int len` counts as a `Nat` here, which it does up to 2^31 headers. -/
def sanityCheck [DecidableEq Header] (queue : Queue Header) (buffer : Option Header) :
    Nat → Option Header → Bool
  | 0, header => header.isNone
  | _ + 1, none => false
  | count + 1, some header =>
      decide (buffer ≠ some header) && queue.sanityCheck buffer count (queue.list.next header)

def goTo (queue : Queue Header) (thread : Nat) (stage : Thread Header) : Queue Header :=
  { queue with threads := queue.threads.set thread stage }

/-- `vcos_mutex_lock`. -/
def take (queue : Queue Header) (thread : Nat) (stage : Thread Header) : Queue Header :=
  if queue.owner = none then { queue.goTo thread stage with owner := some thread } else queue

variable [DecidableEq Header]

def step (queue : Queue Header) (thread : Nat) : Queue Header :=
  match queue.threads[thread]? with
  | none => queue
  | some (.lock side buffer) => queue.take thread (.count side buffer)
  | some (.count side buffer) =>
      { queue.goTo thread (.link side buffer) with length := (queue.length + 1) % 2 ^ 32 }
  | some (.link .back buffer) =>
      { queue.goTo thread (.splice .back buffer) with
        list := queue.list.store queue.list.last (some buffer) }
  | some (.splice .back buffer) =>
      { queue.goTo thread (.tail .back buffer) with list := queue.list.store (.next buffer) none }
  | some (.tail .back buffer) =>
      { queue.goTo thread .post with
        list := { queue.list with last := .next buffer }
        log := queue.log ++ [.put buffer] }
  | some (.link .front buffer) =>
      { queue.goTo thread (.splice .front buffer) with
        list := queue.list.store (.next buffer) queue.list.first }
  | some (.splice .front buffer) =>
      { queue.goTo thread (.tail .front buffer) with list := queue.list.store .first (some buffer) }
  | some (.tail .front buffer) =>
      { queue.goTo thread .post with
        list := { queue.list with
          last := if queue.list.last = .first then .next buffer else queue.list.last }
        log := queue.log ++ [.putBack buffer] }
  | some .post => { queue.goTo thread .unlock with semaphore := queue.semaphore + 1 }
  | some .unlock => { queue.goTo thread (.returned none) with owner := none }
  | some .trywait =>
      if queue.semaphore = 0 then queue.goTo thread (.returned none)
      else { queue.goTo thread .getLock with semaphore := queue.semaphore - 1 }
  | some .wait | some .timedwait =>
      if queue.semaphore = 0 then queue
      else { queue.goTo thread .getLock with semaphore := queue.semaphore - 1 }
  | some .getLock => queue.take thread .getFirst
  | some .getFirst =>
      match queue.list.first with
      -- The assertion fails here, and the next step would read through a null pointer.
      | none => queue
      | some buffer => queue.goTo thread (.getNext buffer)
  | some (.getNext buffer) =>
      { queue.goTo thread (.getTail buffer) with
        list := queue.list.store .first (queue.list.next buffer)
        log := queue.log ++ [.got buffer] }
  | some (.getTail buffer) =>
      { queue.goTo thread (.getCount buffer) with
        list := { queue.list with last := if queue.list.first = none then .first else queue.list.last } }
  | some (.getCount buffer) =>
      { queue.goTo thread (.getUnlock buffer) with length := (queue.length + (2 ^ 32 - 1)) % 2 ^ 32 }
  | some (.getUnlock buffer) => { queue.goTo thread (.returned (some buffer)) with owner := none }
  | some .readLength => queue.goTo thread (.returnedLength queue.length)
  | some (.returned _) | some (.returnedLength _) => queue

def timeout (queue : Queue Header) (thread : Nat) : Queue Header :=
  match queue.threads[thread]? with
  | some .timedwait => queue.goTo thread (.returned none)
  | _ => queue

def next (queue : Queue Header) : Event Header → Queue Header
  | .call call => { queue with threads := queue.threads ++ [call.start] }
  | .step thread => queue.step thread
  | .timeout thread => queue.timeout thread

end Queue

/-- What `vcos_assert` asks for before a step. -/
def Queue.asserts [DecidableEq Header] (queue : Queue Header) (thread : Nat) : Bool :=
  match queue.threads[thread]? with
  | some (.count _ buffer) => queue.sanityCheck (some buffer) queue.length queue.list.first
  | some .getFirst =>
      queue.sanityCheck none queue.length queue.list.first && queue.list.first.isSome
  | _ => true

def mmalQueue (Header : Type*) [DecidableEq Header] : Machine (Queue Header) (Event Header) Unit where
  next := Queue.next
  emit _ _ := ()

/-! What the queue is: a list that is added to at both ends and taken from at the front. -/

section Spec

variable [DecidableEq Header]

def Operation.apply : Operation Header → List Header → Option (List Header)
  | .put buffer, headers => some (headers ++ [buffer])
  | .putBack buffer, headers => some (buffer :: headers)
  | .got buffer, first :: headers => if first = buffer then some headers else none
  | .got _, [] => none

/-- The contents after the operations, if each buffer got was the first at its time. -/
def replay (headers : List Header) (log : List (Operation Header)) : Option (List Header) :=
  log.foldlM (fun headers operation => operation.apply headers) headers

theorem replay_append (headers : List Header) (front back : List (Operation Header)) :
    replay headers (front ++ back) = (replay headers front).bind fun headers => replay headers back :=
  List.foldlM_append

theorem replay_singleton (headers : List Header) (operation : Operation Header) :
    replay headers [operation] = operation.apply headers :=
  bind_pure (operation.apply headers)

end Spec

/-- The buffer a put has not added yet. -/
def Thread.carries : Thread Header → List Header
  | .lock _ buffer | .count _ buffer | .link _ buffer | .splice _ buffer | .tail _ buffer => [buffer]
  | _ => []

/-- The buffer a get has taken off the list. -/
def Thread.takes : Thread Header → List Header
  | .getTail buffer | .getCount buffer | .getUnlock buffer | .returned (some buffer) => [buffer]
  | _ => []

/-- The headers that are in the queue and spoken for: each getter that has claimed the
semaphore is to take one, and a put may still have to post the semaphore for its own. -/
def Thread.claims : Thread Header → Nat
  | .getLock | .getFirst | .getNext _ | .post => 1
  | _ => 0

/-- Between `vcos_mutex_lock` and `vcos_mutex_unlock`. -/
def Thread.inside : Thread Header → Bool
  | .count _ _ | .link _ _ | .splice _ _ | .tail _ _ | .post | .unlock | .getFirst | .getNext _ |
    .getTail _ | .getCount _ | .getUnlock _ => true
  | _ => false

def Queue.claimed (queue : Queue Header) : Nat := Slots.weigh Thread.claims queue.threads

/-- A caller puts a header that is not in the queue and that nobody else is putting. -/
def OwnHeader [DecidableEq Header] (queue : Queue Header) : Event Header → Prop
  | .call (.put buffer) | .call (.putBack buffer) =>
      (∀ thread ∈ queue.threads, buffer ∉ thread.carries) ∧
        ∀ headers ∈ replay [] queue.log, buffer ∉ headers
  | _ => True

instance [DecidableEq Header] (queue : Queue Header) : DecidablePred (OwnHeader queue)
  | .call (.put _) | .call (.putBack _) => inferInstanceAs (Decidable (_ ∧ _))
  | .call .get | .call .wait | .call .timedwait | .call .length | .step _ | .timeout _ => .isTrue trivial

/-- No thread claims the semaphore. -/
def NoGetter (queue : Queue Header) : Event Header → Prop
  | .step thread =>
      ∀ stage ∈ queue.threads[thread]?, stage ≠ .trywait ∧ stage ≠ .wait ∧ stage ≠ .timedwait
  | _ => True

/-- The buffers the callers have passed in. -/
def Event.passes : Event Header → List Header
  | .call (.put buffer) | .call (.putBack buffer) => [buffer]
  | _ => []

end RcControl.Mmal
