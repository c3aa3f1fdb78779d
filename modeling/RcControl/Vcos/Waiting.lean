import RcControl.Data.Mutex
import RcControl.Vcos.EventGroup

namespace RcControl.Vcos

open RcControl.Data

/-! What the threads, the list and the timers have to do with the group.

A call takes effect for the group inside the lock: a set before it walks the list, so the
waiters it is still to wake have their answer already. -/

variable {Id : Type*}

def requestOf (bitmask op : Unsigned) : Request 32 where
  events := bitmask
  all := decide (op &&& eventFlagOpMask = vcosAnd)
  consume := decide (op &&& vcosConsume ≠ 0)

def Waiter.request (waiter : Waiter) : Request 32 := requestOf waiter.requestedEvents waiter.op

def Waiter.reply (waiter : Waiter) : Reply := .got waiter.returnStatus waiter.actualEvents

def Call.asked : Call → Asked 32
  | .set bitmask op => .change (if op = vcosOr then .raise bitmask else .keep bitmask)
  | .get bitmask op suspend => .await (requestOf bitmask op) (suspend != 0) (suspend != vcosSuspend)

def Answered.reply : Answered 32 → Reply
  | .done => .void
  | .events bits => .got .success bits
  | .late => .got .eagain 0

/-- The same call, or the same reply. -/
def Matches : Observed Id Call Reply → Observed Id (Asked 32) (Answered 32) → Prop
  | .called id call, .called other asked => id = other ∧ asked = call.asked
  | .returned id reply, .returned other answered => id = other ∧ reply = answered.reply
  | _, _ => False

/-- Between `vcos_mutex_lock` and `vcos_mutex_unlock`. -/
def Stage.inside : Stage Id → Bool
  | .setEvents _ _ | .setWalk _ _ _ | .setWake _ _ _ _ | .setConsume _ | .setUnlock | .getTest _ _ _ |
    .getUnlock _ _ | .timerSet _ | .timerStart _ | .sleepUnlock _ => true
  | _ => false

def TimerStage.inside : TimerStage Id → Bool
  | .walk _ _ _ | .unlock _ => true
  | _ => false

/-- The callback has taken the waiter out, and not yet posted. -/
def TimerStage.posts : TimerStage Id → Bool
  | .unlock (some _) | .post _ => true
  | _ => false

def EventFlags.inside (flags : EventFlags Id) : Worker Id → Bool
  | .thread id => (flags.thread id).stage.inside
  | .timer id => (flags.thread id).timer.stage.inside

def EventFlags.request (flags : EventFlags Id) (id : Id) : Request 32 := (flags.thread id).waitreq.request

section Threads

/-- A thread that is to be posted once: by a set or its timer, when its waiter is out of the list. -/
inductive Asleep (events : Unsigned) (waitreq : Waiter) (suspend : Nat) (posts limited : Bool)
    (client : Client 32) : Bool → Bool → Prop where
  | listed (unposted : suspend = 0) (quiet : posts = false) (fresh : waitreq.reply = .got .eagain 0)
      (valid : (Call.get waitreq.requestedEvents waitreq.op 0).Valid)
      (answer : client = if waitreq.request.met events then .answered (.events events) else .waiting limited) :
      Asleep events waitreq suspend posts limited client true false
  | waking (unposted : suspend = 0) (quiet : posts = false) (answer : client = .answered (.events events)) :
      Asleep events waitreq suspend posts limited client false true
  | timing (unposted : suspend = 0) (posting : posts = true) (fresh : waitreq.reply = .got .eagain 0)
      (answer : client = .answered .late) : Asleep events waitreq suspend posts limited client false false
  | posted (posted : suspend = 1) (quiet : posts = false) (answered : Answered 32)
      (answer : client = .answered answered) (reply : waitreq.reply = answered.reply) :
      Asleep events waitreq suspend posts limited client false false

/-- No one is to post the thread. -/
structure Awake (suspend : Nat) (posts listed waking : Bool) : Prop where
  unposted : suspend = 0
  quiet : posts = false
  unlisted : listed = false
  unwoken : waking = false

/-- The client has its answer, which makes this reply. -/
def Replies (client : Client 32) (reply : Reply) : Prop :=
  ∃ answered : Answered 32, client = .answered answered ∧ answered.reply = reply

/-- A get that is to be over at some time. -/
def Stage.limited : Stage Id → Bool
  | .timerSet suspend | .timerStart suspend | .sleepUnlock suspend | .sleep suspend | .woken suspend =>
      suspend != vcosSuspend
  | .timerCancel _ _ => true
  | _ => false

/-- What the client of a thread is doing. -/
def Thread.Agrees (thread : Thread Id) (events : Unsigned) (client : Client 32) (listed waking : Bool) :
    Prop :=
  let awake := Awake thread.suspend thread.timer.stage.posts listed waking
  match thread.stage with
  | .idle => awake ∧ client = .idle
  | .setLock bitmask op | .setEvents bitmask op =>
      awake ∧ (Call.set bitmask op).Valid ∧ client = .asked (Call.set bitmask op).asked
  | .setWalk _ _ _ | .setWake _ _ _ _ | .setConsume _ | .setUnlock => awake ∧ client = .answered .done
  | .getLock bitmask op suspend | .getTest bitmask op suspend =>
      awake ∧ (Call.get bitmask op suspend).Valid ∧ client = .asked (Call.get bitmask op suspend).asked
  | .getUnlock status bits | .timerCancel status bits | .timerClear status bits =>
      awake ∧ Replies client (.got status bits)
  | .timerSet suspend | .timerStart suspend | .sleepUnlock suspend | .sleep suspend =>
      suspend ≠ 0 ∧
        Asleep events thread.waitreq thread.suspend thread.timer.stage.posts (suspend != vcosSuspend) client
          listed waking
  | .woken _ => awake ∧ Replies client thread.waitreq.reply
  | .returned reply => awake ∧ Replies client reply

/-- A timer that has nothing to do. -/
structure Quiet (timer : Timer Id) : Prop where
  stage : timer.stage = .waiting
  expires : timer.expires = false
  routine : timer.routine = none

/-- The callback is looking for the waiter. -/
def TimerStage.Seeks (id : Id) : TimerStage Id → Prop
  | .expired => True
  | .lock waitreq | .walk waitreq _ _ => waitreq = id
  | _ => False

/-- The callback is through with the list. -/
def TimerStage.Passed (id : Id) : TimerStage Id → Prop
  | .unlock none | .clear => True
  | .unlock (some thread) | .post thread => thread = id
  | _ => False

/-- A timer that was set, up to where it is cancelled: while the waiter is listed, it comes. -/
inductive Ticking (id : Id) (timer : Timer Id) (listed : Bool) : Prop where
  | armed (stage : timer.stage = .waiting) (expires : timer.expires = true)
      (routine : timer.routine = some id)
  | seeking (stage : timer.stage.Seeks id) (expires : timer.expires = false)
      (routine : timer.routine = some id)
  | passed (stage : timer.stage.Passed id) (expires : timer.expires = false)
      (routine : timer.routine = some id) (unlisted : listed = false)
  | fired (stage : timer.stage = .waiting) (expires : timer.expires = false)
      (routine : timer.routine = none) (unlisted : listed = false)

def Stage.TimerAgrees (id : Id) (timer : Timer Id) (listed : Bool) : Stage Id → Prop
  | .timerSet suspend => Quiet timer ∧ suspend ≠ vcosSuspend
  | .timerStart suspend =>
      suspend ≠ vcosSuspend ∧ timer.stage = .waiting ∧ timer.expires = false ∧ timer.routine = some id
  | .sleepUnlock suspend | .sleep suspend | .woken suspend =>
      if suspend = vcosSuspend then Quiet timer else Ticking id timer listed
  | .timerCancel _ _ => Ticking id timer listed
  | .timerClear _ _ => timer.stage = .waiting ∧ timer.expires = false
  | _ => Quiet timer

end Threads

section Scenes

variable (events : Unsigned) (request : Id → Request 32) (nodes : List Id) (consumed : Unsigned)
  (waking : Option Id)

/-- A loop over the list is behind the nodes in front. -/
structure Behind (front : List Id) (prev : Option Id) (link : Link Id) : Prop where
  split : ∃ back, nodes = front ++ back
  prev : prev = front.getLast?
  link : link = LinkedList.lastOf front

/-- No set is under way. -/
structure Resting : Prop where
  unconsumed : consumed = 0
  unwoken : waking = none
  unmet : ∀ node ∈ nodes, (request node).met events = false

/-- What the owner of the lock is doing to the list. -/
def Stage.Scene : Stage Id → Prop
  | .setWalk sofar prev current =>
      consumed = sofar ∧ waking = none ∧
        ∃ front, Behind nodes front prev current ∧ ∀ node ∈ front, (request node).met events = false
  | .setWake sofar prev current waiter =>
      consumed = sofar ∧ waking = some waiter ∧
        ∃ front, Behind nodes front prev current ∧ ∀ node ∈ front, (request node).met events = false
  | .setConsume sofar =>
      consumed = sofar ∧ waking = none ∧ ∀ node ∈ nodes, (request node).met events = false
  | _ => Resting events request nodes consumed waking

def TimerStage.Scene : TimerStage Id → Prop
  | .walk waitreq prev plist =>
      Resting events request nodes consumed waking ∧
        ∃ front, Behind nodes front prev plist ∧ waitreq ∉ front
  | _ => Resting events request nodes consumed waking

def EventFlags.Scene (flags : EventFlags Id) : Prop :=
  match flags.owner with
  | none => Resting flags.events flags.request nodes consumed waking
  | some (.thread id) => (flags.thread id).stage.Scene flags.events flags.request nodes consumed waking
  | some (.timer id) => (flags.thread id).timer.stage.Scene flags.events flags.request nodes consumed waking

/-- What the waiters that a set is still to find will take away. -/
def pending : Unsigned :=
  unionOf ((nodes.filter fun node => (request node).met events).map fun node => (request node).takes)

end Scenes

/-- The list holds the nodes, and a set has taken so much away and is waking this one. -/
structure Sound [DecidableEq Id] (flags : EventFlags Id) (group : Group Id 32) (nodes : List Id)
    (consumed : Unsigned) (waking : Option Id) : Prop where
  guarded : Excludes flags.inside flags.owner
  holds : flags.waiters.Holds nodes
  nodup : nodes.Nodup
  scene : flags.Scene nodes consumed waking
  agrees : ∀ id, (flags.thread id).Agrees flags.events (group.client id) (decide (id ∈ nodes))
    (decide (waking = some id))
  timers : ∀ id, (flags.thread id).stage.TimerAgrees id (flags.thread id).timer (decide (id ∈ nodes))
  events : group.events = flags.events &&& ~~~(consumed ||| pending flags.events flags.request nodes)
  waiting : group.waiting =
    (nodes.filter fun node => !(flags.request node).met flags.events).map fun node =>
      (node, flags.request node)

end RcControl.Vcos
