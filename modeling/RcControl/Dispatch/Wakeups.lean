import RcControl.Dispatch.Order

namespace RcControl.Dispatch

open RcControl.Data

/-! No wakeup is lost, with any number of workers.

A dispatch notifies after it has given the lock back.  Until then it owes a wakeup, and
afterwards some worker is awake that has yet to look at the queue under the lock. -/

variable {Op : Type*} {queue after : DispatchQueue Op} {index woken : Nat}

def Call.dispatches : Call Op → Bool
  | .dispatchCopy _ | .dispatchMove _ => true
  | .removePending | .destructor => false

/-- The operation is pushed, and the `notify_one` for it is still to come. -/
def Caller.owesWakeup (caller : Caller Op) : Bool :=
  caller.call.dispatches &&
    match caller.stage with
    | .unlock | .notify => true
    | .lock | .act | .join _ | .returned => false

/-- The destructor has made its `notify_all`. -/
def Caller.joins (caller : Caller Op) : Bool :=
  match caller.call, caller.stage with
  | .destructor, .join _ | .destructor, .returned => true
  | _, _ => false

def DispatchQueue.joining (queue : DispatchQueue Op) : Bool :=
  queue.callers.any Caller.joins

structure Alert (queue : DispatchQueue Op) : Prop where
  /-- Operations wait, every worker sleeps and no dispatch is still to notify: never. -/
  noneLost : ¬ (queue.jobs.queue ≠ [] ∧ queue.quit = false ∧
    (∀ stage ∈ queue.workers, stage = .asleep ∨ stage = .finished) ∧
    ∀ caller ∈ queue.callers, caller.owesWakeup = false)
  allAwake : queue.joining = true → Worker.asleep ∉ queue.workers

/-- Once the destructor has notified, no step of any thread takes a worker further from
its end. -/
def NoSetback (queue after : DispatchQueue Op) : Prop :=
  queue.joining = true → ∀ (index : Nat) (stage : Worker Op), queue.workers[index]? = some stage →
    ∃ next, after.workers[index]? = some next ∧ next.toFinish ≤ stage.toFinish

section Wake

theorem wake_ne_asleep (stage : Worker Op) : stage.wake ≠ .asleep := by
  cases stage <;> simp [Worker.wake]

theorem wake_eq_of_awake {stage : Worker Op} (awake : stage ≠ .asleep) : stage.wake = stage := by
  cases stage <;> first | rfl | exact absurd rfl awake

theorem mem_modify_wake {workers : List (Worker Op)} {stage : Worker Op}
    (member : stage ∈ workers.modify woken Worker.wake) :
    ∃ old ∈ workers, stage = old ∨ stage = old.wake := by
  obtain ⟨position, found⟩ := List.mem_iff_getElem?.mp member
  rw [List.getElem?_modify, Option.map_eq_map, Option.map_eq_some_iff] at found
  obtain ⟨old, here, rfl⟩ := found
  use old, List.mem_of_getElem? here
  split
  · exact .inr rfl
  · exact .inl rfl

theorem mem_notify {call : Call Op} {stage : Worker Op}
    (member : stage ∈ (queue.notify woken call).workers) :
    ∃ old ∈ queue.workers, stage = old ∨ stage = old.wake := by
  cases call with
  | dispatchCopy op | dispatchMove op => exact mem_modify_wake member
  | removePending => exact ⟨stage, member, .inl rfl⟩
  | destructor =>
      obtain ⟨old, here, rfl⟩ := List.mem_map.mp member
      exact ⟨old, here, .inr rfl⟩

theorem notify_staffed (staffed : queue.workers ≠ []) (call : Call Op) :
    (queue.notify woken call).workers ≠ [] := by
  have some_worker := List.length_pos_iff.mpr staffed
  apply List.length_pos_iff.mp
  cases call <;> simpa [DispatchQueue.notify] using some_worker

/-- A wakeup puts no worker to sleep and ends none. -/
theorem kept_by_wake {stage old : Worker Op} (same : stage = old ∨ stage = old.wake) :
    (stage = .asleep → old = .asleep) ∧ (stage = .finished → old = .finished) ∧
      (stage = .leave → old = .leave) ∧ (stage = .take → old = .take) := by
  rcases same with rfl | rfl
  · simp
  · cases old <;> simp [Worker.wake]

/-- Where a `notify_one` may be made, it leaves a worker that is awake. -/
theorem notify_wakes {call : Call Op} (dispatches : call.dispatches = true)
    (wakes : queue.mayWake woken call = true) (staffed : queue.workers ≠ [])
    (running : ∀ stage ∈ queue.workers, stage ≠ .finished) :
    ∃ stage ∈ (queue.notify woken call).workers, stage ≠ .asleep ∧ stage ≠ .finished := by
  have workers : (queue.notify woken call).workers = queue.workers.modify woken Worker.wake := by
    cases call <;> first | rfl | cases dispatches
  have choice : (queue.workers[woken]?.any Worker.isAsleep || !queue.workers.any Worker.isAsleep) =
      true := by
    cases call <;> first | exact wakes | cases dispatches
  rw [workers]
  rcases Bool.or_eq_true_iff.mp choice with sleeper | none_asleep
  · cases found : queue.workers[woken]? with
    | none =>
        rw [found] at sleeper
        cases sleeper
    | some stage =>
        have woke : (queue.workers.modify woken Worker.wake)[woken]? = some stage.wake := by
          simp [found]
        have continues : stage.wake ≠ .finished := by
          have member := List.mem_of_getElem? found
          exact fun ended => running stage member ((kept_by_wake (.inr rfl)).2.1 ended)
        exact ⟨stage.wake, List.mem_of_getElem? woke, wake_ne_asleep stage, continues⟩
  · obtain ⟨stage, rest, whole⟩ := List.exists_cons_of_ne_nil staffed
    have member : stage ∈ queue.workers := by rw [whole]; exact List.mem_cons_self
    have awake : stage ≠ .asleep := by
      rintro rfl
      have sleeper : queue.workers.any Worker.isAsleep = true := List.any_eq_true.mpr ⟨_, member, rfl⟩
      rw [sleeper] at none_asleep
      cases none_asleep
    have kept : (queue.workers.modify woken Worker.wake)[0]? = some stage := by
      rw [List.getElem?_modify, whole]
      split <;> simp [wake_eq_of_awake awake]
    exact ⟨stage, List.mem_of_getElem? kept, awake, running stage member⟩

end Wake

/-- Where operations wait, a worker is awake or a dispatch is still to notify. -/
def Watched (queue : DispatchQueue Op) : Prop :=
  queue.jobs.queue ≠ [] → queue.quit = false →
    (∃ stage ∈ queue.workers, stage ≠ .asleep ∧ stage ≠ .finished) ∨
      ∃ caller ∈ queue.callers, caller.owesWakeup = true

structure Attended (queue : DispatchQueue Op) : Prop where
  exclusive : Exclusive queue
  held : Held queue
  staffed : queue.workers ≠ []
  staying : queue.quit = false → ∀ stage ∈ queue.workers, stage ≠ .leave ∧ stage ≠ .finished
  chosen : Worker.take ∈ queue.workers → queue.quit = false
  watched : Watched queue
  answered : Answered queue
  awake : queue.joining = true → Worker.asleep ∉ queue.workers

theorem Attended.quit_of_joining (attended : Attended queue) (joining : queue.joining = true) :
    queue.quit = true := by
  obtain ⟨⟨call, stage⟩, member, joins⟩ := List.any_eq_true.mp joining
  have quits := attended.answered.quits _ member
  cases call with
  | dispatchCopy op | dispatchMove op | removePending => cases joins
  | destructor => cases stage <;> simp [Caller.joins, Caller.Quits] at joins quits <;> exact quits

section WorkerStep

variable {stage next : Worker Op}

theorem WorkerMove.watched (move : WorkerMove queue after index stage next)
    (found : queue.workers[index]? = some stage) (attended : Attended queue) : Watched after := by
  intro some_job runs
  rw [move.quit] at runs
  have here : next ∈ after.workers := by
    rw [move.workers]
    exact List.mem_of_getElem? (getElem?_set_found found next)
  have awake : next ≠ .asleep := by
    intro sleeps
    have idle := (Bool.or_eq_false_iff.mp (move.sleeps sleeps)).1
    have empty : queue.jobs.queue = [] := by simpa using idle
    rcases move.jobs with same | ⟨-, job, rest, head, -⟩
    · rw [same] at some_job
      exact some_job empty
    · rw [empty] at head
      cases head
  have continues : next ≠ .finished := fun ended =>
    (attended.staying runs stage (List.mem_of_getElem? found)).1 (move.finishes ended)
  exact .inl ⟨next, here, awake, continues⟩

theorem WorkerMove.staying (move : WorkerMove queue after index stage next)
    (found : queue.workers[index]? = some stage) (attended : Attended queue) :
    after.quit = false → ∀ stage ∈ after.workers, stage ≠ .leave ∧ stage ≠ .finished := by
  intro runs other member
  rw [move.quit] at runs
  rw [move.workers] at member
  rcases List.mem_or_eq_of_mem_set member with old | rfl
  · exact attended.staying runs other old
  · constructor
    · intro leaves
      rw [move.leaves leaves] at runs
      cases runs
    · intro ended
      exact (attended.staying runs stage (List.mem_of_getElem? found)).1 (move.finishes ended)

theorem WorkerMove.chosen (move : WorkerMove queue after index stage next)
    (attended : Attended queue) : Worker.take ∈ after.workers → after.quit = false := by
  intro member
  rw [move.quit]
  rw [move.workers] at member
  rcases List.mem_or_eq_of_mem_set member with old | takes
  · exact attended.chosen old
  · exact move.takes takes.symm

theorem WorkerMove.awake (move : WorkerMove queue after index stage next)
    (attended : Attended queue) : after.joining = true → Worker.asleep ∉ after.workers := by
  intro joining member
  rw [DispatchQueue.joining, move.callers] at joining
  rw [move.workers] at member
  rcases List.mem_or_eq_of_mem_set member with old | sleeps
  · exact attended.awake joining old
  · have runs := (Bool.or_eq_false_iff.mp (move.sleeps sleeps.symm)).2
    rw [attended.quit_of_joining joining] at runs
    cases runs

theorem workerStep_attended (attended : Attended queue) (index : Nat) :
    Attended (queue.workerStep index) := by
  cases found : queue.workers[index]? with
  | none =>
      simp only [DispatchQueue.workerStep, found]
      exact attended
  | some stage =>
      rcases workerStep_cases found with ⟨same, -⟩ | ⟨next, move⟩
      · rw [same]
        exact attended
      · exact
          { exclusive := workerStep_exclusive attended.exclusive index
            held := workerStep_held attended.held index
            staffed := by rw [move.workers]; simpa using attended.staffed
            staying := move.staying found attended
            chosen := move.chosen attended
            watched := move.watched found attended
            answered := next_answered queue (.worker index) attended.answered
            awake := move.awake attended }

end WorkerStep

section CallerStep

variable {call : Call Op} {stage : Stage} {caller next : Caller Op}

theorem joining_set (moved : after.callers = queue.callers.set index next)
    (joining : after.joining = true) : next.joins = true ∨ queue.joining = true := by
  rw [DispatchQueue.joining, moved] at joining
  obtain ⟨other, member, joins⟩ := List.any_eq_true.mp joining
  rcases List.mem_or_eq_of_mem_set member with old | rfl
  · exact .inr (List.any_eq_true.mpr ⟨other, old, joins⟩)
  · exact .inl joins

theorem owes_set (found : queue.callers[index]? = some caller)
    (moved : after.callers = queue.callers.set index next)
    (keeps : caller.owesWakeup = true → next.owesWakeup = true)
    (owes : ∃ caller ∈ queue.callers, caller.owesWakeup = true) :
    ∃ caller ∈ after.callers, caller.owesWakeup = true := by
  obtain ⟨other, member, owes⟩ := owes
  rw [moved]
  obtain ⟨position, here⟩ := List.mem_iff_getElem?.mp member
  by_cases same : index = position
  · subst same
    obtain rfl : caller = other := Option.some.inj (found.symm.trans here)
    exact ⟨next, List.mem_of_getElem? (getElem?_set_found found next), keeps owes⟩
  · rw [← List.getElem?_set_ne same] at here
    exact ⟨other, List.mem_of_getElem? here, owes⟩

theorem Watched.set (watched : Watched queue) (found : queue.callers[index]? = some caller)
    (moved : after.callers = queue.callers.set index next) (jobs : after.jobs = queue.jobs)
    (quit : after.quit = queue.quit) (workers : after.workers = queue.workers)
    (keeps : caller.owesWakeup = true → next.owesWakeup = true) : Watched after := by
  intro some_job runs
  rw [jobs] at some_job
  rw [quit] at runs
  rw [workers]
  rcases watched some_job runs with awake | owes
  · exact .inl awake
  · exact .inr (owes_set found moved keeps owes)

/-- A push leaves a dispatch that has yet to notify. -/
theorem act_watched (found : queue.callers[index]? = some ⟨call, .act⟩) :
    Watched ((queue.act call).setCaller index ⟨call, .unlock⟩) := by
  have owing (dispatches : call.dispatches = true) :
      Watched ((queue.act call).setCaller index ⟨call, .unlock⟩) := by
    intro _ _
    right
    use ⟨call, .unlock⟩
    constructor
    · rw [act_moved]
      exact List.mem_of_getElem? (getElem?_set_found found _)
    · simp [Caller.owesWakeup, dispatches]
  cases call with
  | dispatchCopy op | dispatchMove op => exact owing rfl
  | removePending => exact fun some_job => absurd rfl some_job
  | destructor =>
      intro _ runs
      cases runs

theorem CallerMove.watched (move : CallerMove queue index woken call stage after)
    (found : queue.callers[index]? = some ⟨call, stage⟩) (attended : Attended queue) :
    Watched after := by
  cases move with
  | lock free =>
      exact attended.watched.set found rfl rfl rfl rfl (by simp [Caller.owesWakeup])
  | act => exact act_watched found
  | unlock =>
      exact attended.watched.set found rfl rfl rfl rfl
        (by cases call <;> simp [Caller.owesWakeup, Call.dispatches, Call.afterUnlock])
  | join joined =>
      exact attended.watched.set found rfl rfl rfl rfl (by simp [Caller.owesWakeup])
  | joinedAll joined =>
      exact attended.watched.set found rfl rfl rfl rfl (by simp [Caller.owesWakeup])
  | notify wakes =>
      obtain ⟨-, -, -, quit⟩ := notify_frame queue woken call
      cases dispatches : call.dispatches with
      | true =>
          intro _ runs
          have running (stage) (member : stage ∈ queue.workers) : stage ≠ .finished :=
            (attended.staying (quit.symm.trans runs) stage member).2
          exact .inl (notify_wakes dispatches wakes attended.staffed running)
      | false =>
          cases call with
          | dispatchCopy op | dispatchMove op => cases dispatches
          | removePending => exact attended.watched.set found rfl rfl rfl rfl (by simp [Caller.owesWakeup, Call.dispatches])
          | destructor =>
              intro _ runs
              have quits := attended.answered.quits _ (List.mem_of_getElem? found) rfl
              have set : queue.quit = true := by simpa using quits
              rw [← quit] at set
              exact absurd (set.symm.trans runs) (by decide)

theorem CallerMove.awake (move : CallerMove queue index woken call stage after)
    (found : queue.callers[index]? = some ⟨call, stage⟩) (attended : Attended queue) :
    after.joining = true → Worker.asleep ∉ after.workers := by
  have joins_before (joins : Caller.joins ⟨call, stage⟩ = true) : queue.joining = true :=
    List.any_eq_true.mpr ⟨_, List.mem_of_getElem? found, joins⟩
  intro joining
  cases move with
  | lock free =>
      have before := (joining_set rfl joining).resolve_left (by cases call <;> simp [Caller.joins])
      exact attended.awake before
  | act =>
      have moved := act_moved queue call index ⟨call, .unlock⟩
      have before := (joining_set moved joining).resolve_left (by cases call <;> simp [Caller.joins])
      change Worker.asleep ∉ (queue.act call).workers
      rw [act_workers]
      exact attended.awake before
  | unlock =>
      have before := (joining_set rfl joining).resolve_left
        (by cases call <;> simp [Caller.joins, Call.afterUnlock])
      exact attended.awake before
  | notify wakes =>
      have moved := notify_moved queue woken call index ⟨call, call.afterNotify⟩
      intro asleep
      rcases joining_set moved joining with joins | before
      · cases call with
        | dispatchCopy op | dispatchMove op | removePending => cases joins
        | destructor =>
            obtain ⟨old, -, sleeps⟩ := List.mem_map.mp asleep
            exact wake_ne_asleep old sleeps
      · obtain ⟨old, member, same⟩ := mem_notify asleep
        obtain rfl := (kept_by_wake same).1 rfl
        exact attended.awake before member
  | join joined =>
      rcases joining_set rfl joining with joins | before
      · exact attended.awake (joins_before (by cases call <;> first | rfl | cases joins))
      · exact attended.awake before
  | joinedAll joined =>
      rcases joining_set rfl joining with joins | before
      · exact attended.awake (joins_before (by cases call <;> first | rfl | cases joins))
      · exact attended.awake before

/-- But for wakeups, a call leaves the workers as they are. -/
theorem CallerMove.workers (move : CallerMove queue index woken call stage after) :
    after.workers = queue.workers ∨ after.workers = (queue.notify woken call).workers := by
  cases move with
  | act => exact .inl (act_workers call)
  | notify wakes => exact .inr rfl
  | lock free => exact .inl rfl
  | unlock | join _ | joinedAll _ => exact .inl rfl

theorem CallerMove.mem_workers (move : CallerMove queue index woken call stage after)
    {worker : Worker Op} (member : worker ∈ after.workers) :
    ∃ old ∈ queue.workers, worker = old ∨ worker = old.wake := by
  rcases move.workers with same | notified
  · exact ⟨worker, same ▸ member, .inl rfl⟩
  · exact mem_notify (notified ▸ member)

/-- Only a destructor inside the lock changes `quit`. -/
theorem CallerMove.quit (move : CallerMove queue index woken call stage after) :
    after.quit = queue.quit ∨ stage = .act ∧ after.quit = true := by
  cases move with
  | act =>
      cases call with
      | dispatchCopy op | dispatchMove op | removePending => exact .inl rfl
      | destructor => exact .inr ⟨rfl, rfl⟩
  | notify wakes => exact .inl (notify_frame queue woken call).2.2.2
  | lock free => exact .inl rfl
  | unlock | join _ | joinedAll _ => exact .inl rfl

theorem CallerMove.staying (move : CallerMove queue index woken call stage after)
    (attended : Attended queue) :
    after.quit = false → ∀ stage ∈ after.workers, stage ≠ .leave ∧ stage ≠ .finished := by
  intro runs worker member
  obtain ⟨old, before, same⟩ := move.mem_workers member
  obtain ⟨-, ended, leaves, -⟩ := kept_by_wake same
  have ran : queue.quit = false := by
    rcases move.quit with kept | ⟨-, set⟩
    · rw [← kept, runs]
    · rw [set] at runs
      cases runs
  obtain ⟨notLeaving, notFinished⟩ := attended.staying ran old before
  exact ⟨fun here => notLeaving (leaves here), fun here => notFinished (ended here)⟩

theorem CallerMove.chosen (move : CallerMove queue index woken call stage after)
    (found : queue.callers[index]? = some ⟨call, stage⟩) (attended : Attended queue) :
    Worker.take ∈ after.workers → after.quit = false := by
  intro member
  obtain ⟨old, before, same⟩ := move.mem_workers member
  obtain rfl := (kept_by_wake same).2.2.2 rfl
  rcases move.quit with kept | ⟨acts, -⟩
  · rw [kept]
    exact attended.chosen before
  · -- The worker and the call would both be inside the lock.
    subst acts
    obtain ⟨position, here⟩ := List.mem_iff_getElem?.mp before
    have together := attended.exclusive.only (inside_worker here) (inside_caller found)
    cases together

theorem callerStep_attended (attended : Attended queue) (index woken : Nat) :
    Attended (queue.callerStep index woken) := by
  rcases callerStep_cases queue index woken with same | ⟨call, stage, found, move⟩
  · rw [same]
    exact attended
  · have staffed : (queue.callerStep index woken).workers ≠ [] := by
      rcases move.workers with same | notified
      · rw [same]
        exact attended.staffed
      · rw [notified]
        exact notify_staffed attended.staffed call
    exact
      { exclusive := callerStep_exclusive attended.exclusive index woken
        held := callerStep_held attended.held index woken
        staffed := staffed
        staying := move.staying attended
        chosen := move.chosen found attended
        watched := move.watched found attended
        answered := next_answered queue (.caller index woken) attended.answered
        awake := move.awake found attended }

end CallerStep

section Run

theorem wakeup_attended (attended : Attended queue) (index : Nat) :
    Attended (queue.next (.spuriousWakeup index)) := by
  have workers {stage : Worker Op} (member : stage ∈ (queue.next (.spuriousWakeup index)).workers) :
      ∃ old ∈ queue.workers, stage = old ∨ stage = old.wake := mem_modify_wake member
  constructor
  case exclusive => exact next_exclusive queue _ attended.exclusive
  case held => exact next_held queue _ attended.held
  case staffed => simpa [DispatchQueue.next, List.modify_eq_nil_iff] using attended.staffed
  case staying =>
    intro runs stage member
    obtain ⟨old, before, same⟩ := workers member
    obtain ⟨-, ended, leaves, -⟩ := kept_by_wake same
    obtain ⟨notLeaving, notFinished⟩ := attended.staying runs old before
    exact ⟨fun here => notLeaving (leaves here), fun here => notFinished (ended here)⟩
  case chosen =>
    intro member
    obtain ⟨old, before, same⟩ := workers member
    obtain rfl := (kept_by_wake same).2.2.2 rfl
    exact attended.chosen before
  case watched =>
    intro some_job runs
    rcases attended.watched some_job runs with ⟨stage, member, awake, continues⟩ | owes
    · left
      obtain ⟨position, here⟩ := List.mem_iff_getElem?.mp member
      use stage
      have kept : (queue.workers.modify index Worker.wake)[position]? = some stage := by
        rw [List.getElem?_modify, here]
        split <;> simp [wake_eq_of_awake awake]
      exact ⟨List.mem_of_getElem? kept, awake, continues⟩
    · exact .inr owes
  case answered => exact next_answered queue _ attended.answered
  case awake =>
    intro joining member
    obtain ⟨old, before, same⟩ := workers member
    obtain rfl := (kept_by_wake same).1 rfl
    exact attended.awake joining before

theorem call_attended (attended : Attended queue) (call : Call Op) :
    Attended (queue.next (.call call)) := by
  have joining : (queue.next (.call call)).joining = queue.joining := by
    have fresh : Caller.joins ⟨call, .lock⟩ = false := by cases call <;> rfl
    simp [DispatchQueue.joining, DispatchQueue.next, fresh]
  constructor
  case exclusive => exact next_exclusive queue _ attended.exclusive
  case held => exact next_held queue _ attended.held
  case staffed => exact attended.staffed
  case staying => exact attended.staying
  case chosen => exact attended.chosen
  case watched =>
    intro some_job runs
    rcases attended.watched some_job runs with awake | ⟨caller, member, owes⟩
    · exact .inl awake
    · exact .inr ⟨caller, List.mem_append_left _ member, owes⟩
  case answered => exact next_answered queue _ attended.answered
  case awake =>
    rw [joining]
    exact attended.awake

/-- The step lemma. -/
theorem next_attended (queue : DispatchQueue Op) (event : Event Op) (attended : Attended queue) :
    Attended (queue.next event) := by
  cases event with
  | call call => exact call_attended attended call
  | caller index woken => exact callerStep_attended attended index woken
  | worker index => exact workerStep_attended attended index
  | spuriousWakeup index => exact wakeup_attended attended index

theorem initial_attended (Op : Type*) {threadCount : Nat} (some_worker : 0 < threadCount) :
    Attended (DispatchQueue.initial Op threadCount) := by
  have all {stage : Worker Op} (member : stage ∈ (DispatchQueue.initial Op threadCount).workers) :
      stage = .lock := List.eq_of_mem_replicate member
  constructor
  case exclusive => exact initial_exclusive Op threadCount
  case held => exact initial_held Op threadCount
  case staffed => simpa [DispatchQueue.initial] using Nat.pos_iff_ne_zero.mp some_worker
  case staying =>
    intro _ stage member
    obtain rfl := all member
    simp
  case chosen => exact fun _ => rfl
  case watched => exact fun some_job => absurd rfl some_job
  case answered => exact initial_answered Op threadCount
  case awake =>
    intro joining
    cases joining

theorem Attended.alert (attended : Attended queue) : Alert queue where
  noneLost := by
    intro lost
    obtain ⟨some_job, runs, asleep, silent⟩ := lost
    rcases attended.watched some_job runs with ⟨stage, member, awake, continues⟩ | ⟨caller, member, owes⟩
    · exact (asleep stage member).elim awake continues
    · rw [silent caller member] at owes
      cases owes
  allAwake := attended.awake

theorem toFinish_wake (stage : Worker Op) : stage.wake.toFinish ≤ stage.toFinish := by
  cases stage <;> simp [Worker.wake, Worker.toFinish]

theorem getElem?_modify_wake {workers : List (Worker Op)} {stage : Worker Op} {position : Nat}
    (found : workers[position]? = some stage) (woken : Nat) :
    ∃ next, (workers.modify woken Worker.wake)[position]? = some next ∧
      next.toFinish ≤ stage.toFinish := by
  rw [List.getElem?_modify, found]
  split
  · exact ⟨stage.wake, rfl, toFinish_wake stage⟩
  · exact ⟨stage, rfl, Nat.le_refl _⟩

theorem Attended.noSetback (attended : Attended queue) (event : Event Op) :
    NoSetback queue (queue.next event) := by
  intro joining position stage found
  have quit := attended.quit_of_joining joining
  cases event with
  | call call => exact ⟨stage, found, Nat.le_refl _⟩
  | spuriousWakeup index => exact getElem?_modify_wake found index
  | caller index woken =>
      change ∃ next, (queue.callerStep index woken).workers[position]? = some next ∧ _
      rcases callerStep_cases queue index woken with same | ⟨call, _, -, move⟩
      · rw [same]
        exact ⟨stage, found, Nat.le_refl _⟩
      · rcases move.workers with same | notified
        · rw [same]
          exact ⟨stage, found, Nat.le_refl _⟩
        · rw [notified]
          cases call with
          | dispatchCopy op | dispatchMove op => exact getElem?_modify_wake found woken
          | removePending => exact ⟨stage, found, Nat.le_refl _⟩
          | destructor =>
              have woke : (queue.workers.map Worker.wake)[position]? = some stage.wake := by
                rw [List.getElem?_map, found]
                rfl
              exact ⟨stage.wake, woke, toFinish_wake stage⟩
  | worker index =>
      change ∃ next, (queue.workerStep index).workers[position]? = some next ∧ _
      cases here : queue.workers[index]? with
      | none =>
          simp only [DispatchQueue.workerStep, here]
          exact ⟨stage, found, Nat.le_refl _⟩
      | some own =>
          rcases workerStep_cases here with ⟨same, -⟩ | ⟨next, move⟩
          · rw [same]
            exact ⟨stage, found, Nat.le_refl _⟩
          · rw [move.workers]
            by_cases same : index = position
            · subst same
              obtain rfl : own = stage := Option.some.inj (here.symm.trans found)
              exact ⟨next, getElem?_set_found here next, Nat.le_of_lt (move.nears quit)⟩
            · rw [List.getElem?_set_ne same]
              exact ⟨stage, found, Nat.le_refl _⟩

end Run

/-- With any number of workers and in every interleaving, no wakeup is lost. -/
theorem wakeups_delivered (reenters : Op → Bool) {threadCount : Nat} (some_worker : 0 < threadCount)
    (events : List (Event Op)) :
    (dispatchQueue reenters).Always Alert (DispatchQueue.initial Op threadCount) events := by
  have kept := DispatchQueue.step_keeps reenters next_attended
  have always := (dispatchQueue reenters).always_of_invariant kept (initial_attended Op some_worker) events
  exact (dispatchQueue reenters).always_mono (fun _ => Attended.alert) always

end RcControl.Dispatch
