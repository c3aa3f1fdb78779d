import RcControl.Dispatch.Wakeups

namespace RcControl.Dispatch

open RcControl.Data

/-! What the joins of a destructor wait for.

A worker destroys the operation it has run while it holds the lock.  If that destruction
calls the queue, the worker waits for itself, and the join waits for the worker. -/

variable {Op : Type*} {queue after : DispatchQueue Op} {index woken : Nat} {reenters : Op → Bool}
  {thread : Owner}

/-- The steps of its own that a call is away from having given the lock back. -/
def Stage.toUnlock : Stage → Nat
  | .lock => 3
  | .act => 2
  | .unlock => 1
  | .notify | .join _ | .returned => 0

/-- The thread's next step brings it nearer: a worker to its end, a call out of the lock. -/
def DispatchQueue.GoesOn (reenters : Op → Bool) (queue : DispatchQueue Op) : Owner → Prop
  | .worker index => ∃ stage next, queue.workers[index]? = some stage ∧
      (queue.step reenters (.worker index)).workers[index]? = some next ∧ next.toFinish < stage.toFinish
  | .caller index => ∃ caller next, queue.callers[index]? = some caller ∧
      (∀ woken, (queue.step reenters (.caller index woken)).callers[index]? = some next) ∧
        next.stage.toUnlock < caller.stage.toUnlock

/-- What a worker that is to be joined waits for: an operation to return, or a thread that has
the lock and goes on.  Otherwise its next step brings it nearer its end. -/
def DispatchQueue.Ending (reenters : Op → Bool) (queue : DispatchQueue Op) (index : Nat)
    (stage : Worker Op) : Prop :=
  stage = .finished ∨ (∃ job, stage = .running job) ∨
    (stage.waitsForLock = true ∧ ∃ other, queue.owner = some other ∧ queue.GoesOn reenters other) ∨
    queue.GoesOn reenters (.worker index)

structure Wakeful (reenters : Op → Bool) (queue : DispatchQueue Op) : Prop extends Alert queue where
  joins : queue.joining = true → ∀ (index : Nat) (stage : Worker Op),
    queue.workers[index]? = some stage → queue.Ending reenters index stage

/-- The event is to take the lock for a destruction that calls the queue. -/
def DispatchQueue.locksItselfOut (reenters : Op → Bool) (queue : DispatchQueue Op) : Event Op → Bool
  | .worker index =>
      match queue.workers[index]? with
      | some (.lockAgain job) => reenters job.op
      | _ => false
  | .caller index _ =>
      match queue.callers[index]? with
      | some { call := .removePending, stage := .lock } => queue.jobs.queue.any (reenters ·.op)
      | _ => false
  | .call _ | .spuriousWakeup _ => false

/-- Once `quit` is set, nobody takes the lock for a destruction that calls the queue. -/
def Spares (reenters : Op → Bool) (queue : DispatchQueue Op) (event : Event Op) : Prop :=
  queue.quit = true → queue.owner = none → queue.locksItselfOut reenters event = false

instance (queue : DispatchQueue Op) (event : Event Op) : Decidable (Spares reenters queue event) :=
  inferInstanceAs (Decidable (_ → _))

/-- Once `quit` is set, no thread waits for itself. -/
def Free (reenters : Op → Bool) (queue : DispatchQueue Op) : Prop :=
  queue.quit = true → ∀ thread, queue.deadlocked reenters thread = false

section Free

theorem deadlocked_worker : queue.deadlocked reenters (.worker index) = true ↔
    ∃ job, queue.workers[index]? = some (.destroy job) ∧ reenters job.op = true := by
  simp only [DispatchQueue.deadlocked]
  split
  · rename_i job found
    simp [found]
  · rename_i other
    exact iff_of_false (by simp) fun ⟨job, found, _⟩ => other job found

theorem deadlocked_caller : queue.deadlocked reenters (.caller index) = true ↔
    queue.callers[index]? = some ⟨.removePending, .act⟩ ∧ queue.jobs.queue.any (reenters ·.op) = true := by
  simp only [DispatchQueue.deadlocked]
  split
  · rename_i found
    simp [found]
  · rename_i other
    exact iff_of_false (by simp) fun removing => other removing.1

/-- A thread that waits for itself has the lock. -/
theorem inside_of_deadlocked (deadlocked : queue.deadlocked reenters thread = true) :
    queue.inside thread = true := by
  cases thread with
  | worker index =>
      obtain ⟨job, found, -⟩ := deadlocked_worker.mp deadlocked
      rw [inside_worker found]
      rfl
  | caller index =>
      obtain ⟨found, -⟩ := deadlocked_caller.mp deadlocked
      rw [inside_caller found]
      rfl

/-- The thread was deadlocked before, if what it is about has not changed. -/
theorem deadlocked_kept
    (workers : ∀ (index : Nat) (job : Job Op), thread = .worker index → after.workers[index]? = some (.destroy job) →
      queue.workers[index]? = some (.destroy job))
    (callers : ∀ index, thread = .caller index → after.callers[index]? = queue.callers[index]?)
    (jobs : after.jobs.queue = queue.jobs.queue) (deadlocked : after.deadlocked reenters thread = true) :
    queue.deadlocked reenters thread = true := by
  cases thread with
  | worker index =>
      obtain ⟨job, found, calls⟩ := deadlocked_worker.mp deadlocked
      exact deadlocked_worker.mpr ⟨job, workers index job rfl found, calls⟩
  | caller index =>
      rw [deadlocked_caller, callers index rfl, jobs] at deadlocked
      exact deadlocked_caller.mpr deadlocked

theorem destroys_before_wake {stage : Worker Op} {job : Job Op} (woken : stage.wake = .destroy job) :
    stage = .destroy job := by
  cases stage <;> first | exact woken | cases woken

theorem worker_free {stage next : Worker Op} (move : WorkerMove queue after index stage next)
    (found : queue.workers[index]? = some stage) (exclusive : Exclusive queue) (free : Free reenters queue)
    (spares : Spares reenters queue (.worker index)) : Free reenters after := by
  intro quit thread
  rw [move.quit] at quit
  by_contra deadlocked
  rw [Bool.not_eq_false] at deadlocked
  by_cases own : thread = .worker index
  · subst own
    obtain ⟨job, there, calls⟩ := deadlocked_worker.mp deadlocked
    rw [move.workers, getElem?_set_found found next] at there
    obtain ⟨rfl, unlocked⟩ := move.destroys job (Option.some.inj there)
    have spared := spares quit unlocked
    simp only [DispatchQueue.locksItselfOut, found, calls, Bool.true_eq_false] at spared
  · -- Another thread is inside, so this one has not changed the queue.
    have inside := alone_worker move.workers move.callers thread own (inside_of_deadlocked deadlocked)
    have jobs : after.jobs = queue.jobs := by
      refine move.jobs.resolve_right fun ⟨takes, _⟩ => own ?_
      have here : queue.inside (.worker index) = true := by
        rw [inside_worker found, takes]
        rfl
      exact exclusive.only here inside
    have before : queue.deadlocked reenters thread = true := by
      refine deadlocked_kept ?_ (fun _ _ => by rw [move.callers]) (by rw [jobs]) deadlocked
      rintro position job rfl there
      have elsewhere : index ≠ position := fun same => own (same ▸ rfl)
      rwa [move.workers, List.getElem?_set_ne elsewhere] at there
    rw [free quit thread] at before
    cases before

theorem notified_destroys {call : Call Op} {position : Nat} {job : Job Op}
    (there : (queue.notify woken call).workers[position]? = some (.destroy job)) :
    queue.workers[position]? = some (.destroy job) := by
  cases call with
  | dispatchCopy op | dispatchMove op =>
      simp only [DispatchQueue.notify, List.getElem?_modify] at there
      split at there
      · obtain ⟨stage, found, wakes⟩ := Option.map_eq_some_iff.mp there
        rw [found, destroys_before_wake wakes]
      · simpa using there
  | removePending => exact there
  | destructor =>
      simp only [DispatchQueue.notify, List.getElem?_map] at there
      obtain ⟨stage, found, wakes⟩ := Option.map_eq_some_iff.mp there
      rw [found, destroys_before_wake wakes]

/-- A step of a call that leaves queue and `quit` alone. -/
theorem Free.moved {caller next : Caller Op} (free : Free reenters queue)
    (callers : after.callers = queue.callers.set index next) (quit : after.quit = queue.quit)
    (jobs : after.jobs = queue.jobs) (found : queue.callers[index]? = some caller)
    (workers : ∀ (position : Nat) (job : Job Op), after.workers[position]? = some (.destroy job) →
      queue.workers[position]? = some (.destroy job))
    (own : queue.quit = true → next = ⟨.removePending, .act⟩ →
      queue.jobs.queue.any (reenters ·.op) = false) : Free reenters after := by
  intro set thread
  rw [quit] at set
  by_contra deadlocked
  rw [Bool.not_eq_false] at deadlocked
  by_cases same : thread = .caller index
  · subst same
    obtain ⟨there, calls⟩ := deadlocked_caller.mp deadlocked
    rw [callers, getElem?_set_found found next] at there
    rw [jobs, own set (Option.some.inj there)] at calls
    cases calls
  · have before : queue.deadlocked reenters thread = true := by
      refine deadlocked_kept (fun position job _ => workers position job) ?_ (by rw [jobs]) deadlocked
      rintro position rfl
      have elsewhere : index ≠ position := fun here => same (here ▸ rfl)
      rw [callers, List.getElem?_set_ne elsewhere]
    rw [free set thread] at before
    cases before

theorem caller_free {call : Call Op} {stage : Stage} (move : CallerMove queue index woken call stage after)
    (found : queue.callers[index]? = some ⟨call, stage⟩) (exclusive : Exclusive queue)
    (free : Free reenters queue) (spares : Spares reenters queue (.caller index woken)) :
    Free reenters after := by
  cases move with
  | lock unlocked =>
      refine free.moved rfl rfl rfl found (fun _ _ => id) fun quit removes => ?_
      obtain ⟨rfl, -⟩ := Caller.mk.inj removes
      have spared := spares quit unlocked
      simpa only [DispatchQueue.locksItselfOut, found] using spared
  | act =>
      -- No other thread is inside, and this one is past its destructions.
      intro quit thread
      by_contra deadlocked
      rw [Bool.not_eq_false] at deadlocked
      have inside := inside_of_deadlocked deadlocked
      have moved := act_moved queue call index ⟨call, .unlock⟩
      by_cases same : thread = .caller index
      · subst same
        obtain ⟨there, -⟩ := deadlocked_caller.mp deadlocked
        rw [moved, getElem?_set_found found _] at there
        cases there
      · have workers : ((queue.act call).setCaller index ⟨call, .unlock⟩).workers = queue.workers :=
          act_workers call
        have before := alone_caller moved (fun _ => by rw [workers]) thread same inside
        exact same (exclusive.only (inside_caller found) before)
  | unlock =>
      refine free.moved rfl rfl rfl found (fun _ _ => id) fun _ removes => ?_
      cases call <;> cases removes
  | notify wakes =>
      obtain ⟨-, -, jobs, quit⟩ := notify_frame queue woken call
      refine free.moved (notify_moved queue woken call index _) quit jobs found
        (fun _ _ => notified_destroys) fun _ removes => ?_
      cases call <;> cases removes
  | join joined | joinedAll joined =>
      refine free.moved rfl rfl rfl found (fun _ _ => id) fun _ removes => ?_
      cases removes

/-- The step lemma. -/
theorem next_free (exclusive : Exclusive queue) (free : Free reenters queue) (event : Event Op)
    (spares : Spares reenters queue event) : Free reenters (queue.next event) := by
  cases event with
  | worker index =>
      cases found : queue.workers[index]? with
      | none =>
          simp only [DispatchQueue.next, DispatchQueue.workerStep, found]
          exact free
      | some stage =>
          rw [DispatchQueue.next]
          rcases workerStep_cases found with ⟨same, -⟩ | ⟨next, move⟩
          · rw [same]
            exact free
          · exact worker_free move found exclusive free spares
  | caller index woken =>
      rw [DispatchQueue.next]
      rcases callerStep_cases queue index woken with same | ⟨call, stage, found, move⟩
      · rw [same]
        exact free
      · exact caller_free move found exclusive free spares
  | spuriousWakeup position =>
      intro quit thread
      by_contra deadlocked
      rw [Bool.not_eq_false] at deadlocked
      have before : queue.deadlocked reenters thread = true := by
        refine deadlocked_kept ?_ ?_ ?_ deadlocked
        · rintro other job rfl there
          have woken : (queue.notify position (.dispatchCopy job.op)).workers[other]? =
            some (.destroy job) := there
          exact notified_destroys woken
        · exact fun _ _ => rfl
        · rfl
      rw [free quit thread] at before
      cases before
  | call call =>
      intro quit thread
      by_contra deadlocked
      rw [Bool.not_eq_false] at deadlocked
      cases thread with
      | worker position =>
          have before : queue.deadlocked reenters (.worker position) = true := deadlocked
          rw [free quit _] at before
          cases before
      | caller position =>
          obtain ⟨there, calls⟩ := deadlocked_caller.mp deadlocked
          rcases Slots.getElem?_concat_eq_some.mp there with older | ⟨-, new⟩
          · have before : queue.deadlocked reenters (.caller position) = true :=
              deadlocked_caller.mpr ⟨older, calls⟩
            rw [free quit _] at before
            cases before
          · cases new

end Free

section Joins

theorem step_of_free (free : queue.deadlocked reenters thread = false) {event : Event Op}
    (own : event.thread? = some thread) : queue.step reenters event = queue.next event := by
  rw [DispatchQueue.step, own, Option.any_some, free, if_neg Bool.false_ne_true]

/-- Once `quit` is set, the thread that has the lock goes on. -/
theorem Attended.owner_goesOn (attended : Attended queue) (quit : queue.quit = true)
    (free : Free reenters queue) (inside : queue.inside thread = true) : queue.GoesOn reenters thread := by
  have free := free quit thread
  cases thread with
  | worker index =>
      cases found : queue.workers[index]? with
      | none =>
          rw [DispatchQueue.inside, found] at inside
          cases inside
      | some stage =>
          rw [inside_worker found] at inside
          refine ⟨stage, ?_⟩
          rw [step_of_free free rfl, DispatchQueue.next]
          rcases workerStep_cases found with ⟨-, ⟨waits, -⟩ | rfl | rfl | ⟨rfl, -⟩⟩ | ⟨next, move⟩
          · cases stage <;> cases waits <;> cases inside
          · cases inside
          · cases inside
          · rw [attended.chosen (List.mem_of_getElem? found)] at quit
            cases quit
          · refine ⟨next, found, ?_, move.nears quit⟩
            rw [move.workers]
            exact getElem?_set_found found next
  | caller index =>
      cases found : queue.callers[index]? with
      | none =>
          rw [DispatchQueue.inside, found] at inside
          cases inside
      | some caller =>
          obtain ⟨call, stage⟩ := caller
          rw [inside_caller found] at inside
          have step (woken : Nat) : queue.step reenters (.caller index woken) =
              queue.callerStep index woken := step_of_free free rfl
          cases stage with
          | act =>
              refine ⟨⟨call, .act⟩, ⟨call, .unlock⟩, found, fun woken => ?_, by simp [Stage.toUnlock]⟩
              simp only [step, DispatchQueue.callerStep, found, act_moved]
              exact getElem?_set_found found _
          | unlock =>
              refine ⟨⟨call, .unlock⟩, ⟨call, call.afterUnlock⟩, found, fun woken => ?_, ?_⟩
              · simp only [step, DispatchQueue.callerStep, found]
                exact getElem?_set_found found _
              · cases call <;> simp [Call.afterUnlock, Stage.toUnlock]
          | lock | notify | join joined | returned => cases inside

theorem Attended.wakeful (attended : Attended queue) (free : Free reenters queue) :
    Wakeful reenters queue where
  toAlert := attended.alert
  joins := by
    intro joining index stage found
    have quit := attended.quit_of_joining joining
    rcases workerStep_cases found with ⟨-, waits | sleeps | ended | ⟨takes, -⟩⟩ | ⟨next, move⟩
    · obtain ⟨waits, taken⟩ := waits
      obtain ⟨other, owner⟩ := Option.ne_none_iff_exists'.mp taken
      exact .inr (.inr (.inl ⟨waits, other, owner,
        attended.owner_goesOn quit free (attended.held other owner)⟩))
    · subst sleeps
      exact absurd (List.mem_of_getElem? found) (attended.awake joining)
    · exact .inl ended
    · subst takes
      have runs := attended.chosen (List.mem_of_getElem? found)
      rw [quit] at runs
      cases runs
    · refine .inr (.inr (.inr ⟨stage, next, found, ?_, move.nears quit⟩))
      rw [step_of_free (free quit _) rfl, DispatchQueue.next, move.workers]
      exact getElem?_set_found found next

theorem Attended.step_noSetback (attended : Attended queue) (reenters : Op → Bool) (event : Event Op) :
    NoSetback queue (queue.step reenters event) := by
  unfold DispatchQueue.step
  split
  · exact fun _ _ stage found => ⟨stage, found, Nat.le_refl _⟩
  · exact attended.noSetback event

/-- No wakeup is lost; and after the destructor has notified, its joins wait for running operations
alone, as long as nobody takes the lock for a destruction that calls the queue. -/
theorem no_lost_wakeup (reenters : Op → Bool) {threadCount : Nat} (some_worker : 0 < threadCount)
    (events : List (Event Op))
    (spares : (dispatchQueue reenters).Along (Spares reenters) (DispatchQueue.initial Op threadCount)
      events) :
    (dispatchQueue reenters).Always (Wakeful reenters) (DispatchQueue.initial Op threadCount) events ∧
      (dispatchQueue reenters).Along (fun queue event => NoSetback queue (queue.step reenters event))
        (DispatchQueue.initial Op threadCount) events := by
  have attended := initial_attended Op some_worker
  have kept : ∀ queue event, Spares reenters queue event → Attended queue ∧ Free reenters queue →
      Attended ((dispatchQueue reenters).next queue event) ∧
        Free reenters ((dispatchQueue reenters).next queue event) := by
    intro queue event spares ⟨attended, free⟩
    refine ⟨DispatchQueue.step_keeps reenters next_attended queue event attended, ?_⟩
    change Free reenters (queue.step reenters event)
    unfold DispatchQueue.step
    split
    · exact free
    · exact next_free attended.exclusive free event spares
  have initial : Attended (DispatchQueue.initial Op threadCount) ∧
      Free reenters (DispatchQueue.initial Op threadCount) := ⟨attended, fun quit => by cases quit⟩
  apply And.intro
  · have always := (dispatchQueue reenters).always_of_along kept spares initial
    exact (dispatchQueue reenters).always_mono (fun _ both => both.1.wakeful both.2) always
  · have along := (dispatchQueue reenters).along_of_invariant
      (DispatchQueue.step_keeps reenters next_attended) attended events
    exact (dispatchQueue reenters).along_mono
      (fun _ event attended => attended.step_noSetback reenters event) along

/-- Of two workers one runs an operation and the other sleeps; the destructor wakes it, and both
end. -/
def shutsDown : List (Event Nat) :=
  [.worker 0, .worker 0, .worker 1, .worker 1, .call (.dispatchCopy 7)] ++ List.replicate 4 (.caller 0 0) ++
    List.replicate 6 (.worker 0) ++ .call .destructor :: List.replicate 4 (.caller 1 0) ++
    List.replicate 5 (.worker 1) ++ List.replicate 5 (.worker 0) ++ List.replicate 3 (.caller 1 0)

theorem no_lost_wakeup_shutsDown :
    (dispatchQueue fun op => op == 9).Always (Wakeful fun op => op == 9) (DispatchQueue.initial Nat 2)
        shutsDown ∧
      (dispatchQueue fun op => op == 9).Along
        (fun queue event => NoSetback queue (queue.step (fun op => op == 9) event))
        (DispatchQueue.initial Nat 2) shutsDown :=
  no_lost_wakeup (fun op => op == 9) (by decide) shutsDown (by decide)

/-- The destructor comes while the only worker runs an operation, and what that has captured
dispatches when it is destroyed. -/
def joinsDeadlocked : List (Event Nat) :=
  .call (.dispatchMove 7) :: List.replicate 4 (.caller 0 0) ++ List.replicate 6 (.worker 0) ++
    .call .destructor :: List.replicate 4 (.caller 1 0) ++ List.replicate 2 (.worker 0)

theorem not_wakeful :
    ¬ ∀ (reenters : Nat → Bool) (threadCount : Nat) (events : List (Event Nat)), 0 < threadCount →
      (dispatchQueue reenters).Always (Wakeful reenters) (DispatchQueue.initial Nat threadCount) events := by
  intro wakeful
  have last := (dispatchQueue fun _ => true).always_run (wakeful (fun _ => true) 1 joinsDeadlocked (by decide))
  have joining : ((dispatchQueue fun _ => true).run (DispatchQueue.initial Nat 1) joinsDeadlocked).joining =
      true := by decide
  have found : ((dispatchQueue fun _ => true).run (DispatchQueue.initial Nat 1) joinsDeadlocked).workers[0]? =
      some (.destroy ⟨0, 7⟩) := by decide
  have stays : (((dispatchQueue fun _ => true).run (DispatchQueue.initial Nat 1) joinsDeadlocked).step
      (fun _ => true) (.worker 0)).workers[0]? = some (.destroy ⟨0, 7⟩) := by decide
  rcases last.joins joining 0 _ found with ended | ⟨job, runs⟩ | ⟨waits, -⟩ | ⟨stage, next, here, there, nearer⟩
  · cases ended
  · cases runs
  · cases waits
  · obtain rfl := Option.some.inj (here.symm.trans found)
    obtain rfl := Option.some.inj (there.symm.trans stays)
    exact absurd nearer (Nat.lt_irrefl _)

end Joins

end RcControl.Dispatch
