import RcControl.Dispatch.Queue

namespace RcControl.Dispatch

open RcControl.Data

/-! What one step of a thread does, said once for every invariant. -/

variable {Op : Type*} {queue after : DispatchQueue Op} {index woken : Nat}

/-- The steps of its own that a worker is away from its end, once `quit` is set. -/
def Worker.toFinish : Worker Op → Nat
  | .take => 8
  | .unlock _ => 7
  | .asleep | .call _ => 6
  | .lock | .relock | .running _ => 5
  | .test | .lockAgain _ => 4
  | .choose | .destroy _ => 3
  | .loop => 2
  | .leave => 1
  | .finished => 0

def Worker.waitsForLock : Worker Op → Bool
  | .lock | .relock | .lockAgain _ => true
  | _ => false

section Moves

/-- What a worker's step does, if it does anything. -/
structure WorkerMove (queue after : DispatchQueue Op) (index : Nat) (stage next : Worker Op) :
    Prop where
  workers : after.workers = queue.workers.set index next
  callers : after.callers = queue.callers
  quit : after.quit = queue.quit
  jobs : after.jobs = queue.jobs ∨ stage = .take ∧
    ∃ job rest, queue.jobs.queue = job :: rest ∧ after.jobs = queue.jobs.take
  owner : queue.owner = none ∧ after.owner = some (.worker index) ∧ next.owns = true ∨
    stage.owns = true ∧ after.owner = none ∧ next.owns = false ∨
    after.owner = queue.owner ∧ next.owns = stage.owns
  sleeps : next = .asleep → queue.predicate = false
  takes : next = .take → queue.quit = false
  leaves : next = .leave → queue.quit = true
  finishes : next = .finished → stage = .leave
  destroys : ∀ job, next = .destroy job → stage = .lockAgain job ∧ queue.owner = none
  nears : queue.quit = true → next.toFinish < stage.toFinish

/-- A stage that nothing special is known of when a worker gets there. -/
def Worker.ordinary : Worker Op → Bool
  | .asleep | .take | .leave | .finished | .destroy _ => false
  | _ => true

theorem WorkerMove.toOrdinary {stage next : Worker Op} (ordinary : next.ordinary = true)
    (workers : after.workers = queue.workers.set index next)
    (callers : after.callers = queue.callers) (quit : after.quit = queue.quit)
    (jobs : after.jobs = queue.jobs ∨ stage = .take ∧
      ∃ job rest, queue.jobs.queue = job :: rest ∧ after.jobs = queue.jobs.take)
    (owner : queue.owner = none ∧ after.owner = some (.worker index) ∧ next.owns = true ∨
      stage.owns = true ∧ after.owner = none ∧ next.owns = false ∨
      after.owner = queue.owner ∧ next.owns = stage.owns)
    (nears : queue.quit = true → next.toFinish < stage.toFinish) :
    WorkerMove queue after index stage next where
  workers := workers
  callers := callers
  quit := quit
  jobs := jobs
  owner := owner
  sleeps := by rintro rfl; cases ordinary
  takes := by rintro rfl; cases ordinary
  leaves := by rintro rfl; cases ordinary
  finishes := by rintro rfl; cases ordinary
  destroys := by rintro job rfl; cases ordinary
  nears := nears

/-- Why a worker's step may do nothing. -/
def DispatchQueue.Stuck (queue : DispatchQueue Op) (stage : Worker Op) : Prop :=
  stage.waitsForLock = true ∧ queue.owner ≠ none ∨ stage = .asleep ∨ stage = .finished ∨
    stage = .take ∧ queue.jobs.queue = []

theorem workerStep_cases {stage : Worker Op} (found : queue.workers[index]? = some stage) :
    queue.workerStep index = queue ∧ queue.Stuck stage ∨
      ∃ next, WorkerMove queue (queue.workerStep index) index stage next := by
  cases stage with
  | lock | relock =>
      simp only [DispatchQueue.workerStep, found]
      split
      · rename_i free
        exact .inr ⟨.test, .toOrdinary rfl rfl rfl rfl (.inl rfl) (.inl ⟨free, rfl, rfl⟩)
          fun _ => by simp [Worker.toFinish]⟩
      · rename_i taken
        exact .inl ⟨rfl, .inl ⟨rfl, taken⟩⟩
  | lockAgain job =>
      simp only [DispatchQueue.workerStep, found]
      split
      · rename_i free
        refine .inr ⟨.destroy job, rfl, rfl, rfl, .inl rfl, .inl ⟨free, rfl, rfl⟩, by simp, by simp, by simp,
          by simp, ?_, fun _ => by simp [Worker.toFinish]⟩
        rintro other same
        obtain rfl := Worker.destroy.inj same
        exact ⟨rfl, free⟩
      · rename_i taken
        exact .inl ⟨rfl, .inl ⟨rfl, taken⟩⟩
  | test =>
      simp only [DispatchQueue.workerStep, found]
      split
      · exact .inr ⟨.choose, .toOrdinary rfl rfl rfl rfl (.inl rfl) (.inr (.inr ⟨rfl, rfl⟩))
          fun _ => by simp [Worker.toFinish]⟩
      · rename_i idle
        have predicate : queue.predicate = false := Bool.not_eq_true _ ▸ idle
        have runs : queue.quit = false := (Bool.or_eq_false_iff.mp predicate).2
        exact .inr ⟨.asleep, rfl, rfl, rfl, .inl rfl, .inr (.inl ⟨rfl, rfl, rfl⟩), fun _ => predicate,
          by simp, by simp, by simp, by simp, by simp [runs]⟩
  | choose =>
      simp only [DispatchQueue.workerStep, found]
      split
      · rename_i both
        have runs : queue.quit = false := by simpa using (Bool.and_eq_true_iff.mp both).1
        exact .inr ⟨.take, rfl, rfl, rfl, .inl rfl, .inr (.inr ⟨rfl, rfl⟩), by simp, fun _ => runs, by simp,
          by simp, by simp, by simp [runs]⟩
      · exact .inr ⟨.loop, .toOrdinary rfl rfl rfl rfl (.inl rfl) (.inr (.inr ⟨rfl, rfl⟩))
          fun _ => by simp [Worker.toFinish]⟩
  | take =>
      simp only [DispatchQueue.workerStep, found]
      split
      · rename_i nothing
        exact .inl ⟨rfl, .inr (.inr (.inr ⟨rfl, nothing⟩))⟩
      · rename_i job rest head
        exact .inr ⟨.unlock job, .toOrdinary rfl rfl rfl rfl (.inr ⟨rfl, job, rest, head, rfl⟩)
          (.inr (.inr ⟨rfl, rfl⟩)) fun _ => by simp [Worker.toFinish]⟩
  | unlock job =>
      simp only [DispatchQueue.workerStep, found]
      exact .inr ⟨.call job, .toOrdinary rfl rfl rfl rfl (.inl rfl) (.inr (.inl ⟨rfl, rfl, rfl⟩))
        fun _ => by simp [Worker.toFinish]⟩
  | call job =>
      simp only [DispatchQueue.workerStep, found]
      exact .inr ⟨.running job, .toOrdinary rfl rfl rfl rfl (.inl rfl) (.inr (.inr ⟨rfl, rfl⟩))
        fun _ => by simp [Worker.toFinish]⟩
  | running job =>
      simp only [DispatchQueue.workerStep, found]
      exact .inr ⟨.lockAgain job, .toOrdinary rfl rfl rfl rfl (.inl rfl) (.inr (.inr ⟨rfl, rfl⟩))
        fun _ => by simp [Worker.toFinish]⟩
  | destroy job =>
      simp only [DispatchQueue.workerStep, found]
      exact .inr ⟨.loop, .toOrdinary rfl rfl rfl rfl (.inl rfl) (.inr (.inr ⟨rfl, rfl⟩))
        fun _ => by simp [Worker.toFinish]⟩
  | loop =>
      simp only [DispatchQueue.workerStep, found]
      split
      · rename_i quit
        exact .inr ⟨.leave, rfl, rfl, rfl, .inl rfl, .inr (.inr ⟨rfl, rfl⟩), by simp, by simp,
          fun _ => quit, by simp, by simp, fun _ => by simp [Worker.toFinish]⟩
      · rename_i runs
        exact .inr ⟨.test, .toOrdinary rfl rfl rfl rfl (.inl rfl) (.inr (.inr ⟨rfl, rfl⟩))
          fun quit => absurd quit runs⟩
  | leave =>
      simp only [DispatchQueue.workerStep, found]
      exact .inr ⟨.finished, rfl, rfl, rfl, .inl rfl, .inr (.inl ⟨rfl, rfl, rfl⟩), by simp, by simp,
        by simp, fun _ => rfl, by simp, fun _ => by simp [Worker.toFinish]⟩
  | asleep =>
      simp only [DispatchQueue.workerStep, found]
      exact .inl ⟨trivial, .inr (.inl rfl)⟩
  | finished =>
      simp only [DispatchQueue.workerStep, found]
      exact .inl ⟨trivial, .inr (.inr (.inl rfl))⟩

/-- What a step of a call does, if it does anything. -/
inductive CallerMove (queue : DispatchQueue Op) (index woken : Nat) (call : Call Op) :
    Stage → DispatchQueue Op → Prop where
  | lock (free : queue.owner = none) :
      CallerMove queue index woken call .lock
        { queue.setCaller index ⟨call, .act⟩ with owner := some (.caller index) }
  | act : CallerMove queue index woken call .act ((queue.act call).setCaller index ⟨call, .unlock⟩)
  | unlock :
      CallerMove queue index woken call .unlock
        { queue.setCaller index ⟨call, call.afterUnlock⟩ with owner := none }
  | notify (wakes : queue.mayWake woken call = true) :
      CallerMove queue index woken call .notify
        ((queue.notify woken call).setCaller index ⟨call, call.afterNotify⟩)
  | join (joined : Nat) :
      CallerMove queue index woken call (.join joined)
        (queue.setCaller index ⟨call, .join (joined + 1)⟩)
  | joinedAll (joined : Nat) :
      CallerMove queue index woken call (.join joined) (queue.setCaller index ⟨call, .returned⟩)

theorem callerStep_cases (queue : DispatchQueue Op) (index woken : Nat) :
    queue.callerStep index woken = queue ∨
      ∃ call stage, queue.callers[index]? = some ⟨call, stage⟩ ∧
        CallerMove queue index woken call stage (queue.callerStep index woken) := by
  cases found : queue.callers[index]? with
  | none =>
      simp only [DispatchQueue.callerStep, found]
      exact .inl trivial
  | some caller =>
      obtain ⟨call, stage⟩ := caller
      cases stage with
      | lock =>
          simp only [DispatchQueue.callerStep, found]
          split
          · rename_i free
            exact .inr ⟨call, .lock, rfl, .lock free⟩
          · exact .inl rfl
      | act =>
          simp only [DispatchQueue.callerStep, found]
          exact .inr ⟨call, .act, rfl, .act⟩
      | unlock =>
          simp only [DispatchQueue.callerStep, found]
          exact .inr ⟨call, .unlock, rfl, .unlock⟩
      | notify =>
          simp only [DispatchQueue.callerStep, found]
          split
          · rename_i wakes
            exact .inr ⟨call, .notify, rfl, .notify wakes⟩
          · exact .inl rfl
      | join joined =>
          simp only [DispatchQueue.callerStep, found]
          split
          · exact .inr ⟨call, .join joined, rfl, .joinedAll joined⟩
          · exact .inr ⟨call, .join joined, rfl, .join joined⟩
          · exact .inl rfl
      | returned =>
          simp only [DispatchQueue.callerStep, found]
          exact .inl trivial

end Moves

end RcControl.Dispatch
