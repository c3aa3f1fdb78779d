import RcControl.Dispatch.Moves

namespace RcControl.Dispatch

open RcControl.Data

/-! The lock excludes: at most one thread is inside the code it protects, and only a thread
that is inside owns it. -/

variable {Op : Type*} {queue after : DispatchQueue Op} {index woken : Nat}

section Threads

theorem inside_worker {stage : Worker Op} (found : queue.workers[index]? = some stage) :
    queue.inside (.worker index) = stage.owns := by
  rw [DispatchQueue.inside, found, Option.any_some]

theorem inside_caller {caller : Caller Op} (found : queue.callers[index]? = some caller) :
    queue.inside (.caller index) = caller.owns := by
  rw [DispatchQueue.inside, found, Option.any_some]

theorem getElem?_set_found {Item : Type*} {items : List Item} {item : Item}
    (found : items[index]? = some item) (new : Item) : (items.set index new)[index]? = some new := by
  rw [List.getElem?_set_self]
  exact (List.getElem?_eq_some_iff.mp found).1

theorem outside_caller {caller next : Caller Op} (found : queue.callers[index]? = some caller)
    (moved : after.callers = queue.callers.set index next) (outside : next.owns = false) :
    after.inside (.caller index) = false := by
  rw [inside_caller (moved ▸ getElem?_set_found found next), outside]

/-- A step of one worker leaves the other threads where they are. -/
theorem alone_worker {next : Worker Op} (moved : after.workers = queue.workers.set index next)
    (callers : after.callers = queue.callers) : Alone queue after (.worker index) := by
  intro other different inside
  cases other with
  | worker position =>
      have elsewhere : index ≠ position := fun same => different (same ▸ rfl)
      rw [DispatchQueue.inside, moved, List.getElem?_set_ne elsewhere] at inside
      exact inside
  | caller position =>
      rw [DispatchQueue.inside, callers] at inside
      exact inside

theorem any_owns_wake (stage : Option (Worker Op)) :
    (stage.map Worker.wake).any Worker.owns = stage.any Worker.owns := by
  cases stage with
  | none => rfl
  | some stage => cases stage <;> rfl

theorem any_owns_modify_wake (workers : List (Worker Op)) (woken position : Nat) :
    (workers.modify woken Worker.wake)[position]?.any Worker.owns =
      workers[position]?.any Worker.owns := by
  rw [List.getElem?_modify]
  split
  · exact any_owns_wake _
  · simp

/-- A step of one call leaves the other threads where they are, but for wakeups. -/
theorem alone_caller {next : Caller Op} (moved : after.callers = queue.callers.set index next)
    (workers : ∀ position : Nat, after.workers[position]?.any Worker.owns =
      queue.workers[position]?.any Worker.owns) : Alone queue after (.caller index) := by
  intro other different inside
  cases other with
  | worker position =>
      rw [DispatchQueue.inside, workers] at inside
      exact inside
  | caller position =>
      have elsewhere : index ≠ position := fun same => different (same ▸ rfl)
      rw [DispatchQueue.inside, moved, List.getElem?_set_ne elsewhere] at inside
      exact inside

end Threads

theorem WorkerMove.exclusive {stage next : Worker Op}
    (move : WorkerMove queue after index stage next) (found : queue.workers[index]? = some stage)
    (exclusive : Exclusive queue) : Exclusive after := by
  have alone := alone_worker move.workers move.callers
  have inside := inside_worker found
  have own : after.inside (.worker index) = next.owns :=
    inside_worker (move.workers ▸ getElem?_set_found found next)
  rcases move.owner with ⟨free, entered, -⟩ | ⟨owns, -, left⟩ | ⟨same, owns⟩
  · exact exclusive.enter alone free entered
  · exact exclusive.exit alone (inside.trans owns) (own.trans left)
  · cases here : stage.owns with
    | true => exact exclusive.stay alone (inside.trans here) same
    | false => exact exclusive.outside alone (own.trans (owns.trans here)) same

theorem workerStep_exclusive (exclusive : Exclusive queue) (index : Nat) :
    Exclusive (queue.workerStep index) := by
  cases found : queue.workers[index]? with
  | none =>
      simp only [DispatchQueue.workerStep, found]
      exact exclusive
  | some stage =>
      rcases workerStep_cases found with ⟨same, -⟩ | ⟨next, move⟩
      · rw [same]
        exact exclusive
      · exact move.exclusive found exclusive

theorem act_workers (call : Call Op) : (queue.act call).workers = queue.workers := by
  cases call <;> rfl

theorem act_callers (call : Call Op) : (queue.act call).callers = queue.callers := by
  cases call <;> rfl

theorem act_owner (call : Call Op) : (queue.act call).owner = queue.owner := by
  cases call <;> rfl

theorem notify_frame (queue : DispatchQueue Op) (woken : Nat) (call : Call Op) :
    (queue.notify woken call).owner = queue.owner ∧
      (queue.notify woken call).callers = queue.callers ∧
      (queue.notify woken call).jobs = queue.jobs ∧
      (queue.notify woken call).quit = queue.quit := by
  cases call <;> exact ⟨rfl, rfl, rfl, rfl⟩

theorem act_moved (queue : DispatchQueue Op) (call : Call Op) (index : Nat) (caller : Caller Op) :
    ((queue.act call).setCaller index caller).callers = queue.callers.set index caller := by
  rw [DispatchQueue.setCaller, act_callers]

theorem notify_moved (queue : DispatchQueue Op) (woken : Nat) (call : Call Op) (index : Nat)
    (caller : Caller Op) : ((queue.notify woken call).setCaller index caller).callers =
      queue.callers.set index caller := by
  rw [DispatchQueue.setCaller, (notify_frame queue woken call).2.1]

theorem owns_afterNotify (call : Call Op) : Caller.owns ⟨call, call.afterNotify⟩ = false := by
  cases call <;> rfl

theorem notify_owns (woken : Nat) (call : Call Op) (position : Nat) :
    (queue.notify woken call).workers[position]?.any Worker.owns =
      queue.workers[position]?.any Worker.owns := by
  cases call with
  | dispatchCopy op | dispatchMove op => exact any_owns_modify_wake _ _ _
  | removePending => rfl
  | destructor =>
      simp only [DispatchQueue.notify, List.getElem?_map]
      exact any_owns_wake _

theorem CallerMove.exclusive {call : Call Op} {stage : Stage}
    (move : CallerMove queue index woken call stage after)
    (found : queue.callers[index]? = some ⟨call, stage⟩) (exclusive : Exclusive queue) :
    Exclusive after := by
  have inside := inside_caller found
  cases move with
  | lock free => exact exclusive.enter (alone_caller rfl fun _ => rfl) free rfl
  | act =>
      have alone : Alone queue ((queue.act call).setCaller index ⟨call, .unlock⟩) (.caller index) := by
        apply alone_caller (act_moved queue call index _)
        intro position
        rw [DispatchQueue.setCaller, act_workers]
      exact exclusive.stay alone inside (act_owner call)
  | unlock =>
      have outside : Caller.owns ⟨call, call.afterUnlock⟩ = false := by cases call <;> rfl
      exact exclusive.exit (alone_caller rfl fun _ => rfl) inside (outside_caller found rfl outside)
  | notify wakes =>
      obtain ⟨owner, -, -, -⟩ := notify_frame queue woken call
      have moved := notify_moved queue woken call index ⟨call, call.afterNotify⟩
      have alone := alone_caller moved fun position => notify_owns woken call position
      exact exclusive.outside alone (outside_caller found moved (owns_afterNotify call)) owner
  | join joined | joinedAll joined =>
      exact exclusive.outside (alone_caller rfl fun _ => rfl) (outside_caller found rfl rfl) rfl

theorem callerStep_exclusive (exclusive : Exclusive queue) (index woken : Nat) :
    Exclusive (queue.callerStep index woken) := by
  rcases callerStep_cases queue index woken with same | ⟨call, stage, found, move⟩
  · rw [same]
    exact exclusive
  · exact move.exclusive found exclusive

theorem next_exclusive (queue : DispatchQueue Op) (event : Event Op) (exclusive : Exclusive queue) :
    Exclusive (queue.next event) := by
  cases event with
  | call call =>
      intro thread inside
      apply exclusive thread
      cases thread with
      | worker index => exact inside
      | caller index =>
          simp only [DispatchQueue.next, DispatchQueue.inside] at inside
          by_cases older : index < queue.callers.length
          · rwa [List.getElem?_append_left older] at inside
          · rw [List.getElem?_append_right (by omega)] at inside
            cases new : index - queue.callers.length <;> simp [new, Caller.owns] at inside
  | caller index woken => exact callerStep_exclusive exclusive index woken
  | worker index => exact workerStep_exclusive exclusive index
  | spuriousWakeup woken =>
      intro thread inside
      apply exclusive thread
      cases thread with
      | worker index =>
          simp only [DispatchQueue.next, DispatchQueue.inside, any_owns_modify_wake] at inside
          exact inside
      | caller index => exact inside

theorem initial_exclusive (Op : Type*) (threadCount : Nat) :
    Exclusive (DispatchQueue.initial Op threadCount) := by
  intro thread inside
  cases thread with
  | worker index =>
      simp only [DispatchQueue.inside, DispatchQueue.initial, List.getElem?_replicate] at inside
      split at inside <;> cases inside
  | caller index => cases inside

section Held

/-- Only a thread inside the code the lock protects owns it. -/
def Held (queue : DispatchQueue Op) : Prop :=
  ∀ thread, queue.owner = some thread → queue.inside thread = true

theorem inside_after_worker {next : Worker Op} {thread : Owner}
    (moved : after.workers = queue.workers.set index next) (callers : after.callers = queue.callers)
    (different : thread ≠ .worker index) : after.inside thread = queue.inside thread := by
  cases thread with
  | worker position =>
      have elsewhere : index ≠ position := fun same => different (same ▸ rfl)
      rw [DispatchQueue.inside, moved, List.getElem?_set_ne elsewhere]
      rfl
  | caller position =>
      rw [DispatchQueue.inside, callers]
      rfl

theorem inside_after_caller {next : Caller Op} {thread : Owner}
    (moved : after.callers = queue.callers.set index next)
    (workers : ∀ position : Nat, after.workers[position]?.any Worker.owns =
      queue.workers[position]?.any Worker.owns)
    (different : thread ≠ .caller index) : after.inside thread = queue.inside thread := by
  cases thread with
  | worker position => exact workers position
  | caller position =>
      have elsewhere : index ≠ position := fun same => different (same ▸ rfl)
      rw [DispatchQueue.inside, moved, List.getElem?_set_ne elsewhere]
      rfl

theorem WorkerMove.held {stage next : Worker Op} (move : WorkerMove queue after index stage next)
    (found : queue.workers[index]? = some stage) (held : Held queue) : Held after := by
  have own : after.inside (.worker index) = next.owns :=
    inside_worker (move.workers ▸ getElem?_set_found found next)
  intro thread owner
  rcases move.owner with ⟨-, entered, owns⟩ | ⟨-, free, -⟩ | ⟨same, owns⟩
  · rw [entered] at owner
    obtain rfl := Option.some.inj owner
    rw [own, owns]
  · rw [free] at owner
    cases owner
  · rw [same] at owner
    by_cases here : thread = .worker index
    · subst here
      rw [own, owns, ← inside_worker found]
      exact held _ owner
    · rw [inside_after_worker move.workers move.callers here]
      exact held thread owner

/-- A call that stays where it is in respect of the lock. -/
theorem Held.stay {caller next : Caller Op} (held : Held queue)
    (found : queue.callers[index]? = some caller)
    (moved : after.callers = queue.callers.set index next)
    (workers : ∀ position : Nat, after.workers[position]?.any Worker.owns =
      queue.workers[position]?.any Worker.owns)
    (same : after.owner = queue.owner) (owns : next.owns = caller.owns) : Held after := by
  intro thread owner
  rw [same] at owner
  by_cases here : thread = .caller index
  · subst here
    rw [inside_caller (moved ▸ getElem?_set_found found next), owns, ← inside_caller found]
    exact held _ owner
  · rw [inside_after_caller moved workers here]
    exact held thread owner

theorem CallerMove.held {call : Call Op} {stage : Stage}
    (move : CallerMove queue index woken call stage after)
    (found : queue.callers[index]? = some ⟨call, stage⟩) (held : Held queue) : Held after := by
  cases move with
  | lock free =>
      intro thread owner
      obtain rfl := Option.some.inj owner
      rw [inside_caller (getElem?_set_found found _)]
      rfl
  | act =>
      have workers : ((queue.act call).setCaller index ⟨call, .unlock⟩).workers = queue.workers :=
        act_workers call
      exact held.stay found (act_moved queue call index _) (fun _ => by rw [workers]) (act_owner call) rfl
  | unlock =>
      intro thread owner
      cases owner
  | notify wakes =>
      obtain ⟨owner, -, -, -⟩ := notify_frame queue woken call
      have moved := notify_moved queue woken call index ⟨call, call.afterNotify⟩
      exact held.stay found moved (notify_owns woken call) owner (owns_afterNotify call)
  | join joined => exact held.stay found rfl (fun _ => rfl) rfl rfl
  | joinedAll joined => exact held.stay found rfl (fun _ => rfl) rfl rfl

theorem workerStep_held (held : Held queue) (index : Nat) : Held (queue.workerStep index) := by
  cases found : queue.workers[index]? with
  | none =>
      simp only [DispatchQueue.workerStep, found]
      exact held
  | some stage =>
      rcases workerStep_cases found with ⟨same, -⟩ | ⟨next, move⟩
      · rw [same]
        exact held
      · exact move.held found held

theorem callerStep_held (held : Held queue) (index woken : Nat) :
    Held (queue.callerStep index woken) := by
  rcases callerStep_cases queue index woken with same | ⟨call, stage, found, move⟩
  · rw [same]
    exact held
  · exact move.held found held

theorem inside_wakeup (queue : DispatchQueue Op) (index : Nat) (thread : Owner) :
    (queue.next (.spuriousWakeup index)).inside thread = queue.inside thread := by
  cases thread with
  | worker position => exact any_owns_modify_wake _ _ _
  | caller position => rfl

theorem next_held (queue : DispatchQueue Op) (event : Event Op) (held : Held queue) :
    Held (queue.next event) := by
  cases event with
  | caller index woken => exact callerStep_held held index woken
  | worker index => exact workerStep_held held index
  | spuriousWakeup index =>
      intro thread owner
      rw [inside_wakeup]
      exact held thread owner
  | call call =>
      intro thread owner
      have before := held thread owner
      cases thread with
      | worker position => exact before
      | caller position =>
          cases found : queue.callers[position]? with
          | none =>
              rw [DispatchQueue.inside, found] at before
              cases before
          | some caller =>
              have kept : (queue.next (.call call)).callers[position]? = some caller := by
                rw [DispatchQueue.next,
                  List.getElem?_append_left (List.getElem?_eq_some_iff.mp found).1, found]
              rw [inside_caller kept, ← inside_caller found]
              exact before

theorem initial_held (Op : Type*) (threadCount : Nat) : Held (DispatchQueue.initial Op threadCount) := by
  intro thread owner
  cases owner

end Held

end RcControl.Dispatch
