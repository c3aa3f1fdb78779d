import RcControl.Dispatch.Exclusion

namespace RcControl.Dispatch

open RcControl.Data

/-! Where the code of clients runs: the bodies of operations, and the destructors of what
they capture.

A moved-from operation has nothing left to destroy, so `pop` and the argument of a moving
dispatch run no client code.  An operation that has run is destroyed at the end of the
block it is local to, which is behind `lock.lock()`. -/

variable {Op : Type*} {queue : DispatchQueue Op}

inductive ClientCode (Op : Type*) where
  | body (op : Op)
  /-- The destructors of the captured state. -/
  | destruction (op : Op)
deriving DecidableEq, Repr

/-- Destroying these operations; `captures` tells which have captured anything. -/
def destructions (captures : Op → Bool) (thread : Owner) (jobs : List (Job Op)) :
    List (Owner × ClientCode Op) :=
  (jobs.filter (captures ·.op)).map fun job => (thread, .destruction job.op)

/-- The client code that is executed in a step, and by which thread. -/
def DispatchQueue.clientCode (captures : Op → Bool) (queue : DispatchQueue Op) :
    Event Op → List (Owner × ClientCode Op)
  | .worker index =>
      match queue.workers[index]? with
      | some (.running job) => [(.worker index, .body job.op)]
      | some (.destroy job) => destructions captures (.worker index) [job]
      | _ => []
  | .caller index _ =>
      match queue.callers[index]? with
      | some { call := .removePending, stage := .act } =>
          destructions captures (.caller index) queue.jobs.queue
      | some { call := .destructor, stage := .join joined } =>
          match queue.workers[joined]? with
          -- All threads are joined, and the members are destroyed.
          | none => destructions captures (.caller index) queue.jobs.queue
          | some _ => []
      | _ => []
  | .call _ | .spuriousWakeup _ => []

/-- No thread executes client code while it holds `lockMutex`. -/
def ClientCodeUnlocked (captures : Op → Bool) (queue : DispatchQueue Op) (event : Event Op) : Prop :=
  ∀ executed ∈ queue.clientCode captures event, queue.owner ≠ some executed.1

/-- A thread that holds `lockMutex` executes client code that itself makes a call of the
queue, and so waits for the lock that it holds. -/
def SelfDeadlock (captures : Op → Bool) (reenters : ClientCode Op → Bool)
    (queue : DispatchQueue Op) (event : Event Op) : Prop :=
  ∃ executed ∈ queue.clientCode captures event,
    reenters executed.2 = true ∧ queue.owner = some executed.1

/-- No operation that has captured anything is destroyed in one of these two places. -/
def Spared (captures : Op → Bool) (queue : DispatchQueue Op) : Event Op → Prop
  | .worker index =>
      ∀ job, queue.workers[index]? = some (.destroy job) → captures job.op = false
  | .caller index _ =>
      queue.callers[index]? = some ⟨.removePending, .act⟩ →
        ∀ job ∈ queue.jobs.queue, captures job.op = false
  | .call _ | .spuriousWakeup _ => True

/-- Unlocked client code may make calls. -/
theorem ClientCodeUnlocked.noSelfDeadlock {captures : Op → Bool} {event : Event Op}
    (unlocked : ClientCodeUnlocked captures queue event) (reenters : ClientCode Op → Bool) :
    ¬ SelfDeadlock captures reenters queue event := by
  intro deadlock
  obtain ⟨executed, member, -, owner⟩ := deadlock
  exact unlocked executed member owner

section Step

variable (captures : Op → Bool) {thread : Owner}

theorem forall_destructions {jobs : List (Job Op)} :
    (∀ executed ∈ destructions captures thread jobs, queue.owner ≠ some executed.1) ↔
      queue.owner = some thread → ∀ job ∈ jobs, captures job.op = false := by
  rw [destructions, List.forall_mem_map]
  apply Iff.intro
  · intro unlocked owner job member
    by_contra captured
    exact unlocked job (List.mem_filter.mpr ⟨member, Bool.not_eq_false _ ▸ captured⟩) owner
  · intro spared job member owner
    obtain ⟨member, captured⟩ := List.mem_filter.mp member
    rw [spared owner job member] at captured
    cases captured

theorem worker_unlocked_iff (exclusive : Exclusive queue) (held : Held queue) (index : Nat) :
    ClientCodeUnlocked captures queue (.worker index) ↔ Spared captures queue (.worker index) := by
  simp only [ClientCodeUnlocked, DispatchQueue.clientCode, Spared]
  split
  · rename_i job found
    rw [found]
    apply iff_of_true
    · -- A worker that runs an operation is outside the lock.
      intro executed member owner
      rw [List.mem_singleton.mp member] at owner
      have inside := held _ owner
      rw [inside_worker found] at inside
      cases inside
    · intro other same
      cases same
  · rename_i job found
    have owner := exclusive (.worker index) (inside_worker found)
    rw [forall_destructions, found]
    simp [owner]
  · rename_i other
    exact iff_of_true (List.forall_mem_nil _) fun job found => absurd found (other job)

theorem caller_unlocked_iff (exclusive : Exclusive queue) (held : Held queue) (index woken : Nat) :
    ClientCodeUnlocked captures queue (.caller index woken) ↔
      Spared captures queue (.caller index woken) := by
  simp only [ClientCodeUnlocked, DispatchQueue.clientCode, Spared]
  split
  · rename_i found
    have owner := exclusive (.caller index) (inside_caller found)
    rw [forall_destructions]
    simp [owner, found]
  · rename_i joined found
    have notRemoving : queue.callers[index]? ≠ some ⟨.removePending, .act⟩ := by simp [found]
    refine iff_of_true ?_ fun removing => absurd removing notRemoving
    split
    · -- The destructor gave the lock back before it notified.
      rw [forall_destructions]
      intro owner
      have inside := held _ owner
      rw [inside_caller found] at inside
      cases inside
    · exact List.forall_mem_nil _
  · rename_i notRemoving _
    exact iff_of_true (List.forall_mem_nil _) fun found => absurd found notRemoving

theorem unlocked_iff_spared (exclusive : Exclusive queue) (held : Held queue) (event : Event Op) :
    ClientCodeUnlocked captures queue event ↔ Spared captures queue event := by
  cases event with
  | worker index => exact worker_unlocked_iff captures exclusive held index
  | caller index woken => exact caller_unlocked_iff captures exclusive held index woken
  | call _ | spuriousWakeup _ => exact iff_of_true (List.forall_mem_nil _) trivial

end Step

/-- In every interleaving, client code runs outside the lock exactly when no operation with
captured state reaches the end of the worker's block or is discarded by `removePending`. -/
theorem client_code_unlocked_iff (captures reenters : Op → Bool) (threadCount : Nat)
    (events : List (Event Op)) :
    (dispatchQueue reenters).Along (ClientCodeUnlocked captures) (DispatchQueue.initial Op threadCount)
        events ↔
      (dispatchQueue reenters).Along (Spared captures) (DispatchQueue.initial Op threadCount) events := by
  apply (dispatchQueue reenters).along_congr fun queue => Exclusive queue ∧ Held queue
  · intro queue event invariant
    exact unlocked_iff_spared captures invariant.1 invariant.2 event
  · intro queue event invariant _
    have kept : ∀ (queue : DispatchQueue Op) event, Exclusive queue ∧ Held queue →
        Exclusive (queue.next event) ∧ Held (queue.next event) :=
      fun queue event both => ⟨next_exclusive queue event both.1, next_held queue event both.2⟩
    exact DispatchQueue.step_keeps reenters kept queue event invariant
  · exact ⟨initial_exclusive Op threadCount, initial_held Op threadCount⟩

/-- An operation is dispatched, taken and run; it is destroyed under the lock.  For that its
destructor need not call the queue. -/
theorem not_client_code_unlocked :
    ¬ ∀ (captures : String → Bool) (threadCount : Nat) (events : List (Event String)),
      (dispatchQueue fun _ => false).Along (ClientCodeUnlocked captures)
        (DispatchQueue.initial String threadCount) events := by
  intro unlocked
  let erase : String := "clients.erase(id)"
  let steps : List (Event String) :=
    [.call (.dispatchMove erase), .caller 0 0, .caller 0 0, .caller 0 0, .caller 0 0] ++
      List.replicate 8 (.worker 0)
  have along := unlocked (fun _ => true) 1 (steps ++ [.worker 0])
  have last := ((dispatchQueue fun _ => false).along_iff_split _ _ _).mp along steps (.worker 0) [] rfl
  have destroyed : (Owner.worker 0, ClientCode.destruction erase) ∈
      ((dispatchQueue fun _ => false).run (DispatchQueue.initial String 1) steps).clientCode (fun _ => true)
        (.worker 0) := by decide +kernel
  have owner : ((dispatchQueue fun _ => false).run (DispatchQueue.initial String 1) steps).owner =
      some (.worker 0) := by decide +kernel
  exact last _ destroyed owner

end RcControl.Dispatch
