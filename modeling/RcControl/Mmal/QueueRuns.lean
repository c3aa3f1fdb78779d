import RcControl.Mmal.QueueContents

namespace RcControl.Mmal

open RcControl.Data RcControl.Data.Slots

/-! What callers see of the queue, in every order of their steps. -/

variable {Header : Type*} [DecidableEq Header] {queue : Queue Header} {headers : List Header}
  {passed : Multiset Header} {index : Nat}

section Runs

variable {events : List (Event Header)}

theorem create_sound : Sound 0 (Queue.create Header) [] where
  guarded := fun index => by simp [Queue.create]
  distinct := Multiset.nodup_zero
  puts := rfl
  gets := rfl
  replayed := rfl
  tokens := rfl
  atRest := fun _ => ⟨LinkedList.empty_holds, rfl⟩
  shaped := fun index stage owned => by cases owned

theorem run_sound (own : (mmalQueue Header).Along OwnHeader (Queue.create Header) events) :
    ∃ headers, Sound (held Event.passes events) ((mmalQueue Header).run (Queue.create Header) events)
      headers := by
  induction events using List.reverseRecOn with
  | nil => exact ⟨[], create_sound⟩
  | append_singleton past event ih =>
      obtain ⟨earlier, now, -⟩ := (Machine.along_append _ _ _ past [event]).mp own
      obtain ⟨headers, sound⟩ := ih earlier
      rw [Machine.run_concat, held_append, held_cons, held_nil, add_zero]
      exact sound.event now

/-- The functions take effect one after the other, as on a list: at the time of each get
its buffer was the first, a get returns the buffer it took, and each buffer passed in is
added once. -/
theorem queue_linearizes (own : (mmalQueue Header).Along OwnHeader (Queue.create Header) events) :
    let queue := (mmalQueue Header).run (Queue.create Header) events
    ∃ headers, replay [] queue.log = some headers ∧
      held Event.passes events = held Thread.carries queue.threads + held Operation.puts queue.log ∧
      held Operation.gets queue.log = held Thread.takes queue.threads ∧
      (queue.owner = none → queue.length = headers.length % 2 ^ 32 ∧
        ∀ extra, walk queue.list.next (headers.length + extra) queue.list.first = headers) := by
  obtain ⟨headers, sound⟩ := run_sound own
  refine ⟨headers, sound.replayed, sound.puts, sound.gets, fun unlocked => ?_⟩
  have resting := sound.atRest unlocked
  exact ⟨resting.length, walk_segment resting.holds.linked⟩

/-- Two puts, a get and the put back of what it got, step by step. -/
def busyQueue : List (Event (Fin 2)) :=
  [.call (.put 0), .call (.put 1), .step 0, .step 1, .step 0, .step 0, .step 0, .step 0, .call .wait,
    .step 0, .step 2, .step 0, .step 1, .step 1, .step 1, .step 1, .step 1, .step 2, .step 1, .step 1,
    .step 2, .step 2, .step 2, .step 2, .step 2, .step 2, .call (.putBack 0)] ++ List.replicate 7 (.step 3)

theorem busyQueue_own : (mmalQueue (Fin 2)).Along OwnHeader (Queue.create (Fin 2)) busyQueue := by
  decide

theorem queue_linearizes_busyQueue :
    let queue := (mmalQueue (Fin 2)).run (Queue.create (Fin 2)) busyQueue
    ∃ headers, replay [] queue.log = some headers ∧
      held Event.passes busyQueue = held Thread.carries queue.threads + held Operation.puts queue.log ∧
      held Operation.gets queue.log = held Thread.takes queue.threads ∧
      (queue.owner = none → queue.length = headers.length % 2 ^ 32 ∧
        ∀ extra, walk queue.list.next (headers.length + extra) queue.list.first = headers) :=
  queue_linearizes busyQueue_own

example : replay [] ((mmalQueue (Fin 2)).run (Queue.create (Fin 2)) busyQueue).log = some [0, 1] := by
  decide

end Runs

section Assertions

/-- The check passes over a list of so many headers that the buffer is not among. -/
theorem sanityCheck_segment {buffer : Option Header} {start : Option Header}
    (segment : Segment queue.list.next start headers none)
    (absent : ∀ header ∈ headers, buffer ≠ some header) :
    queue.sanityCheck buffer headers.length start = true := by
  induction headers generalizing start with
  | nil =>
      obtain rfl : start = none := segment
      rfl
  | cons header headers ih =>
      obtain ⟨rfl, rest⟩ := segment
      obtain ⟨first, others⟩ := List.forall_mem_cons.mp absent
      rw [List.length_cons, Queue.sanityCheck, ih rest others, decide_eq_true first, Bool.and_true]

theorem AtRest.sanityCheck (resting : AtRest queue.length queue.list headers)
    (few : headers.length < 2 ^ 32) {buffer : Option Header}
    (absent : ∀ header ∈ headers, buffer ≠ some header) :
    queue.sanityCheck buffer queue.length queue.list.first = true := by
  rw [resting.length, Nat.mod_eq_of_lt few]
  exact sanityCheck_segment resting.holds.linked absent

theorem Sound.asserts [Fintype Header] (sound : Sound passed queue headers)
    (addresses : Fintype.card Header < 2 ^ 32) (index : Nat) : queue.asserts index = true := by
  have few : headers.length < 2 ^ 32 := lt_of_le_of_lt sound.nodup.length_le_card addresses
  cases found : queue.threads[index]? with
  | none => simp only [Queue.asserts, found]
  | some stage =>
      cases stage with
      | count side buffer =>
          have resting : AtRest queue.length queue.list headers :=
            sound.shaped index _ ((sound.guarded.inside_iff found).mp rfl) found
          have carried : buffer ∈ (Thread.count side buffer).carries := List.mem_cons_self
          have fresh := sound.fresh found carried
          simp only [Queue.asserts, found]
          refine resting.sanityCheck few fun header member same => ?_
          exact fresh (Option.some.inj same ▸ member)
      | getFirst =>
          have resting : AtRest queue.length queue.list headers :=
            sound.shaped index _ ((sound.guarded.inside_iff found).mp rfl) found
          obtain ⟨first, rest, rfl⟩ := List.exists_cons_of_ne_nil (sound.claimed found rfl)
          simp only [Queue.asserts, found, resting.holds.first_cons, Option.isSome_some, Bool.and_true]
          rw [← resting.holds.first_cons]
          exact resting.sanityCheck few fun header member same => by cases same
      | _ => simp only [Queue.asserts, found]

/-- The assertions of the queue hold at every step, if there are fewer headers than the
length can count. -/
theorem queue_assertions_hold [Fintype Header] (addresses : Fintype.card Header < 2 ^ 32)
    {events : List (Event Header)} (own : (mmalQueue Header).Along OwnHeader (Queue.create Header) events) :
    (mmalQueue Header).Always (fun queue => ∀ index, queue.asserts index = true) (Queue.create Header)
      events := by
  have kept : ∀ queue event, OwnHeader queue event → (∃ passed headers, Sound passed queue headers) →
      ∃ passed headers, Sound passed ((mmalQueue Header).next queue event) headers := by
    intro queue event now invariant
    obtain ⟨passed, headers, sound⟩ := invariant
    exact ⟨_, sound.event now⟩
  have always := (mmalQueue Header).always_of_along kept own ⟨0, [], create_sound⟩
  refine (mmalQueue Header).always_mono (fun queue invariant => ?_) always
  obtain ⟨passed, headers, sound⟩ := invariant
  exact sound.asserts addresses

theorem queue_assertions_hold_busyQueue :
    (mmalQueue (Fin 2)).Always (fun queue => ∀ index, queue.asserts index = true) (Queue.create (Fin 2))
      busyQueue :=
  queue_assertions_hold (by decide) busyQueue_own

end Assertions

section Getting

/-- With the lock free and no get under way, the semaphore counts the headers. -/
theorem Sound.counted (sound : Sound passed queue headers) (unlocked : queue.owner = none)
    (unclaimed : ∀ thread ∈ queue.threads, thread ≠ .getLock) : queue.semaphore = headers.length := by
  have nobody : queue.claimed = 0 := by
    refine weigh_eq_zero fun thread member => ?_
    obtain ⟨index, inside, found⟩ := List.getElem_of_mem member
    have place : queue.threads[index]? = some thread := by rw [List.getElem?_eq_getElem inside, found]
    have outside : ¬thread.inside = true := by
      intro within
      have owned := (sound.guarded.inside_iff place).mp within
      rw [unlocked] at owned
      cases owned
    have waiting := unclaimed thread member
    cases thread <;> simp_all [Thread.claims, Thread.inside]
  have tokens := sound.tokens
  rw [nobody] at tokens
  exact tokens

/-- Only getters take from the semaphore. -/
theorem semaphore_le_next {event : Event Header} (alone : NoGetter queue event) :
    queue.semaphore ≤ (queue.next event).semaphore := by
  cases event with
  | call call => exact le_rfl
  | timeout index =>
      change queue.semaphore ≤ (queue.timeout index).semaphore
      unfold Queue.timeout
      split <;> exact le_rfl
  | step index =>
      change queue.semaphore ≤ (queue.step index).semaphore
      cases found : queue.threads[index]? with
      | none => simp only [Queue.step, found, le_refl]
      | some stage =>
          obtain ⟨notTry, notWait, notTimed⟩ := alone stage found
          cases stage with
          | trywait => exact absurd rfl notTry
          | wait => exact absurd rfl notWait
          | timedwait => exact absurd rfl notTimed
          | link side | splice side | tail side =>
              cases side <;> simp only [Queue.step, found, Queue.goTo, le_refl]
          | lock side | getLock =>
              simp only [Queue.step, found, Queue.take]
              split <;> exact le_rfl
          | getFirst =>
              simp only [Queue.step, found]
              split <;> exact le_rfl
          | post => simp only [Queue.step, found, Nat.le_succ]
          | _ => simp only [Queue.step, found, Queue.goTo, le_refl]

theorem semaphore_le_run {events : List (Event Header)}
    (alone : (mmalQueue Header).Along NoGetter queue events) :
    queue.semaphore ≤ ((mmalQueue Header).run queue events).semaphore := by
  induction events generalizing queue with
  | nil => exact le_rfl
  | cons event events ih => exact (semaphore_le_next alone.1).trans (ih alone.2)

/-- A get that has claimed the semaphore, up to its return with a header. -/
def Thread.fetches : Thread Header → Bool
  | .getLock | .getFirst | .getNext _ | .getTail _ | .getCount _ | .getUnlock _ | .returned (some _) => true
  | _ => false

def Queue.Fetches (queue : Queue Header) (index : Nat) : Prop :=
  ∃ stage, queue.threads[index]? = some stage ∧ stage.fetches = true

/-- A step is a step of one thread. -/
theorem step_others (queue : Queue Header) {other : Nat} (different : other ≠ index) :
    (queue.step other).threads[index]? = queue.threads[index]? := by
  have set (stage : Thread Header) : (queue.threads.set other stage)[index]? = queue.threads[index]? :=
    List.getElem?_set_ne different
  cases found : queue.threads[other]? with
  | none => simp only [Queue.step, found]
  | some stage =>
      cases stage with
      | lock side | getLock =>
          simp only [Queue.step, found, Queue.take, Queue.goTo]
          split
          · exact set _
          · rfl
      | link side | splice side | tail side => cases side <;> simp only [Queue.step, found, Queue.goTo, set]
      | trywait | wait | timedwait | getFirst =>
          simp only [Queue.step, found, Queue.goTo]
          split <;> simp only [set]
      | _ => simp only [Queue.step, found, Queue.goTo, set]

/-- It goes on to return a header, whatever the others do. -/
theorem Queue.Fetches.step (fetches : queue.Fetches index) (other : Nat) :
    (queue.step other).Fetches index := by
  obtain ⟨stage, found, fetching⟩ := fetches
  have inside := (List.getElem?_eq_some_iff.mp found).1
  by_cases own : other = index
  · subst own
    cases stage with
    | getLock =>
        simp only [Queue.step, found, Queue.take]
        split
        · exact ⟨.getFirst, List.getElem?_set_self inside, rfl⟩
        · exact ⟨.getLock, found, rfl⟩
    | getFirst =>
        simp only [Queue.step, found]
        split
        · exact ⟨.getFirst, found, rfl⟩
        · exact ⟨.getNext _, List.getElem?_set_self inside, rfl⟩
    | getNext buffer =>
        simp only [Queue.step, found]
        exact ⟨.getTail buffer, List.getElem?_set_self inside, rfl⟩
    | getTail buffer =>
        simp only [Queue.step, found]
        exact ⟨.getCount buffer, List.getElem?_set_self inside, rfl⟩
    | getCount buffer =>
        simp only [Queue.step, found]
        exact ⟨.getUnlock buffer, List.getElem?_set_self inside, rfl⟩
    | getUnlock buffer =>
        simp only [Queue.step, found]
        exact ⟨.returned (some buffer), List.getElem?_set_self inside, rfl⟩
    | returned result =>
        simp only [Queue.step, found]
        exact ⟨.returned result, found, fetching⟩
    | _ => cases fetching
  · refine ⟨stage, ?_, fetching⟩
    rw [step_others queue own]
    exact found

theorem Queue.Fetches.next (fetches : queue.Fetches index) (event : Event Header) :
    (queue.next event).Fetches index := by
  cases event with
  | step other => exact fetches.step other
  | call call =>
      obtain ⟨stage, found, fetching⟩ := fetches
      exact ⟨stage, (List.getElem?_append_left (List.getElem?_eq_some_iff.mp found).1).trans found, fetching⟩
  | timeout other =>
      obtain ⟨stage, found, fetching⟩ := fetches
      refine ⟨stage, ?_, fetching⟩
      change (queue.timeout other).threads[index]? = some stage
      unfold Queue.timeout
      split
      · rename_i waiting
        have different : other ≠ index := by
          rintro rfl
          obtain rfl := Option.some.inj (waiting.symm.trans found)
          cases fetching
        exact (List.getElem?_set_ne different).trans found
      · exact found

/-- `if (mmal_queue_length(q) > 0) b = mmal_queue_get(q)`: the get succeeds, if the length was
read with the lock free and nobody else gets. -/
theorem length_then_get (past between : List (Event Header))
    (own : (mmalQueue Header).Along OwnHeader (Queue.create Header) past) (reading : Queue Header)
    (read : reading = (mmalQueue Header).run (Queue.create Header) past) (unlocked : reading.owner = none)
    (unclaimed : ∀ thread ∈ reading.threads, thread ≠ .getLock) (nonempty : 0 < reading.length)
    (alone : (mmalQueue Header).Along NoGetter reading between) (getting : Queue Header)
    (later : getting = (mmalQueue Header).run reading between)
    (calls : getting.threads[index]? = some .trywait) :
    (getting.step index).threads[index]? = some .getLock ∧
      ∀ (rest : List (Event Header)) (result : Option Header),
        ((mmalQueue Header).run (getting.step index) rest).threads[index]? = some (.returned result) →
          ∃ buffer, result = some buffer := by
  obtain ⟨headers, sound⟩ := run_sound own
  rw [← read] at sound
  have counted := sound.counted unlocked unclaimed
  have length := (sound.atRest unlocked).length
  have some_header : headers.length ≠ 0 := by
    intro zero
    rw [zero] at length
    omega
  have enough := semaphore_le_run alone
  rw [← later] at enough
  have free : getting.semaphore ≠ 0 := by omega
  have claimed : (getting.step index).threads[index]? = some .getLock := by
    have inside := (List.getElem?_eq_some_iff.mp calls).1
    simp only [Queue.step, calls, if_neg free, Queue.goTo]
    exact List.getElem?_set_self inside
  refine ⟨claimed, fun rest result returned => ?_⟩
  have kept : ∀ queue event, queue.Fetches index → ((mmalQueue Header).next queue event).Fetches index :=
    fun _ event fetches => fetches.next event
  have fetches := (mmalQueue Header).always_run
    ((mmalQueue Header).always_of_invariant kept ⟨_, claimed, rfl⟩ rest)
  obtain ⟨stage, found, fetching⟩ := fetches
  obtain rfl := Option.some.inj (returned.symm.trans found)
  cases result with
  | none => cases fetching
  | some buffer => exact ⟨buffer, rfl⟩

/-- One header is put, from the call to the end. -/
def onePut : List (Event (Fin 2)) := .call (.put 0) :: List.replicate 7 (.step 0)

theorem length_then_get_onePut :
    let reading := (mmalQueue (Fin 2)).run (Queue.create (Fin 2)) onePut
    let getting := (mmalQueue (Fin 2)).run reading [.call .get]
    (getting.step 1).threads[1]? = some .getLock ∧
      ∀ (rest : List (Event (Fin 2))) (result : Option (Fin 2)),
        ((mmalQueue (Fin 2)).run (getting.step 1) rest).threads[1]? = some (.returned result) →
          ∃ buffer, result = some buffer :=
  length_then_get onePut [.call .get] (by decide) _ rfl (by decide) (by decide) (by decide)
    ⟨trivial, trivial⟩ _ rfl (by decide)

example :
    let reading := (mmalQueue (Fin 2)).run (Queue.create (Fin 2)) onePut
    ((mmalQueue (Fin 2)).run reading (.call .get :: List.replicate 7 (.step 1))).threads =
      [.returned none, .returned (some 0)] := by decide

-- `mmal_queue_length` does not take the lock: between the count and the post it already
-- tells of the header, and the get fails.
example : ((mmalQueue (Fin 2)).run (Queue.create (Fin 2))
    [.call (.put 0), .call .length, .call .get, .step 0, .step 0, .step 1, .step 2]).threads =
    [.link .back 0, .returnedLength 1, .returned none] := by decide

end Getting

end RcControl.Mmal
