import RcControl.Mmal.Queue

namespace RcControl.Mmal

open RcControl.Data RcControl.Data.Slots

/-! What the queue holds.

Inside the lock the list is on its way from one shape to the next: the invariant says, for
each stage, which writes have been made to a list that held the headers. -/

variable {Header : Type*} [DecidableEq Header] {queue after : Queue Header} {headers : List Header}
  {passed : Multiset Header} {index : Nat} {stage next : Thread Header} {buffer : Header}

/-- The list as it is when nobody is inside. -/
structure AtRest (length : Nat) (list : LinkedList Header) (headers : List Header) : Prop where
  holds : list.Holds headers
  length : length = headers.length % 2 ^ 32

/-- The list as a thread at this stage has left it. -/
def Thread.Shape (length : Nat) (list : LinkedList Header) (headers : List Header) :
    Thread Header → Prop
  | .link _ _ => list.Holds headers ∧ length = (headers.length + 1) % 2 ^ 32
  | .splice .back buffer =>
      ∃ before : LinkedList Header, before.Holds headers ∧
        list = before.store before.last (some buffer) ∧ length = (headers.length + 1) % 2 ^ 32
  | .tail .back buffer =>
      ∃ before : LinkedList Header, before.Holds headers ∧
        list = (before.store before.last (some buffer)).store (.next buffer) none ∧
        length = (headers.length + 1) % 2 ^ 32
  | .splice .front buffer =>
      ∃ before : LinkedList Header, before.Holds headers ∧
        list = before.store (.next buffer) before.first ∧ length = (headers.length + 1) % 2 ^ 32
  | .tail .front buffer =>
      ∃ before : LinkedList Header, before.Holds headers ∧
        list = (before.store (.next buffer) before.first).store .first (some buffer) ∧
        length = (headers.length + 1) % 2 ^ 32
  | .getNext buffer => AtRest length list headers ∧ headers.head? = some buffer
  | .getTail buffer =>
      ∃ before : LinkedList Header, before.Holds (buffer :: headers) ∧
        list = before.store .first (before.next buffer) ∧ length = (headers.length + 1) % 2 ^ 32
  | .getCount _ => list.Holds headers ∧ length = (headers.length + 1) % 2 ^ 32
  | _ => AtRest length list headers

structure Sound (passed : Multiset Header) (queue : Queue Header) (headers : List Header) : Prop where
  guarded : Guarded Thread.inside queue.threads queue.owner
  distinct : (held Thread.carries queue.threads + headers : Multiset Header).Nodup
  puts : passed = held Thread.carries queue.threads + held Operation.puts queue.log
  gets : held Operation.gets queue.log = held Thread.takes queue.threads
  replayed : replay [] queue.log = some headers
  tokens : queue.semaphore + queue.claimed = headers.length
  atRest : queue.owner = none → AtRest queue.length queue.list headers
  shaped : ∀ (index : Nat) (stage : Thread Header), queue.owner = some index →
    queue.threads[index]? = some stage → stage.Shape queue.length queue.list headers

/-- What was put is there or was got. -/
theorem replay_balance {log : List (Operation Header)} {before : List Header}
    (replayed : replay before log = some headers) :
    (before + held Operation.puts log : Multiset Header) = headers + held Operation.gets log := by
  induction log generalizing before with
  | nil =>
      obtain rfl := Option.some.inj replayed
      rfl
  | cons operation log ih =>
      obtain ⟨between, applied, rest⟩ := Option.bind_eq_some_iff.mp replayed
      have later := ih rest
      have first : (before + operation.puts : Multiset Header) = between + operation.gets := by
        cases operation with
        | put buffer =>
            obtain rfl := Option.some.inj applied
            exact (Multiset.coe_add before [buffer]).trans (add_zero _).symm
        | putBack buffer =>
            obtain rfl := Option.some.inj applied
            exact (add_comm _ _).trans (add_zero _).symm
        | got buffer =>
            cases before with
            | nil => cases applied
            | cons first others =>
                simp only [Operation.apply, Option.ite_none_right_eq_some, Option.some.injEq] at applied
                obtain ⟨rfl, rfl⟩ := applied
                exact (add_zero _).trans (add_comm ([first] : Multiset Header) others)
      rw [held_cons, held_cons, ← add_assoc, first, add_right_comm, later]
      abel

section Moves

/-- What one step of a thread does to the headers. -/
structure Moves (queue after : Queue Header) (index : Nat) (stage next : Thread Header)
    (operations : List (Operation Header)) (headers headersAfter : List Header) : Prop where
  threads : after.threads = queue.threads.set index next
  log : after.log = queue.log ++ operations
  applied : replay headers operations = some headersAfter
  puts : (next.carries + held Operation.puts operations : Multiset Header) = stage.carries
  gets : (held Operation.gets operations + stage.takes : Multiset Header) = next.takes
  tokens : after.semaphore + next.claims + headers.length =
    queue.semaphore + stage.claims + headersAfter.length

/-- A step that does nothing to them. -/
theorem Moves.silent (threads : after.threads = queue.threads.set index next)
    (log : after.log = queue.log) (carries : next.carries = stage.carries)
    (takes : next.takes = stage.takes)
    (tokens : after.semaphore + next.claims = queue.semaphore + stage.claims) :
    Moves queue after index stage next [] headers headers where
  threads := threads
  log := log.trans (List.append_nil queue.log).symm
  applied := rfl
  puts := by rw [carries, held_nil, add_zero]
  gets := by rw [takes, held_nil, zero_add]
  tokens := by rw [tokens]

variable {operations : List (Operation Header)} {headersAfter : List Header}

/-- Only what was on its way in can have come in. -/
theorem Moves.distinct (moves : Moves queue after index stage next operations headers headersAfter)
    (found : queue.threads[index]? = some stage)
    (distinct : (held Thread.carries queue.threads + headers : Multiset Header).Nodup) :
    (held Thread.carries after.threads + headersAfter : Multiset Header).Nodup := by
  have moved : held Thread.carries after.threads + stage.carries =
      held Thread.carries queue.threads + next.carries := by
    rw [moves.threads]
    exact held_set found next
  have balance := replay_balance moves.applied
  have fewer : held Thread.carries after.threads + headersAfter ≤
      held Thread.carries queue.threads + headers := by
    apply le_of_add_le_add_right (a := (stage.carries : Multiset Header))
    calc held Thread.carries after.threads + headersAfter + (stage.carries : Multiset Header)
      _ = held Thread.carries queue.threads + next.carries + headersAfter := by
        rw [← moved]
        abel
      _ ≤ held Thread.carries queue.threads + next.carries +
          (headersAfter + held Operation.gets operations) := add_le_add_right (Multiset.le_add_right _ _) _
      _ = held Thread.carries queue.threads + headers + stage.carries := by
        rw [← balance, ← moves.puts]
        abel
  exact Multiset.nodup_of_le fewer distinct

/-- One thread has taken a step; what there is to show of the lock and the list. -/
theorem Sound.moved (sound : Sound passed queue headers) (found : queue.threads[index]? = some stage)
    (moves : Moves queue after index stage next operations headers headersAfter)
    (guarded : Guarded Thread.inside after.threads after.owner)
    (atRest : after.owner = none → AtRest after.length after.list headersAfter)
    (shaped : ∀ (index : Nat) (stage : Thread Header), after.owner = some index →
      after.threads[index]? = some stage → stage.Shape after.length after.list headersAfter) :
    Sound passed after headersAfter where
  guarded := guarded
  distinct := moves.distinct found sound.distinct
  puts := by
    have moved : held Thread.carries (queue.threads.set index next) + stage.carries =
        held Thread.carries queue.threads + next.carries := held_set found next
    apply add_right_cancel (b := (stage.carries : Multiset Header))
    rw [moves.threads, moves.log, held_append, add_right_comm _ _ (stage.carries : Multiset Header), moved,
      sound.puts, ← moves.puts]
    abel
  gets := by
    have moved : held Thread.takes (queue.threads.set index next) + stage.takes =
        held Thread.takes queue.threads + next.takes := held_set found next
    apply add_right_cancel (b := (stage.takes : Multiset Header))
    rw [moves.threads, moves.log, held_append, sound.gets, moved, add_assoc, moves.gets]
  replayed := by
    rw [moves.log, replay_append, sound.replayed]
    exact moves.applied
  tokens := by
    have before := sound.tokens
    have step := moves.tokens
    have weighed : weigh Thread.claims (queue.threads.set index next) + stage.claims =
        weigh Thread.claims queue.threads + next.claims := weigh_set found next
    rw [Queue.claimed, moves.threads]
    rw [Queue.claimed] at before
    omega
  atRest := atRest
  shaped := shaped

/-- A step inside the lock. -/
theorem Sound.within (sound : Sound passed queue headers) (found : queue.threads[index]? = some stage)
    (inside : stage.inside = true) (insideNext : next.inside = true)
    (moves : Moves queue after index stage next operations headers headersAfter)
    (owner : after.owner = queue.owner)
    (shape : stage.Shape queue.length queue.list headers →
      next.Shape after.length after.list headersAfter) : Sound passed after headersAfter := by
  have owned := (sound.guarded.inside_iff found).mp inside
  refine sound.moved found moves ?_ ?_ ?_
  · rw [moves.threads, owner]
    exact sound.guarded.stay found (insideNext.trans inside.symm)
  · intro free
    rw [owner, owned] at free
    cases free
  · intro other stageAfter ownedAfter foundAfter
    rw [owner, owned] at ownedAfter
    obtain rfl := Option.some.inj ownedAfter
    rw [moves.threads, List.getElem?_set_self (List.getElem?_eq_some_iff.mp found).1] at foundAfter
    obtain rfl := Option.some.inj foundAfter
    exact shape (sound.shaped _ _ owned found)

/-- A step outside the lock, which leaves list and length alone. -/
theorem Sound.outside (sound : Sound passed queue headers) (found : queue.threads[index]? = some stage)
    (inside : stage.inside = false) (insideNext : next.inside = false)
    (moves : Moves queue after index stage next [] headers headers) (owner : after.owner = queue.owner)
    (list : after.list = queue.list) (length : after.length = queue.length) :
    Sound passed after headers := by
  refine sound.moved found moves ?_ ?_ ?_
  · rw [moves.threads, owner]
    exact sound.guarded.stay found (insideNext.trans inside.symm)
  · rw [owner, list, length]
    exact sound.atRest
  · rw [owner, list, length]
    intro other stageAfter ownedAfter foundAfter
    have elsewhere : index ≠ other := by
      rintro rfl
      have within := (sound.guarded.inside_iff found).mpr ownedAfter
      rw [inside] at within
      cases within
    rw [moves.threads, List.getElem?_set_ne elsewhere] at foundAfter
    exact sound.shaped other stageAfter ownedAfter foundAfter

/-- `vcos_mutex_lock`. -/
theorem Sound.take (sound : Sound passed queue headers) (found : queue.threads[index]? = some stage)
    (insideNext : next.inside = true) (carries : next.carries = stage.carries)
    (takes : next.takes = stage.takes) (claims : next.claims = stage.claims)
    (shape : AtRest queue.length queue.list headers → next.Shape queue.length queue.list headers) :
    Sound passed (queue.take index next) headers := by
  unfold Queue.take
  split
  · rename_i free
    have guarded := sound.guarded
    rw [free] at guarded
    refine sound.moved found (Moves.silent rfl rfl carries takes (by rw [claims]; rfl))
      (guarded.enter found insideNext) (fun none => by cases none) ?_
    intro other stageAfter ownedAfter foundAfter
    obtain rfl := Option.some.inj ownedAfter
    rw [Queue.goTo, List.getElem?_set_self (List.getElem?_eq_some_iff.mp found).1] at foundAfter
    obtain rfl := Option.some.inj foundAfter
    exact shape (sound.atRest free)
  · exact sound

/-- `vcos_mutex_unlock`. -/
theorem Sound.leave (sound : Sound passed queue headers) (found : queue.threads[index]? = some stage)
    (inside : stage.inside = true) (insideNext : next.inside = false) (carries : next.carries = stage.carries)
    (takes : next.takes = stage.takes) (claims : next.claims = stage.claims)
    (shape : stage.Shape queue.length queue.list headers → AtRest queue.length queue.list headers) :
    Sound passed { queue.goTo index next with owner := none } headers := by
  have owned := (sound.guarded.inside_iff found).mp inside
  refine sound.moved found (Moves.silent rfl rfl carries takes (by rw [claims]; rfl))
    (sound.guarded.leave found inside insideNext) ?_ (fun other stage none => by cases none)
  exact fun _ => shape (sound.shaped index stage owned found)

end Moves

section Step

theorem Sound.nodup (sound : Sound passed queue headers) : headers.Nodup :=
  Multiset.coe_nodup.mp (Multiset.nodup_add.mp sound.distinct).2.1

/-- A header on its way into the queue is not in it. -/
theorem Sound.fresh (sound : Sound passed queue headers) (found : queue.threads[index]? = some stage)
    (carries : buffer ∈ stage.carries) : buffer ∉ headers := by
  have apart := (Multiset.nodup_add.mp sound.distinct).2.2
  intro inQueue
  exact Multiset.disjoint_left.mp apart
    (mem_held.mpr ⟨stage, List.mem_of_getElem? found, carries⟩) (Multiset.mem_coe.mpr inQueue)

/-- A thread that has claimed the semaphore finds a header. -/
theorem Sound.claimed (sound : Sound passed queue headers) (found : queue.threads[index]? = some stage)
    (claims : stage.claims = 1) : headers ≠ [] := by
  have most : stage.claims ≤ weigh Thread.claims queue.threads := weight_le_weigh found
  have tokens := sound.tokens
  rw [Queue.claimed] at tokens
  rintro rfl
  rw [List.length_nil] at tokens
  omega

theorem count_length {length count : Nat} (counted : length = count % 2 ^ 32) :
    (length + 1) % 2 ^ 32 = (count + 1) % 2 ^ 32 := by
  omega

theorem uncount_length {length count : Nat} (counted : length = (count + 1) % 2 ^ 32) :
    (length + (2 ^ 32 - 1)) % 2 ^ 32 = count % 2 ^ 32 := by
  omega

theorem Sound.put (sound : Sound passed queue headers)
    (found : queue.threads[index]? = some (.tail .back buffer)) :
    Sound passed (queue.step index) (headers ++ [buffer]) := by
  have carried : buffer ∈ (Thread.tail .back buffer).carries := List.mem_cons_self
  have fresh := sound.fresh found carried
  have nodup := sound.nodup
  simp only [Queue.step, found]
  refine sound.within found rfl rfl
    (Moves.mk rfl rfl rfl rfl rfl ?_ : Moves _ _ _ _ .post [.put buffer] _ _) rfl ?_
  · simp only [Queue.goTo, Thread.claims, List.length_append, List.length_cons, List.length_nil]
    omega
  · rintro ⟨before, holds, list, counted⟩
    refine ⟨?_, counted.trans ?_⟩
    · rw [list]
      exact holds.append fresh nodup
    · rw [List.length_append, List.length_cons, List.length_nil]

theorem Sound.putBack (sound : Sound passed queue headers)
    (found : queue.threads[index]? = some (.tail .front buffer)) :
    Sound passed (queue.step index) (buffer :: headers) := by
  have carried : buffer ∈ (Thread.tail .front buffer).carries := List.mem_cons_self
  have fresh := sound.fresh found carried
  simp only [Queue.step, found]
  refine sound.within found rfl rfl
    (Moves.mk rfl rfl rfl rfl rfl ?_ : Moves _ _ _ _ .post [.putBack buffer] _ _) rfl ?_
  · simp only [Queue.goTo, Thread.claims, List.length_cons]
    omega
  · rintro ⟨before, holds, list, counted⟩
    refine ⟨?_, counted⟩
    have last : queue.list.last = before.last := by rw [list, LinkedList.store_last, LinkedList.store_last]
    rw [last, list]
    exact holds.prepend fresh

theorem Sound.got (sound : Sound passed queue headers)
    (found : queue.threads[index]? = some (.getNext buffer)) :
    ∃ rest, headers = buffer :: rest ∧ Sound passed (queue.step index) rest := by
  have owned := (sound.guarded.inside_iff found).mp rfl
  obtain ⟨resting, head⟩ := sound.shaped index _ owned found
  obtain ⟨rest, rfl⟩ : ∃ rest, headers = buffer :: rest := by
    cases headers with
    | nil => cases head
    | cons first rest => exact ⟨rest, by rw [Option.some.inj head]⟩
  refine ⟨rest, rfl, ?_⟩
  simp only [Queue.step, found]
  refine sound.within found rfl rfl
    (Moves.mk rfl rfl ?_ rfl rfl ?_ : Moves _ _ _ _ (.getTail buffer) [.got buffer] _ _) rfl ?_
  · rw [replay_singleton]
    exact if_pos rfl
  · simp only [Queue.goTo, Thread.claims, List.length_cons]
    omega
  · exact fun _ => ⟨queue.list, resting.holds, rfl, resting.length⟩

/-- The headers after a step of a thread at this stage. -/
def Thread.changes : Thread Header → List Header → List Header
  | .tail .back buffer, headers => headers ++ [buffer]
  | .tail .front buffer, headers => buffer :: headers
  | .getNext _, headers => headers.tail
  | _, headers => headers

theorem Sound.advance (sound : Sound passed queue headers) (found : queue.threads[index]? = some stage) :
    Sound passed (queue.step index) (stage.changes headers) := by
  cases stage with
  | lock side buffer =>
      simp only [Queue.step, found]
      exact sound.take found rfl rfl rfl rfl id
  | count side buffer =>
      simp only [Queue.step, found]
      refine sound.within found rfl rfl (.silent rfl rfl rfl rfl rfl) rfl ?_
      exact fun resting => ⟨resting.holds, count_length resting.length⟩
  | link side buffer =>
      cases side with
      | back | front =>
          simp only [Queue.step, found]
          refine sound.within found rfl rfl (.silent rfl rfl rfl rfl rfl) rfl ?_
          exact fun shape => ⟨queue.list, shape.1, rfl, shape.2⟩
  | splice side buffer =>
      cases side with
      | back | front =>
          simp only [Queue.step, found]
          refine sound.within found rfl rfl (.silent rfl rfl rfl rfl rfl) rfl ?_
          rintro ⟨before, holds, list, counted⟩
          exact ⟨before, holds, by rw [list], counted⟩
  | tail side buffer =>
      cases side with
      | back => exact sound.put found
      | front => exact sound.putBack found
  | post =>
      simp only [Queue.step, found]
      refine sound.within found rfl rfl (.silent rfl rfl rfl rfl ?_) rfl id
      simp only [Thread.claims]
  | unlock =>
      simp only [Queue.step, found]
      exact sound.leave found rfl rfl rfl rfl rfl id
  | trywait =>
      simp only [Queue.step, found]
      split
      · exact sound.outside found rfl rfl (.silent rfl rfl rfl rfl rfl) rfl rfl rfl
      · rename_i free
        refine sound.outside found rfl rfl (.silent rfl rfl rfl rfl ?_) rfl rfl rfl
        simp only [Thread.claims]
        omega
  | wait | timedwait =>
      simp only [Queue.step, found]
      split
      · exact sound
      · rename_i free
        refine sound.outside found rfl rfl (.silent rfl rfl rfl rfl ?_) rfl rfl rfl
        simp only [Thread.claims]
        omega
  | getLock =>
      simp only [Queue.step, found]
      exact sound.take found rfl rfl rfl rfl id
  | getFirst =>
      have owned := (sound.guarded.inside_iff found).mp rfl
      have resting : AtRest queue.length queue.list headers := sound.shaped index _ owned found
      have some_header := sound.claimed found rfl
      obtain ⟨first, rest, rfl⟩ := List.exists_cons_of_ne_nil some_header
      simp only [Queue.step, found, resting.holds.first_cons]
      refine sound.within found rfl rfl (.silent rfl rfl rfl rfl rfl) rfl ?_
      exact fun _ => ⟨resting, rfl⟩
  | getNext buffer =>
      obtain ⟨rest, rfl, soundAfter⟩ := sound.got found
      exact soundAfter
  | getTail buffer =>
      simp only [Queue.step, found]
      refine sound.within found rfl rfl (.silent rfl rfl rfl rfl rfl) rfl ?_
      rintro ⟨before, holds, list, counted⟩
      refine ⟨?_, counted⟩
      rw [list]
      exact holds.remove
  | getCount buffer =>
      simp only [Queue.step, found]
      refine sound.within found rfl rfl (.silent rfl rfl rfl rfl rfl) rfl ?_
      exact fun shape => ⟨shape.1, uncount_length shape.2⟩
  | getUnlock buffer =>
      simp only [Queue.step, found]
      exact sound.leave found rfl rfl rfl rfl rfl id
  | readLength =>
      simp only [Queue.step, found]
      exact sound.outside found rfl rfl (.silent rfl rfl rfl rfl rfl) rfl rfl rfl
  | returned result | returnedLength length =>
      simp only [Queue.step, found]
      exact sound

theorem Sound.step (sound : Sound passed queue headers) (index : Nat) :
    ∃ headersAfter, Sound passed (queue.step index) headersAfter := by
  cases found : queue.threads[index]? with
  | none =>
      simp only [Queue.step, found]
      exact ⟨headers, sound⟩
  | some stage => exact ⟨stage.changes headers, sound.advance found⟩

theorem Sound.timeout (sound : Sound passed queue headers) (index : Nat) :
    Sound passed (queue.timeout index) headers := by
  unfold Queue.timeout
  split
  · rename_i found
    exact sound.outside found rfl rfl (.silent rfl rfl rfl rfl rfl) rfl rfl rfl
  · exact sound

/-- A call starts outside the lock, and its header is nowhere else. -/
theorem Sound.called (sound : Sound passed queue headers) {call : Call Header}
    (own : OwnHeader queue (.call call)) :
    Sound (passed + ((Event.call call).passes : Multiset Header)) (queue.next (.call call)) headers where
  guarded := sound.guarded.concat (by cases call <;> rfl)
  distinct := by
    have apart := sound.distinct
    have carried : call.start.carries = (Event.call call).passes := by cases call <;> rfl
    rw [Queue.next, held_append, held_cons, held_nil, add_zero, carried, add_right_comm]
    refine Multiset.nodup_add.mpr ⟨apart, ?_, Multiset.disjoint_left.mpr ?_⟩
    · cases call <;> exact Multiset.coe_nodup.mpr (by simp [Event.passes])
    · intro buffer inside passes
      have new : (∀ thread ∈ queue.threads, buffer ∉ thread.carries) ∧ buffer ∉ headers := by
        cases call with
        | put other | putBack other =>
            obtain rfl := List.mem_singleton.mp (Multiset.mem_coe.mp passes)
            exact ⟨own.1, own.2 headers sound.replayed⟩
        | get | wait | timedwait | length => cases passes
      rcases Multiset.mem_add.mp inside with carried | listed
      · obtain ⟨thread, member, carries⟩ := mem_held.mp carried
        exact new.1 thread member carries
      · exact new.2 (Multiset.mem_coe.mp listed)
  puts := by
    have carried : call.start.carries = (Event.call call).passes := by cases call <;> rfl
    rw [Queue.next, held_append, held_cons, held_nil, add_zero, carried, sound.puts]
    abel
  gets := by
    have taken : call.start.takes = [] := by cases call <;> rfl
    rw [Queue.next, held_append, held_cons, held_nil, add_zero, taken, sound.gets]
    exact (add_zero _).symm
  replayed := sound.replayed
  tokens := by
    have claims : call.start.claims = 0 := by cases call <;> rfl
    have alone : weigh Thread.claims [call.start] = 0 := by
      rw [weigh, List.map_singleton, List.sum_singleton, claims]
    rw [Queue.next, Queue.claimed, weigh_append, alone, add_zero]
    exact sound.tokens
  atRest := sound.atRest
  shaped := by
    intro index stage owned found
    rcases getElem?_concat_eq_some.mp found with older | ⟨-, rfl⟩
    · exact sound.shaped index stage owned older
    · have guarded : Guarded Thread.inside (queue.threads ++ [call.start]) queue.owner :=
        sound.guarded.concat (by cases call <;> rfl)
      have within := (guarded.inside_iff found).mpr owned
      cases call <;> cases within

theorem Sound.event (sound : Sound passed queue headers) {event : Event Header}
    (own : OwnHeader queue event) :
    ∃ headersAfter, Sound (passed + (event.passes : Multiset Header)) (queue.next event) headersAfter := by
  cases event with
  | call call => exact ⟨headers, sound.called own⟩
  | step index =>
      obtain ⟨headersAfter, soundAfter⟩ := sound.step index
      refine ⟨headersAfter, ?_⟩
      change Sound (passed + 0) (queue.step index) headersAfter
      rw [add_zero]
      exact soundAfter
  | timeout index =>
      refine ⟨headers, ?_⟩
      change Sound (passed + 0) (queue.timeout index) headers
      rw [add_zero]
      exact sound.timeout index

end Step

end RcControl.Mmal
