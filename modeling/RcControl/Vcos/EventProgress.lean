import RcControl.Vcos.EventRuns

namespace RcControl.Vcos

open RcControl.Data

/-! No thread of event flags is ever stuck, but one that nobody has to wake.

What the assertions ask for, and that a waiter is only used while its thread is in the call,
follow from the same invariant. -/

variable {Id : Type*} [DecidableEq Id] {flags : EventFlags Id} {group : Group Id 32} {nodes : List Id}
  {consumed : Unsigned} {waking : Option Id} {id : Id} {events : List (Event Id)}

section Progress

/-- The owner of the lock goes on. -/
theorem Sound.owner_steps (sound : Sound flags group nodes consumed waking)
    {worker : Worker Id} (inside : flags.inside worker = true) : flags.step worker ≠ none := by
  cases worker with
  | thread id =>
      have timers := sound.timers id
      simp only [EventFlags.inside] at inside
      simp only [EventFlags.step]
      cases found : (flags.thread id).stage with
      | setWalk sofar prev current =>
          simp only [EventFlags.threadStep, found]
          cases flags.waiters.load current with
          | none => simp
          | some waiter =>
              simp only
              split <;> simp
      | timerStart suspend =>
          simp only [found, Stage.TimerAgrees] at timers
          simp only [EventFlags.threadStep, found, if_pos timers.2.1]
          split <;> simp
      | setEvents | setWake | setConsume | setUnlock | getTest | getUnlock | timerSet | sleepUnlock =>
          simp only [EventFlags.threadStep, found]
          simp
      | _ =>
          rw [found] at inside
          cases inside
  | timer id =>
      simp only [EventFlags.inside] at inside
      simp only [EventFlags.step]
      cases found : (flags.thread id).timer.stage with
      | walk waitreq prev plist =>
          simp only [EventFlags.timerStep, found]
          cases flags.waiters.load plist with
          | none => simp
          | some node =>
              simp only
              split <;> simp
      | unlock thread =>
          simp only [EventFlags.timerStep, found]
          simp
      | _ =>
          rw [found] at inside
          cases inside

/-- With the lock free, a timer that does not go on is neither set nor running. -/
theorem Sound.timer_rests (sound : Sound flags group nodes consumed waking) (free : flags.owner = none)
    (stuck : flags.step (.timer id) = none) :
    (flags.thread id).timer.stage = .waiting ∧ (flags.thread id).timer.expires = false := by
  simp only [EventFlags.step] at stuck
  have timers := sound.timers id
  cases found : (flags.thread id).timer.stage with
  | waiting =>
      simp only [EventFlags.timerStep, found] at stuck
      exact ⟨rfl, by simpa using stuck⟩
  | expired =>
      have away : (flags.thread id).timer.stage ≠ .waiting := by
        rw [found]
        simp
      obtain ⟨-, -, routine⟩ := (timers.busy (.inr away)).1.under_way away
      simp only [EventFlags.timerStep, found, routine, reduceCtorEq] at stuck
  | lock waitreq =>
      have unowned : (flags.timerGoTo id (.walk waitreq none .first)).owner = none := free
      simp only [EventFlags.timerStep, found, EventFlags.lock, if_pos unowned, reduceCtorEq] at stuck
  | walk waitreq prev plist =>
      have inside : flags.inside (.timer id) = true := by
        rw [EventFlags.inside, found]
        rfl
      exact absurd stuck (sound.owner_steps inside)
  | unlock thread =>
      have inside : flags.inside (.timer id) = true := by
        rw [EventFlags.inside, found]
        rfl
      exact absurd stuck (sound.owner_steps inside)
  | post thread =>
      simp only [EventFlags.timerStep, found, reduceCtorEq] at stuck
  | clear =>
      simp only [EventFlags.timerStep, found, reduceCtorEq] at stuck

/-- A thread that is asleep, and that neither a set nor a timer is to post, waits for events. -/
theorem Sound.sleeper_waits (sound : Sound flags group nodes 0 none)
    (unmet : ∀ node ∈ nodes, (flags.request node).met flags.events = false) {suspend : Unsigned}
    (found : (flags.thread id).stage = .sleep suspend) (unposted : (flags.thread id).suspend = 0)
    (waiting : (flags.thread id).timer.stage = .waiting)
    (unarmed : (flags.thread id).timer.expires = false) :
    suspend = vcosSuspend ∧ (flags.request id).met flags.events = false ∧
      group.client id = .waiting false := by
  have agrees := sound.agrees id
  have timers := sound.timers id
  simp only [Thread.Agrees, found, waiting, unposted] at agrees
  simp only [found, Stage.TimerAgrees] at timers
  obtain ⟨-, asleep⟩ := agrees
  have listed : id ∈ nodes := by
    by_contra outside
    rw [decide_eq_false outside] at asleep
    cases asleep with
    | timing _ posting => cases posting
    | posted posted => cases posted
  have forever : suspend = vcosSuspend := by
    by_contra timed
    rw [if_neg timed, decide_eq_true listed] at timers
    cases timers with
    | armed _ expires =>
        rw [unarmed] at expires
        cases expires
    | seeking stage =>
        rw [waiting] at stage
        cases stage
    | passed _ _ _ unlisted | fired _ _ _ unlisted => cases unlisted
  refine ⟨forever, unmet id listed, ?_⟩
  rw [decide_eq_true listed] at asleep
  cases asleep with
  | listed _ _ _ _ answer =>
      have unmetHere : (flags.thread id).waitreq.request.met flags.events = false := unmet id listed
      rw [unmetHere, forever] at answer
      exact answer

/-- A thread without a next step: it is in no call, or waits for events that are not there. -/
def EventFlags.Blocked (flags : EventFlags Id) (id : Id) : Prop :=
  (flags.thread id).stage = .idle ∨
    (flags.thread id).stage = .sleep vcosSuspend ∧ (flags.request id).met flags.events = false

/-- Where nothing goes on, the lock is free, and each client does what its thread does. -/
theorem Sound.blocked (sound : Sound flags group nodes consumed waking)
    (stuck : ∀ worker, flags.step worker = none) :
    flags.owner = none ∧ ∀ id, flags.Blocked id ∧
      (group.client id = .idle ∨ group.client id = .waiting false) := by
  have free : flags.owner = none := by
    cases owner : flags.owner with
    | none => rfl
    | some worker => exact absurd (stuck worker) (sound.owner_steps ((sound.guarded worker).mpr owner))
  have resting := sound.scene
  rw [EventFlags.Scene, free] at resting
  obtain ⟨rfl, rfl, unmet⟩ := resting
  refine ⟨free, fun id => ?_⟩
  have agrees := sound.agrees id
  obtain ⟨waiting, unarmed⟩ := sound.timer_rests free (stuck (.timer id))
  have step : flags.threadStep id = none := stuck (.thread id)
  have outside : (flags.thread id).stage.inside = false := by
    by_contra within
    have inside : flags.inside (.thread id) = true := Bool.of_not_eq_false within
    exact sound.owner_steps inside step
  cases found : (flags.thread id).stage with
  | idle =>
      simp only [Thread.Agrees, found] at agrees
      exact ⟨.inl found, .inl agrees.2⟩
  | sleep suspend =>
      simp only [EventFlags.threadStep, found] at step
      have unposted : (flags.thread id).suspend = 0 := by simpa using step
      obtain ⟨rfl, unmet, waits⟩ := sound.sleeper_waits unmet found unposted waiting unarmed
      exact ⟨.inr ⟨found, unmet⟩, .inr waits⟩
  | setLock bitmask op =>
      have unowned : (flags.goTo id (.setEvents bitmask op)).owner = none := free
      simp only [EventFlags.threadStep, found, EventFlags.lock, if_pos unowned, reduceCtorEq] at step
  | getLock bitmask op suspend =>
      have unowned : (flags.goTo id (.getTest bitmask op suspend)).owner = none := free
      simp only [EventFlags.threadStep, found, EventFlags.lock, if_pos unowned, reduceCtorEq] at step
  | woken suspend =>
      simp only [EventFlags.threadStep, found] at step
      split at step <;> simp at step
  | timerCancel status bits =>
      simp only [EventFlags.threadStep, found, if_pos waiting, reduceCtorEq] at step
  | timerClear status bits => simp only [EventFlags.threadStep, found, reduceCtorEq] at step
  | returned reply => simp only [EventFlags.threadStep, found, reduceCtorEq] at step
  | _ =>
      rw [found] at outside
      cases outside

/-- Where nothing goes on, no call is under way that should: none waits for the lock, for a post
that has got lost, or for a timer. -/
theorem flags_never_stuck (valid : (eventFlags Id).Along ValidCall (EventFlags.create Id) events)
    (stuck : ∀ worker, ((eventFlags Id).run (EventFlags.create Id) events).step worker = none) (id : Id) :
    ((eventFlags Id).run (EventFlags.create Id) events).Blocked id := by
  obtain ⟨actions, ⟨nodes, consumed, waking, sound⟩, -⟩ := create_sound.run valid
  exact ((sound.blocked stuck).2 id).1

theorem flags_never_stuck_oneWaits :
    (∀ worker, ((eventFlags Bool).run (EventFlags.create Bool) oneWaits).step worker = none) ∧
      ∀ id, ((eventFlags Bool).run (EventFlags.create Bool) oneWaits).Blocked id := by
  have stuck : ∀ worker, ((eventFlags Bool).run (EventFlags.create Bool) oneWaits).step worker = none := by
    rintro (id | id) <;> cases id <;> rfl
  exact ⟨stuck, flags_never_stuck (by decide +kernel) stuck⟩

end Progress

section Assertions

theorem waiterListValid_of_holds (holds : flags.waiters.Holds nodes) : flags.waiterListValid = true := by
  have ends := holds.tail_eq_none_iff
  simp only [EventFlags.waiterListValid]
  cases first : flags.waiters.head with
  | none =>
      have last : flags.waiters.tail = none := ends.mpr first
      simp [last]
  | some node =>
      obtain ⟨last, found⟩ : ∃ last, flags.waiters.tail = some last := by
        rw [← Option.ne_none_iff_exists', ne_eq, ends, first]
        simp
      have alone := holds.next_tail found
      by_cases same : node = last
      · subst same
        simp [found, alone]
      · simp [found, same]

/-- A waiter in the list, or out of it and not yet posted, belongs to a thread in its call. -/
theorem Sound.waits (sound : Sound flags group nodes consumed waking)
    (spoken : id ∈ nodes ∨ waking = some id) : (flags.thread id).stage.waits = true := by
  have agrees := sound.agrees id
  have said : decide (id ∈ nodes) = true ∨ decide (waking = some id) = true ∨
      (flags.thread id).timer.stage.posts = true := by
    rcases spoken with listed | woken
    · exact .inl (decide_eq_true listed)
    · exact .inr (.inl (decide_eq_true woken))
  cases found : (flags.thread id).stage with
  | timerSet | timerStart | sleepUnlock | sleep | woken | timerCancel | timerClear => rfl
  | _ =>
      simp only [Thread.Agrees, found] at agrees
      exact absurd said agrees.1.unspoken

/-- A timer that is not waiting serves a get of its own thread. -/
theorem Sound.ticking (sound : Sound flags group nodes consumed waking) (id : Id)
    (away : (flags.thread id).timer.stage ≠ .waiting) :
    (flags.thread id).timer.routine = some id ∧ (flags.thread id).stage.waits = true := by
  have timers := sound.timers id
  refine ⟨((timers.busy (.inr away)).1.under_way away).2.2, ?_⟩
  cases found : (flags.thread id).stage with
  | timerSet | timerStart | sleepUnlock | sleep | woken | timerCancel | timerClear => rfl
  | _ =>
      rw [found] at timers
      exact absurd timers.stage away

theorem Sound.asserts (sound : Sound flags group nodes consumed waking) (worker : Worker Id) :
    flags.asserts worker = true := by
  cases worker with
  | thread id =>
      have agrees := sound.agrees id
      have timers := sound.timers id
      cases found : (flags.thread id).stage with
      | setEvents bitmask op =>
          simp only [Thread.Agrees, found] at agrees
          simp only [EventFlags.asserts, found, decide_eq_true agrees.2.1]
      | setWake sofar prev current waiter =>
          simp only [EventFlags.asserts, found, waiterListValid_of_holds sound.holds]
      | getTest bitmask op suspend =>
          simp only [Thread.Agrees, found] at agrees
          simp only [EventFlags.asserts, found, decide_eq_true agrees.2.1]
      | timerSet suspend =>
          simp only [found, Stage.TimerAgrees] at timers
          simp only [EventFlags.asserts, found, timers.1.routine, Option.isNone_none]
      | timerStart suspend =>
          simp only [Thread.Agrees, found] at agrees
          simp only [EventFlags.asserts, found]
          exact bne_iff_ne.mpr agrees.1
      | _ => simp only [EventFlags.asserts, found]
  | timer id =>
      cases found : (flags.thread id).timer.stage with
      | expired =>
          have routine := (sound.ticking id (by rw [found]; simp)).1
          simp only [EventFlags.asserts, found, routine, Option.isSome_some]
      | unlock thread => simp only [EventFlags.asserts, found, waiterListValid_of_holds sound.holds]
      | _ => simp only [EventFlags.asserts, found]

omit [DecidableEq Id] in
/-- A loop reads the links in front of it, and the next node. -/
theorem Behind.touched {front : List Id} {prev : Option Id} {link : Link Id} {node : Id}
    (behind : Behind nodes front prev link) (holds : flags.waiters.Holds nodes)
    (touched : node ∈ (linkOwner link).toList ++ (flags.waiters.load link).toList) : node ∈ nodes := by
  obtain ⟨back, split, loaded⟩ := behind.next holds
  rw [loaded] at touched
  obtain ⟨-, -, rfl⟩ := behind
  rw [split]
  rcases List.mem_append.mp touched with owner | next
  · cases front using List.reverseRecOn with
    | nil => cases owner
    | append_singleton front last =>
        rw [LinkedList.lastOf_concat] at owner
        have same : node = last := by simpa [linkOwner] using owner
        simp [same]
  · have first : back.head? = some node := by simpa using next
    exact List.mem_append_right _ (List.mem_of_mem_head? first)

/-- The waiter that `waiter_list_valid` reads. -/
theorem Sound.head_waits (sound : Sound flags group nodes consumed waking)
    (first : id ∈ flags.waiters.head.toList) : (flags.thread id).stage.waits = true := by
  have whole : flags.waiters.Holds ([] ++ nodes) := sound.holds
  have head : flags.waiters.head = nodes.head? := whole.load
  rw [head] at first
  exact sound.waits (.inl (List.mem_of_mem_head? (Option.mem_toList.mp first)))

theorem Sound.touches (sound : Sound flags group nodes consumed waking) (worker : Worker Id)
    {other : Id} (touched : other ∈ flags.touches worker) : (flags.thread other).stage.waits = true := by
  cases worker with
  | thread id =>
      cases found : (flags.thread id).stage with
      | setWalk sofar prev current =>
          simp only [EventFlags.touches, found] at touched
          have inside : (flags.thread id).stage.inside = true := by
            rw [found]
            rfl
          have scene := sound.ownScene inside
          rw [found] at scene
          obtain ⟨-, -, front, behind, -⟩ := scene
          exact sound.waits (.inl (behind.touched sound.holds touched))
      | setWake sofar prev current waiter =>
          simp only [EventFlags.touches, found, List.mem_cons] at touched
          have inside : (flags.thread id).stage.inside = true := by
            rw [found]
            rfl
          have scene := sound.ownScene inside
          rw [found] at scene
          obtain ⟨-, woken, -⟩ := scene
          rcases touched with own | first
          · exact sound.waits (.inr (own ▸ woken))
          · exact sound.head_waits first
      | getTest bitmask op suspend =>
          simp only [EventFlags.touches, found, sound.holds.tail] at touched
          have last : nodes.getLast? = some other := by simpa using touched
          exact sound.waits (.inl (List.mem_of_getLast? last))
      | _ =>
          simp only [EventFlags.touches, found] at touched
          cases touched
  | timer id =>
      cases found : (flags.thread id).timer.stage with
      | expired =>
          obtain ⟨routine, waits⟩ := sound.ticking id (by rw [found]; simp)
          simp only [EventFlags.touches, found, routine, Option.toList_some, List.mem_singleton] at touched
          rw [touched]
          exact waits
      | walk waitreq prev plist =>
          simp only [EventFlags.touches, found] at touched
          have inside : flags.inside (.timer id) = true := by
            rw [EventFlags.inside, found]
            rfl
          have scene := sound.scene
          simp only [EventFlags.Scene, sound.guarded.owned inside, found] at scene
          obtain ⟨-, front, behind, -⟩ := scene
          exact sound.waits (.inl (behind.touched sound.holds touched))
      | unlock thread =>
          simp only [EventFlags.touches, found] at touched
          exact sound.head_waits touched
      | _ =>
          simp only [EventFlags.touches, found] at touched
          cases touched

/-- What `vcos_assert` asks for, and that a step uses the waiters of threads in their calls alone. -/
def EventFlags.Safe (flags : EventFlags Id) : Prop :=
  ∀ worker, flags.asserts worker = true ∧
    ∀ other ∈ flags.touches worker, (flags.thread other).stage.waits = true

theorem Sound.safe (sound : Sound flags group nodes consumed waking) : flags.Safe := fun worker =>
  ⟨sound.asserts worker, fun _ touched => sound.touches worker touched⟩

theorem Sound.always (sound : Sound flags group nodes consumed waking) {property : EventFlags Id → Prop}
    (holds : ∀ {flags group nodes consumed waking}, Sound flags group nodes consumed waking →
      property flags)
    (valid : (eventFlags Id).Along ValidCall flags events) :
    (eventFlags Id).Always property flags events := by
  have always : (eventFlags Id).Always
      (fun flags => ∃ group nodes consumed waking, Sound flags group nodes consumed waking) flags events := by
    refine Machine.always_of_along _ ?_ valid ⟨group, nodes, consumed, waking, sound⟩
    rintro flags event valid ⟨group, nodes, consumed, waking, sound⟩
    obtain ⟨actions, ⟨nodes, consumed, waking, after⟩, -⟩ := sound.event valid
    exact ⟨_, nodes, consumed, waking, after⟩
  refine Machine.always_mono _ ?_ always
  rintro flags ⟨group, nodes, consumed, waking, sound⟩
  exact holds sound

/-- No assertion fails, and no step uses a waiter that is gone. -/
theorem flags_assertions_hold (valid : (eventFlags Id).Along ValidCall (EventFlags.create Id) events) :
    (eventFlags Id).Always EventFlags.Safe (EventFlags.create Id) events :=
  create_sound.always Sound.safe valid

theorem flags_assertions_hold_handOver :
    (eventFlags Bool).Always EventFlags.Safe (EventFlags.create Bool) handOver :=
  flags_assertions_hold (by decide +kernel)

end Assertions

end RcControl.Vcos
