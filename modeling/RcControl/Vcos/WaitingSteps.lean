import RcControl.Vcos.Waiting

namespace RcControl.Vcos

open RcControl.Data

/-! What the steps of one thread and of its timer do to the rest. -/

variable {Id : Type*} [DecidableEq Id] {flags : EventFlags Id} {group : Group Id 32} {nodes : List Id}
  {consumed : Unsigned} {waking : Option Id} {id : Id} {thread : Thread Id}

section Records

@[simp] theorem setThread_self : (flags.setThread id thread).thread id = thread :=
  Function.update_self ..

theorem goTo_stage (flags : EventFlags Id) (id : Id) (stage : Stage Id) :
    ((flags.goTo id stage).thread id).stage = stage := by
  rw [EventFlags.goTo, setThread_self]
  rfl

theorem timerGoTo_stage (flags : EventFlags Id) (id : Id) (stage : TimerStage Id) :
    ((flags.timerGoTo id stage).thread id).timer.stage = stage := by
  rw [EventFlags.timerGoTo, setThread_self]
  rfl

theorem setThread_ne {other : Id} (elsewhere : other ≠ id) :
    (flags.setThread id thread).thread other = flags.thread other :=
  Function.update_of_ne elsewhere ..

theorem timerGoTo_setThread (flags : EventFlags Id) (id : Id) (thread : Thread Id) (stage : TimerStage Id) :
    (flags.setThread id thread).timerGoTo id stage = flags.setThread id (thread.timerGoTo stage) := by
  rw [EventFlags.timerGoTo, setThread_self, EventFlags.setThread, EventFlags.setThread, Function.update_idem,
    EventFlags.setThread]

theorem request_setThread (same : thread.waitreq.request = flags.request id) :
    (flags.setThread id thread).request = flags.request := by
  funext other
  by_cases here : other = id
  · rw [here, EventFlags.request, setThread_self, same]
  · rw [EventFlags.request, setThread_ne here, EventFlags.request]

theorem request_goTo (flags : EventFlags Id) (id : Id) (stage : Stage Id) :
    (flags.goTo id stage).request = flags.request :=
  request_setThread rfl

@[simp] theorem setClient_self (group : Group Id 32) (id : Id) :
    group.setClient id (group.client id) = group := by
  simp [Group.setClient]

theorem setClient_ne (client : Client 32) {other : Id} (elsewhere : other ≠ id) :
    (group.setClient id client).client other = group.client other :=
  Function.update_of_ne elsewhere ..

theorem inside_thread_ne (timer : thread.timer.stage.inside = (flags.thread id).timer.stage.inside)
    (other : Worker Id) (elsewhere : other ≠ .thread id) :
    (flags.setThread id thread).inside other = flags.inside other := by
  cases other with
  | thread other =>
      have apart : other ≠ id := fun same => elsewhere (same ▸ rfl)
      rw [EventFlags.inside, setThread_ne apart, EventFlags.inside]
  | timer other =>
      by_cases here : other = id
      · rw [here, EventFlags.inside, setThread_self, timer, EventFlags.inside]
      · rw [EventFlags.inside, setThread_ne here, EventFlags.inside]

theorem inside_timer_ne (stage : thread.stage.inside = (flags.thread id).stage.inside)
    (other : Worker Id) (elsewhere : other ≠ .timer id) :
    (flags.setThread id thread).inside other = flags.inside other := by
  cases other with
  | timer other =>
      have apart : other ≠ id := fun same => elsewhere (same ▸ rfl)
      rw [EventFlags.inside, setThread_ne apart, EventFlags.inside]
  | thread other =>
      by_cases here : other = id
      · rw [here, EventFlags.inside, setThread_self, stage, EventFlags.inside]
      · rw [EventFlags.inside, setThread_ne here, EventFlags.inside]

theorem inside_setThread (stage : thread.stage.inside = (flags.thread id).stage.inside)
    (timer : thread.timer.stage.inside = (flags.thread id).timer.stage.inside) :
    (flags.setThread id thread).inside = flags.inside := by
  funext other
  by_cases here : other = .thread id
  · rw [here, EventFlags.inside, setThread_self, stage, EventFlags.inside]
  · exact inside_thread_ne timer other here

/-- The scene after a change to one thread, with the same owner. -/
theorem scene_setThread (scene : flags.Scene nodes consumed waking)
    (same : thread.waitreq.request = flags.request id)
    (asThread : (flags.thread id).stage.Scene flags.events flags.request nodes consumed waking →
      thread.stage.Scene flags.events flags.request nodes consumed waking)
    (asTimer : (flags.thread id).timer.stage.Scene flags.events flags.request nodes consumed waking →
      thread.timer.stage.Scene flags.events flags.request nodes consumed waking) :
    (flags.setThread id thread).Scene nodes consumed waking := by
  have owned : (flags.setThread id thread).owner = flags.owner := rfl
  simp only [EventFlags.Scene, owned, request_setThread same] at scene ⊢
  cases owner : flags.owner with
  | none =>
      rw [owner] at scene
      exact scene
  | some worker =>
      rw [owner] at scene
      cases worker with
      | thread other =>
          by_cases here : other = id
          · subst here
            simp only [setThread_self]
            exact asThread scene
          · simp only [setThread_ne here]
            exact scene
      | timer other =>
          by_cases here : other = id
          · subst here
            simp only [setThread_self]
            exact asTimer scene
          · simp only [setThread_ne here]
            exact scene

omit [DecidableEq Id] in
theorem scene_of_owner {stage : Stage Id} {request : Id → Request 32} (owned : flags.owner = some (.thread id))
    (found : (flags.thread id).stage = stage) (same : flags.request = request)
    (scene : stage.Scene flags.events request nodes consumed waking) : flags.Scene nodes consumed waking := by
  subst found
  rw [EventFlags.Scene, owned, same]
  exact scene

omit [DecidableEq Id] in
theorem scene_of_timer {stage : TimerStage Id} {request : Id → Request 32}
    (owned : flags.owner = some (.timer id)) (found : (flags.thread id).timer.stage = stage)
    (same : flags.request = request)
    (scene : stage.Scene flags.events request nodes consumed waking) : flags.Scene nodes consumed waking := by
  subst found
  rw [EventFlags.Scene, owned, same]
  exact scene

end Records

section Agreement

variable {events eventsAfter : Unsigned} {client clientAfter : Client 32}
  {listed waking listedAfter wakingAfter : Bool} {after : Thread Id}

omit [DecidableEq Id]

theorem Awake.unspoken {suspend : Nat} {posts : Bool} (awake : Awake suspend posts listed waking) :
    ¬(listed = true ∨ waking = true ∨ posts = true) := by
  rw [awake.unlisted, awake.unwoken, awake.quiet]
  simp

/-- A waiter that has left the list does not matter to the timer. -/
theorem Stage.TimerAgrees.unlist {id : Id} {timer : Timer Id} {stage : Stage Id}
    (agrees : stage.TimerAgrees id timer listed) : stage.TimerAgrees id timer false := by
  have ticks : Ticking id timer listed → Ticking id timer false := by
    intro ticking
    cases ticking with
    | armed stage expires routine => exact .armed stage expires routine
    | seeking stage expires routine => exact .seeking stage expires routine
    | passed stage expires routine _ => exact .passed stage expires routine rfl
    | fired stage expires routine _ => exact .fired stage expires routine rfl
  unfold Stage.TimerAgrees at agrees ⊢
  split at agrees
  all_goals first
    | exact agrees
    | exact ticks agrees
    | skip
  all_goals
    split at agrees
    · rename_i forever
      rw [if_pos forever]
      exact agrees
    · rename_i timed
      rw [if_neg timed]
      exact ticks agrees

/-- A thread that a waiter in the list, a set or its timer speaks for is asleep. -/
theorem Thread.Agrees.asleep (agrees : thread.Agrees events client listed waking)
    (spoken : listed = true ∨ waking = true ∨ thread.timer.stage.posts = true) :
    Asleep events thread.waitreq thread.suspend thread.timer.stage.posts thread.stage.limited client listed
      waking := by
  unfold Thread.Agrees at agrees
  split at agrees
  all_goals first
    | exact absurd spoken agrees.1.unspoken
    | rename_i found
      rw [found]
      exact agrees.2

/-- What changes for a thread that is asleep. -/
theorem Thread.Agrees.sleeper (agrees : thread.Agrees events client listed waking)
    (spoken : listed = true ∨ waking = true ∨ thread.timer.stage.posts = true)
    (stage : after.stage = thread.stage)
    (asleep : Asleep eventsAfter after.waitreq after.suspend after.timer.stage.posts thread.stage.limited
      clientAfter listedAfter wakingAfter) : after.Agrees eventsAfter clientAfter listedAfter wakingAfter := by
  unfold Thread.Agrees at agrees ⊢
  rw [stage]
  split at agrees
  all_goals first
    | exact absurd spoken agrees.1.unspoken
    | rename_i found
      rw [found] at asleep
      exact ⟨agrees.1, asleep⟩

/-- The events do not matter to a thread that nobody speaks for. -/
theorem Thread.Agrees.unspoken (agrees : thread.Agrees events client false false)
    (eventsAfter : Unsigned) : thread.Agrees eventsAfter client false false := by
  unfold Thread.Agrees at agrees ⊢
  split at agrees
  all_goals first
    | exact agrees
    | skip
  all_goals
    refine ⟨agrees.1, ?_⟩
    cases agrees.2 with
    | timing unposted posting fresh answer => exact .timing unposted posting fresh answer
    | posted posted quiet answered answer reply => exact .posted posted quiet answered answer reply

/-- Events that go do not matter to a waiter that is not met. -/
theorem Thread.Agrees.fewer (agrees : thread.Agrees events client listed false) (mask : Unsigned)
    (unmet : listed = true → thread.waitreq.request.met events = false) :
    thread.Agrees (events &&& mask) client listed false := by
  cases listed with
  | false => exact agrees.unspoken _
  | true =>
      refine agrees.sleeper (.inl rfl) rfl ?_
      cases agrees.asleep (.inl rfl) with
      | listed unposted quiet fresh valid answer =>
          rw [unmet rfl] at answer
          refine .listed unposted quiet fresh valid ?_
          rw [Request.met_and (unmet rfl)]
          exact answer

end Agreement

section Plain

variable {events : Unsigned} {request : Id → Request 32} {stage : Stage Id}

def Stage.walks : Stage Id → Bool
  | .setWalk _ _ _ | .setWake _ _ _ _ | .setConsume _ => true
  | _ => false

omit [DecidableEq Id] in
theorem scene_iff_resting (plain : stage.walks = false) :
    stage.Scene events request nodes consumed waking ↔ Resting events request nodes consumed waking := by
  cases stage with
  | setWalk | setWake | setConsume => cases plain
  | _ => exact Iff.rfl

end Plain

section Moves

/-- A step that changes one thread, its client and who owns the lock. -/
theorem Sound.moved (sound : Sound flags group nodes consumed waking) (client : Client 32)
    {owner : Option (Worker Id)} (guarded : Excludes (flags.setThread id thread).inside owner)
    (same : thread.waitreq.request = flags.request id)
    (scene : { flags.setThread id thread with owner := owner }.Scene nodes consumed waking)
    (agrees : thread.Agrees flags.events client (decide (id ∈ nodes)) (decide (waking = some id)))
    (timers : thread.stage.TimerAgrees id thread.timer (decide (id ∈ nodes))) :
    Sound { flags.setThread id thread with owner := owner } (group.setClient id client) nodes consumed
      waking where
  guarded := guarded
  holds := sound.holds
  nodup := sound.nodup
  scene := scene
  agrees other := by
    by_cases here : other = id
    · subst here
      simp only [setThread_self, Group.setClient, Function.update_self]
      exact agrees
    · simp only [setThread_ne here, setClient_ne client here]
      exact sound.agrees other
  timers other := by
    by_cases here : other = id
    · subst here
      simp only [setThread_self]
      exact timers
    · simp only [setThread_ne here]
      exact sound.timers other
  events := by
    have requests := request_setThread same
    exact sound.events.trans (by rw [← requests]; rfl)
  waiting := by
    have requests := request_setThread same
    exact sound.waiting.trans (by rw [← requests]; rfl)

/-- A step that neither takes nor gives back the lock. -/
theorem Sound.stays (sound : Sound flags group nodes consumed waking) (client : Client 32)
    (stageInside : thread.stage.inside = (flags.thread id).stage.inside)
    (timerInside : thread.timer.stage.inside = (flags.thread id).timer.stage.inside)
    (same : thread.waitreq.request = flags.request id)
    (asThread : (flags.thread id).stage.Scene flags.events flags.request nodes consumed waking →
      thread.stage.Scene flags.events flags.request nodes consumed waking)
    (asTimer : (flags.thread id).timer.stage.Scene flags.events flags.request nodes consumed waking →
      thread.timer.stage.Scene flags.events flags.request nodes consumed waking)
    (agrees : thread.Agrees flags.events client (decide (id ∈ nodes)) (decide (waking = some id)))
    (timers : thread.stage.TimerAgrees id thread.timer (decide (id ∈ nodes))) :
    Sound (flags.setThread id thread) (group.setClient id client) nodes consumed waking := by
  have self : (flags.setThread id thread).inside (.thread id) = flags.inside (.thread id) := by
    rw [EventFlags.inside, setThread_self, stageInside, EventFlags.inside]
  exact sound.moved client (sound.guarded.stay (inside_thread_ne timerInside) self) same
    (scene_setThread sound.scene same asThread asTimer) agrees timers

/-- A step of the thread that the client does not notice. -/
theorem Sound.threadMoves (sound : Sound flags group nodes consumed waking)
    (inside : thread.stage.inside = (flags.thread id).stage.inside)
    (timer : thread.timer.stage = (flags.thread id).timer.stage)
    (same : thread.waitreq.request = flags.request id)
    (scene : (flags.thread id).stage.Scene flags.events flags.request nodes consumed waking →
      thread.stage.Scene flags.events flags.request nodes consumed waking)
    (agrees : thread.Agrees flags.events (group.client id) (decide (id ∈ nodes))
      (decide (waking = some id)))
    (timers : thread.stage.TimerAgrees id thread.timer (decide (id ∈ nodes))) :
    Sound (flags.setThread id thread) group nodes consumed waking := by
  have stays := sound.stays (group.client id) inside (congrArg TimerStage.inside timer) same scene
    (fun scene => timer ▸ scene) agrees timers
  rw [setClient_self] at stays
  exact stays

/-- A step of a thread that is not walking the list. -/
theorem Sound.plainMoves (sound : Sound flags group nodes consumed waking)
    (inside : thread.stage.inside = (flags.thread id).stage.inside)
    (timer : thread.timer.stage = (flags.thread id).timer.stage)
    (same : thread.waitreq.request = flags.request id) (plainBefore : (flags.thread id).stage.walks = false)
    (plain : thread.stage.walks = false)
    (agrees : thread.Agrees flags.events (group.client id) (decide (id ∈ nodes))
      (decide (waking = some id)))
    (timers : thread.stage.TimerAgrees id thread.timer (decide (id ∈ nodes))) :
    Sound (flags.setThread id thread) group nodes consumed waking :=
  sound.threadMoves inside timer same
    (fun scene => (scene_iff_resting plain).mpr ((scene_iff_resting plainBefore).mp scene)) agrees timers

/-- A step of the timer that the client does not notice. -/
theorem Sound.timerMoves (sound : Sound flags group nodes consumed waking)
    (stage : thread.stage = (flags.thread id).stage)
    (inside : thread.timer.stage.inside = (flags.thread id).timer.stage.inside)
    (same : thread.waitreq.request = flags.request id)
    (scene : (flags.thread id).timer.stage.Scene flags.events flags.request nodes consumed waking →
      thread.timer.stage.Scene flags.events flags.request nodes consumed waking)
    (agrees : thread.Agrees flags.events (group.client id) (decide (id ∈ nodes))
      (decide (waking = some id)))
    (timers : thread.stage.TimerAgrees id thread.timer (decide (id ∈ nodes))) :
    Sound (flags.setThread id thread) group nodes consumed waking := by
  have stays := sound.stays (group.client id) (congrArg Stage.inside stage) inside same
    (fun scene => stage ▸ scene) scene agrees timers
  rw [setClient_self] at stays
  exact stays

/-- `vcos_mutex_lock`, by the thread. -/
theorem Sound.enters (sound : Sound flags group nodes consumed waking) (free : flags.owner = none)
    (inside : thread.stage.inside = true) (timer : thread.timer = (flags.thread id).timer)
    (same : thread.waitreq.request = flags.request id) (plain : thread.stage.walks = false)
    (agrees : thread.Agrees flags.events (group.client id) (decide (id ∈ nodes))
      (decide (waking = some id)))
    (timers : thread.stage.TimerAgrees id thread.timer (decide (id ∈ nodes))) :
    Sound { flags.setThread id thread with owner := some (.thread id) } group nodes consumed waking := by
  have guarded := sound.guarded
  have resting := sound.scene
  rw [free] at guarded
  rw [EventFlags.Scene, free] at resting
  have self : (flags.setThread id thread).inside (.thread id) = true := by
    rw [EventFlags.inside, setThread_self, inside]
  have moved := sound.moved (group.client id)
    (guarded.enter (inside_thread_ne (congrArg (fun timer => timer.stage.inside) timer)) self) same
    (by
      have requests := request_setThread same
      change ((flags.setThread id thread).thread id).stage.Scene flags.events
        (flags.setThread id thread).request nodes consumed waking
      rw [requests, setThread_self]
      exact (scene_iff_resting plain).mpr resting) agrees timers
  rw [setClient_self] at moved
  exact moved

/-- `vcos_mutex_unlock`, by the thread. -/
theorem Sound.leaves (sound : Sound flags group nodes consumed waking)
    (inside : (flags.thread id).stage.inside = true) (outside : thread.stage.inside = false)
    (timer : thread.timer = (flags.thread id).timer)
    (same : thread.waitreq.request = flags.request id) (plain : (flags.thread id).stage.walks = false)
    (agrees : thread.Agrees flags.events (group.client id) (decide (id ∈ nodes))
      (decide (waking = some id)))
    (timers : thread.stage.TimerAgrees id thread.timer (decide (id ∈ nodes))) :
    Sound { flags.setThread id thread with owner := none } group nodes consumed waking := by
  have owned := sound.guarded.owned (show flags.inside (.thread id) = true from inside)
  have owners := sound.scene
  rw [EventFlags.Scene, owned] at owners
  have self : (flags.setThread id thread).inside (.thread id) = false := by
    rw [EventFlags.inside, setThread_self, outside]
  have moved := sound.moved (group.client id)
    (sound.guarded.leave (inside_thread_ne (congrArg (fun timer => timer.stage.inside) timer)) inside self) same
    (by
      have requests := request_setThread same
      change Resting flags.events (flags.setThread id thread).request nodes consumed waking
      rw [requests]
      exact (scene_iff_resting plain).mp owners) agrees timers
  rw [setClient_self] at moved
  exact moved

/-- A step that keeps the lock as it is, whatever it does to the events and the list. -/
theorem sound_changed {after : EventFlags Id} (guarded : Excludes flags.inside flags.owner)
    (threads : after.thread = (flags.setThread id thread).thread) (owner : after.owner = flags.owner)
    (stageInside : thread.stage.inside = (flags.thread id).stage.inside)
    (timerInside : thread.timer.stage.inside = (flags.thread id).timer.stage.inside)
    (holds : after.waiters.Holds nodes) (nodup : nodes.Nodup) (scene : after.Scene nodes consumed waking)
    (agrees : thread.Agrees after.events (group.client id) (decide (id ∈ nodes))
      (decide (waking = some id)))
    (others : ∀ other, other ≠ id → (flags.thread other).Agrees after.events (group.client other)
      (decide (other ∈ nodes)) (decide (waking = some other)))
    (timers : thread.stage.TimerAgrees id thread.timer (decide (id ∈ nodes)))
    (otherTimers : ∀ other, other ≠ id → (flags.thread other).stage.TimerAgrees other
      (flags.thread other).timer (decide (other ∈ nodes)))
    (events : group.events = after.events &&& ~~~(consumed ||| pending after.events after.request nodes))
    (waiting : group.waiting =
      (nodes.filter fun node => !(after.request node).met after.events).map fun node =>
        (node, after.request node)) : Sound after group nodes consumed waking := by
  have own : after.thread id = thread := by rw [threads, setThread_self]
  have rest {other : Id} (elsewhere : other ≠ id) : after.thread other = flags.thread other := by
    rw [threads, setThread_ne elsewhere]
  have insides : after.inside = (flags.setThread id thread).inside := by
    funext worker
    cases worker <;> simp only [EventFlags.inside, threads]
  refine ⟨?_, holds, nodup, scene, ?_, ?_, events, waiting⟩
  · rw [insides, inside_setThread stageInside timerInside, owner]
    exact guarded
  · intro other
    by_cases here : other = id
    · rw [here, own]
      exact agrees
    · rw [rest here]
      exact others other here
  · intro other
    by_cases here : other = id
    · rw [here, own]
      exact timers
    · rw [rest here]
      exact otherTimers other here

end Moves

end RcControl.Vcos
