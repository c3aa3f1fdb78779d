import RcControl.Vcos.SetCall

namespace RcControl.Vcos

open RcControl.Data

/-! `vcos_generic_event_flags_get`, and the timer of the thread that waits. -/

variable {Id : Type*} [DecidableEq Id] {flags after : EventFlags Id} {group : Group Id 32}
  {nodes : List Id} {consumed : Unsigned} {waking : Option Id} {id : Id}

section Test

variable {bitmask op suspend : Unsigned}

theorem getConsume_eq (events bitmask op : Unsigned) :
    (if op &&& vcosConsume ≠ 0 then events &&& ~~~bitmask else events) =
      events &&& ~~~(requestOf bitmask op).takes := by
  rw [requestOf_takes]
  split
  · rfl
  · exact (and_not_zero events).symm

/-- What a thread that is at the test knows. -/
structure Testing (flags : EventFlags Id) (group : Group Id 32) (nodes : List Id) (id : Id)
    (bitmask op suspend : Unsigned) : Prop where
  within : (flags.thread id).stage.inside = true
  awake : Awake (flags.thread id).suspend (flags.thread id).timer.stage.posts (decide (id ∈ nodes)) false
  valid : (Call.get bitmask op suspend).Valid
  asked : group.client id = .asked (Call.get bitmask op suspend).asked
  quiet : Quiet (flags.thread id).timer
  unmet : ∀ node ∈ nodes, (flags.request node).met flags.events = false
  events : group.events = flags.events
  waiting : group.waiting = nodes.map fun node => (node, flags.request node)

theorem Sound.testing (sound : Sound flags group nodes consumed waking)
    (found : (flags.thread id).stage = .getTest bitmask op suspend) :
    consumed = 0 ∧ waking = none ∧ Testing flags group nodes id bitmask op suspend := by
  have agrees := sound.agrees id
  have timers := sound.timers id
  have within : (flags.thread id).stage.inside = true := by
    rw [found]
    rfl
  have resting := sound.ownScene within
  simp only [Thread.Agrees, found] at agrees
  simp only [found, Stage.TimerAgrees] at timers
  rw [found] at resting
  obtain ⟨awake, valid, asked⟩ := agrees
  obtain ⟨events, waiting⟩ := sound.atRest resting
  obtain ⟨rfl, rfl, unmet⟩ := resting
  exact ⟨rfl, rfl, within, awake, valid, asked, timers, unmet, events, waiting⟩

/-- The events are there. -/
theorem Sound.testMet (sound : Sound flags group nodes 0 none)
    (testing : Testing flags group nodes id bitmask op suspend)
    (met : (requestOf bitmask op).met flags.events = true) :
    Sound { flags.goTo id (.getUnlock .success flags.events) with
      events := flags.events &&& ~~~(requestOf bitmask op).takes } (group.act id) nodes 0 none := by
  obtain ⟨within, awake, valid, asked, quiet, unmet, events, waiting⟩ := testing
  have acts : group.act id = { group.setClient id (.answered (.events flags.events)) with
      events := flags.events &&& ~~~(requestOf bitmask op).takes } := by
    simp only [Group.act, asked, Call.asked, events, met, if_true]
  have requests : ∀ events, ({ flags.goTo id (.getUnlock .success flags.events) with events } :
      EventFlags Id).request = flags.request := fun _ => request_goTo flags id _
  have stillUnmet : ∀ node ∈ nodes, (flags.request node).met
      (flags.events &&& ~~~(requestOf bitmask op).takes) = false :=
    fun node member => Request.met_and (unmet node member) _
  rw [acts]
  refine sound_changed sound.guarded rfl rfl within.symm rfl sound.holds sound.nodup
    (scene_of_owner (sound.owned within) (goTo_stage flags id _) (requests _) ⟨rfl, rfl, stillUnmet⟩) ?_ ?_
    quiet (fun other _ => sound.timers other) ?_ ?_
  · simp only [Group.setClient, Function.update_self]
    exact ⟨awake, .events flags.events, rfl, rfl⟩
  · intro other elsewhere
    have before := (sound.agrees other).fewer (~~~(requestOf bitmask op).takes)
      fun listed => unmet other (of_decide_eq_true listed)
    simp only [Group.setClient, Function.update_of_ne elsewhere]
    exact before
  · rw [requests, pending_unmet stillUnmet, BitVec.or_self, and_not_zero]
  · rw [requests, filter_unmet stillUnmet]
    exact waiting

/-- The events are not there, and the caller does not want to wait. -/
theorem Sound.testFailed (sound : Sound flags group nodes 0 none)
    (testing : Testing flags group nodes id bitmask op 0)
    (unmet : (requestOf bitmask op).met flags.events = false) :
    Sound (flags.goTo id (.getUnlock .eagain 0)) (group.act id) nodes 0 none := by
  obtain ⟨within, awake, valid, asked, quiet, others, events, waiting⟩ := testing
  have acts : group.act id = group.setClient id (.answered .late) := by
    simp only [Group.act, asked, Call.asked, events, unmet]
    rfl
  rw [acts]
  exact sound.stays (.answered .late) within.symm rfl rfl (fun _ => ⟨rfl, rfl, others⟩) (fun scene => scene)
    ⟨awake, .late, rfl, rfl⟩ quiet

/-- The thread puts its waiter at the end of the list. -/
theorem Sound.testWaits (sound : Sound flags group nodes 0 none)
    (testing : Testing flags group nodes id bitmask op suspend)
    (unmet : (requestOf bitmask op).met flags.events = false) (waits : suspend ≠ 0) {stage : Stage Id}
    (next : suspend ≠ vcosSuspend ∧ stage = .timerSet suspend ∨
      suspend = vcosSuspend ∧ stage = .sleepUnlock suspend) :
    Sound { flags.setThread id { flags.thread id with waitreq := ⟨bitmask, 0, op, .eagain⟩, stage } with
      waiters := flags.waiters.append id } (group.act id) (nodes ++ [id]) 0 none := by
  obtain ⟨within, awake, valid, asked, quiet, others, events, waiting⟩ := testing
  have fresh : id ∉ nodes := of_decide_eq_false awake.unlisted
  have acts : group.act id = { group.setClient id (.waiting (suspend != vcosSuspend)) with
      waiting := group.waiting ++ [(id, requestOf bitmask op)] } := by
    have wait : (suspend != 0) = true := by simpa using waits
    simp only [Group.act, asked, Call.asked, events, unmet, wait, if_true]
    rfl
  generalize record : ({ flags.thread id with waitreq := ⟨bitmask, 0, op, .eagain⟩, stage } : Thread Id) =
    thread
  have own : (flags.setThread id thread).request id = requestOf bitmask op := by
    rw [EventFlags.request, setThread_self, ← record]
    rfl
  have rest : ∀ node ∈ nodes, (flags.setThread id thread).request node = flags.request node := by
    intro node member
    have elsewhere : node ≠ id := fun same => fresh (same ▸ member)
    rw [EventFlags.request, setThread_ne elsewhere, EventFlags.request]
  have allUnmet : ∀ node ∈ nodes ++ [id],
      ((flags.setThread id thread).request node).met flags.events = false := by
    intro node member
    rcases List.mem_append.mp member with older | here
    · rw [rest node older]
      exact others node older
    · rw [List.mem_singleton.mp here, own]
      exact unmet
  have stageIs : thread.stage = stage := by rw [← record]
  have resting : Resting flags.events (flags.setThread id thread).request (nodes ++ [id]) 0 none :=
    ⟨rfl, rfl, allUnmet⟩
  have listed : decide (id ∈ nodes ++ [id]) = true := decide_eq_true (by simp)
  have unlisted : ∀ other, other ≠ id → decide (other ∈ nodes ++ [id]) = decide (other ∈ nodes) := by
    intro other elsewhere
    simp [elsewhere]
  rw [acts]
  refine sound_changed sound.guarded rfl rfl ?_ ?_ (sound.holds.append fresh sound.nodup) ?_ ?_ ?_ ?_ ?_ ?_
    ?_ ?_
  · rw [stageIs, within]
    rcases next with ⟨-, rfl⟩ | ⟨-, rfl⟩ <;> rfl
  · rw [← record]
  · exact List.nodup_append.mpr ⟨sound.nodup, List.nodup_singleton id, by
      intro first member second single same
      rw [List.mem_singleton.mp single] at same
      exact fresh (same ▸ member)⟩
  · refine scene_of_owner (sound.owned within) (congrArg Thread.stage setThread_self) rfl ?_
    rw [stageIs]
    rcases next with ⟨-, rfl⟩ | ⟨-, rfl⟩ <;> exact resting
  · have asleep : Asleep flags.events thread.waitreq thread.suspend thread.timer.stage.posts
        (suspend != vcosSuspend) (.waiting (suspend != vcosSuspend)) true false := by
      rw [← record]
      refine .listed awake.unposted awake.quiet rfl valid ?_
      have unmetHere : (Waiter.request ⟨bitmask, 0, op, .eagain⟩).met flags.events = false := unmet
      rw [unmetHere]
      rfl
    simp only [Group.setClient, Function.update_self, listed, Thread.Agrees, stageIs]
    rcases next with ⟨-, rfl⟩ | ⟨-, rfl⟩ <;> exact ⟨waits, asleep⟩
  · intro other elsewhere
    simp only [Group.setClient, Function.update_of_ne elsewhere, unlisted other elsewhere]
    exact sound.agrees other
  · have timer : thread.timer = (flags.thread id).timer := by rw [← record]
    rw [stageIs, timer, listed]
    rcases next with ⟨timed, rfl⟩ | ⟨forever, rfl⟩
    · exact ⟨quiet, timed⟩
    · rw [Stage.TimerAgrees, if_pos forever]
      exact quiet
  · intro other elsewhere
    rw [unlisted other elsewhere]
    exact sound.timers other
  · change group.events = flags.events &&&
      ~~~(0 ||| pending flags.events (flags.setThread id thread).request (nodes ++ [id]))
    rw [pending_unmet allUnmet, BitVec.or_self, and_not_zero]
    exact events
  · change group.waiting ++ [(id, requestOf bitmask op)] =
      ((nodes ++ [id]).filter fun node => !((flags.setThread id thread).request node).met flags.events).map
        fun node => (node, (flags.setThread id thread).request node)
    rw [filter_unmet allUnmet, List.map_append, List.map_singleton, own, waiting]
    refine congrArg (· ++ [(id, requestOf bitmask op)]) (List.map_congr_left fun node member => ?_)
    rw [rest node member]

theorem Sound.test (sound : Sound flags group nodes consumed waking)
    (found : (flags.thread id).stage = .getTest bitmask op suspend)
    (step : flags.threadStep id = some after) : ∃ nodes, Sound after (group.act id) nodes 0 none := by
  obtain ⟨rfl, rfl, testing⟩ := sound.testing found
  simp only [EventFlags.threadStep, found, Option.some.injEq, EventFlags.getTest,
    getSatisfied_eq_met testing.valid, getConsume_eq, getRc_valid testing.valid] at step
  by_cases met : (requestOf bitmask op).met flags.events = true
  · rw [if_pos met] at step
    subst step
    exact ⟨nodes, sound.testMet testing met⟩
  · rw [if_neg met] at step
    have unmet : (requestOf bitmask op).met flags.events = false := by simpa using met
    by_cases waits : suspend ≠ 0
    · rw [if_pos waits] at step
      subst step
      refine ⟨nodes ++ [id], sound.testWaits testing unmet waits ?_⟩
      by_cases timed : suspend ≠ vcosSuspend
      · exact .inl ⟨timed, if_pos timed⟩
      · exact .inr ⟨not_not.mp timed, if_neg timed⟩
    · rw [if_neg waits] at step
      obtain rfl := not_not.mp waits
      subst step
      exact ⟨nodes, sound.testFailed testing unmet⟩

end Test

section Waits

/-- Taking the lock for a call. -/
theorem Sound.locks (sound : Sound flags group nodes consumed waking) {stage : Stage Id}
    (step : (flags.goTo id stage).lock (.thread id) = some after) (inside : stage.inside = true)
    (plain : stage.walks = false)
    (agrees : ((flags.thread id).goTo stage).Agrees flags.events (group.client id) (decide (id ∈ nodes))
      (decide (waking = some id)))
    (timers : stage.TimerAgrees id (flags.thread id).timer (decide (id ∈ nodes))) :
    Sound after group nodes consumed waking := by
  unfold EventFlags.lock at step
  split at step
  · rename_i free
    obtain rfl := Option.some.inj step
    exact sound.enters free inside rfl rfl plain agrees timers
  · cases step

/-- The steps that neither the group nor the list notices. -/
def Stage.quiet : Stage Id → Bool
  | .setEvents _ _ | .setWalk _ _ _ | .setWake _ _ _ _ | .setConsume _ | .getTest _ _ _ | .returned _ => false
  | _ => true

theorem Sound.quietStep (sound : Sound flags group nodes consumed waking)
    (quiet : (flags.thread id).stage.quiet = true) (step : flags.threadStep id = some after) :
    Sound after group nodes consumed waking := by
  have agrees := sound.agrees id
  have timers := sound.timers id
  cases found : (flags.thread id).stage with
  | idle => simp only [EventFlags.threadStep, found, reduceCtorEq] at step
  | setEvents | setWalk | setWake | setConsume | getTest | returned =>
      rw [found] at quiet
      cases quiet
  | setLock bitmask op | getLock bitmask op suspend =>
      simp only [EventFlags.threadStep, found] at step
      simp only [Thread.Agrees, found] at agrees
      simp only [found, Stage.TimerAgrees] at timers
      exact sound.locks step rfl rfl agrees timers
  | setUnlock =>
      simp only [EventFlags.threadStep, found, Option.some.injEq] at step
      simp only [Thread.Agrees, found] at agrees
      simp only [found, Stage.TimerAgrees] at timers
      subst step
      exact sound.leaves (by rw [found]; rfl) rfl rfl rfl (by rw [found]; rfl) ⟨agrees.1, .done, agrees.2, rfl⟩
        timers
  | getUnlock status bits | sleepUnlock suspend =>
      simp only [EventFlags.threadStep, found, Option.some.injEq] at step
      simp only [Thread.Agrees, found] at agrees
      simp only [found, Stage.TimerAgrees] at timers
      subst step
      exact sound.leaves (by rw [found]; rfl) rfl rfl rfl (by rw [found]; rfl) agrees timers
  | timerSet suspend =>
      simp only [EventFlags.threadStep, found, Option.some.injEq] at step
      simp only [Thread.Agrees, found] at agrees
      simp only [found, Stage.TimerAgrees] at timers
      obtain ⟨quiet, timed⟩ := timers
      subst step
      exact sound.plainMoves (by rw [found]; rfl) rfl rfl (by rw [found]; rfl) rfl agrees
        ⟨timed, quiet.stage, quiet.expires, rfl⟩
  | timerStart suspend =>
      simp only [Thread.Agrees, found] at agrees
      simp only [found, Stage.TimerAgrees] at timers
      obtain ⟨timed, waiting, -, routine⟩ := timers
      simp only [EventFlags.threadStep, found, if_neg agrees.1, if_pos waiting, Option.some.injEq] at step
      subst step
      refine sound.plainMoves (by rw [found]; rfl) rfl rfl (by rw [found]; rfl) rfl agrees ?_
      rw [Stage.TimerAgrees, if_neg timed]
      exact .armed waiting rfl routine
  | sleep suspend =>
      simp only [EventFlags.threadStep, found] at step
      simp only [Thread.Agrees, found] at agrees
      simp only [found, Stage.TimerAgrees] at timers
      split at step
      · cases step
      · rename_i posted
        obtain rfl := Option.some.inj step
        refine sound.plainMoves (by rw [found]; rfl) rfl rfl (by rw [found]; rfl) rfl ?_ timers
        have asleep := agrees.2
        generalize decide (id ∈ nodes) = listed at asleep ⊢
        generalize decide (waking = some id) = woken at asleep ⊢
        cases asleep with
        | listed unposted => exact absurd unposted posted
        | waking unposted => exact absurd unposted posted
        | timing unposted => exact absurd unposted posted
        | posted once quiet answered answer reply =>
            refine ⟨⟨?_, quiet, rfl, rfl⟩, answered, answer, reply.symm⟩
            change (flags.thread id).suspend - 1 = 0
            rw [once]
  | woken suspend =>
      simp only [EventFlags.threadStep, found] at step
      simp only [Thread.Agrees, found] at agrees
      simp only [found, Stage.TimerAgrees] at timers
      split at step
      · rename_i timed
        rw [if_neg timed] at timers
        obtain rfl := Option.some.inj step
        exact sound.plainMoves (by rw [found]; rfl) rfl rfl (by rw [found]; rfl) rfl agrees timers
      · rename_i forever
        rw [if_pos (not_not.mp forever)] at timers
        obtain rfl := Option.some.inj step
        exact sound.plainMoves (by rw [found]; rfl) rfl rfl (by rw [found]; rfl) rfl agrees timers
  | timerCancel status bits =>
      simp only [EventFlags.threadStep, found] at step
      simp only [Thread.Agrees, found] at agrees
      split at step
      · rename_i waiting
        obtain rfl := Option.some.inj step
        exact sound.plainMoves (by rw [found]; rfl) rfl rfl (by rw [found]; rfl) rfl agrees ⟨waiting, rfl⟩
      · cases step
  | timerClear status bits =>
      simp only [EventFlags.threadStep, found, Option.some.injEq] at step
      simp only [Thread.Agrees, found] at agrees
      simp only [found, Stage.TimerAgrees] at timers
      subst step
      exact sound.plainMoves (by rw [found]; rfl) rfl rfl (by rw [found]; rfl) rfl agrees
        ⟨timers.1, timers.2, rfl⟩

end Waits

end RcControl.Vcos
