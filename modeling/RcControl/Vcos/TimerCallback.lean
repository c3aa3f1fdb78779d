import RcControl.Vcos.GetCall

namespace RcControl.Vcos

open RcControl.Data

/-! `event_flags_timer_expired`, called by the thread of a timer. -/

variable {Id : Type*} {flags after : EventFlags Id} {group : Group Id 32} {nodes front back : List Id}
  {consumed : Unsigned} {waking : Option Id} {id : Id} {thread : Thread Id} {timer timerAfter : Timer Id}
  {stage : Stage Id} {listed listedAfter waking' : Bool} {events : Unsigned} {client : Client 32}

section Agreement

/-- A timer that is on its way belongs to a thread that waits, and may go on. -/
theorem Stage.TimerAgrees.busy (agrees : stage.TimerAgrees id timer listed)
    (busy : timer.expires = true ∨ timer.stage ≠ .waiting) :
    Ticking id timer listed ∧ ∀ timerAfter listedAfter, Ticking id timerAfter listedAfter →
      stage.TimerAgrees id timerAfter listedAfter := by
  have refute : ¬(timer.stage = .waiting ∧ timer.expires = false) := by
    rintro ⟨waiting, unarmed⟩
    rcases busy with armed | away
    · rw [unarmed] at armed
      cases armed
    · exact away waiting
  have notQuiet : ¬Quiet timer := fun quiet => refute ⟨quiet.stage, quiet.expires⟩
  cases stage with
  | timerCancel status bits => exact ⟨agrees, fun _ _ ticking => ticking⟩
  | sleepUnlock suspend | sleep suspend | woken suspend =>
      simp only [Stage.TimerAgrees] at agrees ⊢
      split at agrees
      · exact absurd agrees notQuiet
      · rename_i timed
        exact ⟨agrees, fun _ _ ticking => by rw [if_neg timed]; exact ticking⟩
  | timerSet suspend => exact absurd agrees.1 notQuiet
  | timerStart suspend => exact absurd ⟨agrees.2.1, agrees.2.2.1⟩ refute
  | timerClear status bits => exact absurd agrees refute
  | _ => exact absurd agrees notQuiet

/-- Only a get that is to be over at some time has its timer on its way. -/
theorem Stage.TimerAgrees.limited (agrees : stage.TimerAgrees id timer listed)
    (away : timer.stage ≠ .waiting) : stage.limited = true := by
  have notQuiet : ¬Quiet timer := fun quiet => away quiet.stage
  cases stage with
  | timerCancel status bits => rfl
  | sleepUnlock suspend | sleep suspend | woken suspend =>
      simp only [Stage.TimerAgrees] at agrees
      split at agrees
      · exact absurd agrees notQuiet
      · rename_i timed
        exact bne_iff_ne.mpr timed
  | timerSet suspend => exact absurd agrees.1 notQuiet
  | timerStart suspend => exact absurd agrees.2.1 away
  | timerClear status bits => exact absurd agrees.1 away
  | _ => exact absurd agrees notQuiet

/-- A callback under way is looking for the waiter of its thread, or through with the list. -/
theorem Ticking.under_way (ticking : Ticking id timer listed) (away : timer.stage ≠ .waiting) :
    (timer.stage.Seeks id ∨ timer.stage.Passed id ∧ listed = false) ∧ timer.expires = false ∧
      timer.routine = some id := by
  cases ticking with
  | armed waiting | fired waiting => exact absurd waiting away
  | seeking stage expires routine => exact ⟨.inl stage, expires, routine⟩
  | passed stage expires routine unlisted => exact ⟨.inr ⟨stage, unlisted⟩, expires, routine⟩

theorem Thread.Agrees.retimed (agrees : thread.Agrees events client listed waking')
    (posts : timerAfter.stage.posts = thread.timer.stage.posts) :
    ({ thread with timer := timerAfter } : Thread Id).Agrees events client listed waking' := by
  unfold Thread.Agrees at agrees ⊢
  simp only [posts]
  exact agrees

end Agreement

section Steps

variable [DecidableEq Id]

/-- A step of the timer that neither the thread nor the lock notices. -/
theorem Sound.timerKeeps (sound : Sound flags group nodes consumed waking)
    (inside : timerAfter.stage.inside = (flags.thread id).timer.stage.inside)
    (posts : timerAfter.stage.posts = (flags.thread id).timer.stage.posts)
    (scene : (flags.thread id).timer.stage.Scene flags.events flags.request nodes consumed waking →
      timerAfter.stage.Scene flags.events flags.request nodes consumed waking)
    (timers : (flags.thread id).stage.TimerAgrees id timerAfter (decide (id ∈ nodes))) :
    Sound (flags.setThread id { flags.thread id with timer := timerAfter }) group nodes consumed waking :=
  sound.timerMoves rfl inside rfl scene ((sound.agrees id).retimed posts) timers

/-- `vcos_mutex_lock`, by the timer. -/
theorem Sound.timerLocks (sound : Sound flags group nodes consumed waking)
    (found : (flags.thread id).timer.stage = .lock id)
    (timers : (flags.thread id).stage.TimerAgrees id
      { (flags.thread id).timer with stage := .walk id none .first } (decide (id ∈ nodes)))
    (step : (flags.timerGoTo id (.walk id none .first)).lock (.timer id) = some after) :
    Sound after group nodes consumed waking := by
  unfold EventFlags.lock at step
  split at step
  · rename_i free
    obtain rfl := Option.some.inj step
    have guarded := sound.guarded
    have resting := sound.scene
    change flags.owner = none at free
    rw [free] at guarded
    rw [EventFlags.Scene, free] at resting
    have requests : (flags.timerGoTo id (.walk id none .first)).request = flags.request :=
      request_setThread rfl
    have timer := timerGoTo_stage flags id (.walk id none .first)
    have guardedAfter : Excludes (flags.timerGoTo id (.walk id none .first)).inside (some (.timer id)) :=
      guarded.enter (inside_timer_ne rfl) (congrArg TimerStage.inside timer)
    have moved := sound.moved (group.client id) guardedAfter rfl
      (scene_of_timer rfl timer requests ⟨resting, [], ⟨⟨nodes, rfl⟩, rfl, rfl⟩, List.not_mem_nil⟩)
      ((sound.agrees id).retimed (by rw [found]; rfl)) timers
    rw [setClient_self] at moved
    exact moved
  · cases step

/-- `vcos_mutex_unlock`, by the timer. -/
theorem Sound.timerUnlocks (sound : Sound flags group nodes consumed waking) {thread : Option Id}
    (found : (flags.thread id).timer.stage = .unlock thread)
    (timers : (flags.thread id).stage.TimerAgrees id
      { (flags.thread id).timer with stage := thread.elim .clear .post } (decide (id ∈ nodes))) :
    Sound { flags.timerGoTo id (thread.elim .clear .post) with owner := none } group nodes consumed
      waking := by
  have within : flags.inside (.timer id) = true := by
    rw [EventFlags.inside, found]
    rfl
  have resting := sound.scene
  rw [EventFlags.Scene, sound.guarded.owned within] at resting
  simp only [found] at resting
  have requests : (flags.timerGoTo id (thread.elim .clear .post)).request = flags.request :=
    request_setThread rfl
  have timer := timerGoTo_stage flags id (thread.elim .clear .post)
  have guardedAfter : Excludes (flags.timerGoTo id (thread.elim .clear .post)).inside none := by
    refine sound.guarded.leave (inside_timer_ne rfl) within ?_
    rw [EventFlags.inside, timer]
    cases thread <;> rfl
  have moved := sound.moved (group.client id) guardedAfter rfl
    (by
      change Resting flags.events (flags.timerGoTo id _).request nodes consumed waking
      rw [requests]
      exact resting)
    ((sound.agrees id).retimed (by rw [found]; cases thread <;> rfl)) timers
  rw [setClient_self] at moved
  exact moved

/-- The timer takes the waiter of its thread out of the list: for the group its time is over. -/
theorem Sound.expired (sound : Sound flags group (front ++ id :: back) consumed waking)
    (found : (flags.thread id).timer.stage = .walk id front.getLast? (LinkedList.lastOf front))
    (timers : (flags.thread id).stage.TimerAgrees id
      { (flags.thread id).timer with stage := .unlock (some id) } false) :
    Sound { flags.timerGoTo id (.unlock (some id)) with
      waiters := flags.waiters.unlink front.getLast? (LinkedList.lastOf front) id }
      (group.expire id) (front ++ back) consumed waking := by
  have within : flags.inside (.timer id) = true := by
    rw [EventFlags.inside, found]
    rfl
  have owned := sound.guarded.owned within
  have scene := sound.scene
  rw [EventFlags.Scene, owned] at scene
  simp only [found] at scene
  obtain ⟨resting, -⟩ := scene
  obtain ⟨events, waiting⟩ := sound.atRest resting
  obtain ⟨rfl, rfl, unmet⟩ := resting
  have fewer : ∀ node ∈ front ++ back, node ∈ front ++ id :: back := fun node member =>
    (List.Sublist.append_left (List.sublist_cons_self id back) front).subset member
  have stillUnmet : ∀ node ∈ front ++ back, (flags.request node).met flags.events = false :=
    fun node member => unmet node (fewer node member)
  have before := sound.agrees id
  rw [decide_eq_true (by simp : id ∈ front ++ id :: back)] at before
  obtain ⟨unposted, fresh, waits⟩ : (flags.thread id).suspend = 0 ∧
      (flags.thread id).waitreq.reply = .got .eagain 0 ∧ group.client id = .waiting true := by
    cases before.asleep (.inl rfl) with
    | listed unposted quiet fresh valid answer =>
        have unmetHere : (flags.thread id).waitreq.request.met flags.events = false :=
          unmet id (by simp)
        rw [unmetHere, (sound.timers id).limited (by rw [found]; simp)] at answer
        exact ⟨unposted, fresh, answer⟩
  have expires : group.expire id = { group.setClient id (.answered .late) with
      waiting := group.waiting.filter fun waiter => decide (waiter.1 ≠ id) } := if_pos waits
  have requests : ∀ stage waiters, ({ flags.timerGoTo id stage with waiters } : EventFlags Id).request =
      flags.request := fun _ _ => request_setThread rfl
  rw [expires]
  refine sound_changed sound.guarded rfl rfl rfl ?_ (sound.holds.unlink sound.nodup)
    (sound.nodup.sublist (List.Sublist.append_left (List.sublist_cons_self id back) front))
    (scene_of_timer owned (timerGoTo_stage flags id _) (requests _ _) ⟨rfl, rfl, stillUnmet⟩) ?_ ?_ ?_ ?_ ?_ ?_
  · rw [found]
    rfl
  · rw [decide_eq_false (not_mem_without sound.nodup)]
    simp only [Group.setClient, Function.update_self]
    exact before.sleeper (.inl rfl) rfl (.timing unposted rfl fresh rfl)
  · intro other elsewhere
    rw [mem_without elsewhere]
    simp only [Group.setClient, Function.update_of_ne elsewhere]
    exact sound.agrees other
  · rw [decide_eq_false (not_mem_without sound.nodup)]
    exact timers
  · intro other elsewhere
    rw [mem_without elsewhere]
    exact sound.timers other
  · rw [requests]
    change group.events = flags.events &&& ~~~(0 ||| pending flags.events flags.request (front ++ back))
    rw [pending_unmet stillUnmet, BitVec.or_self, and_not_zero]
    exact events
  · rw [requests]
    change (group.waiting.filter fun waiter => decide (waiter.1 ≠ id)) =
      ((front ++ back).filter fun node => !(flags.request node).met flags.events).map fun node =>
        (node, flags.request node)
    have others : ((front ++ id :: back).filter fun node => decide (node ≠ id)) = front ++ back := by
      have absent := not_mem_without sound.nodup
      rw [List.filter_append, List.filter_cons_of_neg (by simp), ← List.filter_append]
      refine List.filter_eq_self.mpr fun node member => ?_
      have apart : node ≠ id := fun same => absent (same ▸ member)
      simpa using apart
    rw [filter_unmet stillUnmet, waiting, List.filter_map, ← others]
    rfl

/-- The callback walks the list. -/
theorem Sound.timerWalk (sound : Sound flags group nodes consumed waking) {prev : Option Id}
    {plist : Link Id} (found : (flags.thread id).timer.stage = .walk id prev plist)
    (step : flags.timerStep id = some after) :
    ∃ groupAfter nodes, (groupAfter = group ∨ groupAfter = group.expire id) ∧
      Sound after groupAfter nodes consumed waking := by
  obtain ⟨ticking, goesOn⟩ := (sound.timers id).busy (.inr (by rw [found]; simp))
  obtain ⟨-, expires, routine⟩ := ticking.under_way (by rw [found]; simp)
  have within : flags.inside (.timer id) = true := by
    rw [EventFlags.inside, found]
    rfl
  have scene := sound.scene
  rw [EventFlags.Scene, sound.guarded.owned within] at scene
  simp only [found] at scene
  obtain ⟨resting, front, behind, absent⟩ := scene
  obtain ⟨back, rfl, loaded⟩ := behind.next sound.holds
  cases back with
  | nil =>
      simp only [EventFlags.timerStep, found, loaded, List.head?_nil, Option.some.injEq] at step
      subst step
      refine ⟨group, _, .inl rfl, sound.timerKeeps (by rw [found]; rfl) (by rw [found]; rfl)
        (fun _ => resting) (goesOn _ _ (.passed trivial expires routine ?_))⟩
      rw [List.append_nil]
      exact decide_eq_false absent
  | cons node back =>
      simp only [EventFlags.timerStep, found, loaded, List.head?_cons] at step
      split at step
      · rename_i here
        subst here
        obtain rfl := Option.some.inj step
        obtain ⟨-, rfl, rfl⟩ := behind
        exact ⟨_, _, .inr rfl, sound.expired found (goesOn _ _ (.passed rfl expires routine rfl))⟩
      · rename_i elsewhere
        obtain rfl := Option.some.inj step
        refine ⟨group, _, .inl rfl, sound.timerKeeps (by rw [found]; rfl) (by rw [found]; rfl)
          (fun _ => ⟨resting, front ++ [node], Behind.further rfl, ?_⟩)
          (goesOn _ _ (.seeking rfl expires routine))⟩
        simpa using ⟨absent, Ne.symm elsewhere⟩

/-- The time has come. -/
theorem Sound.timerStarts (sound : Sound flags group nodes consumed waking)
    (found : (flags.thread id).timer.stage = .waiting) (step : flags.timerStep id = some after) :
    Sound after group nodes consumed waking := by
  simp only [EventFlags.timerStep, found] at step
  split at step
  · rename_i armed
    obtain rfl := Option.some.inj step
    obtain ⟨ticking, goesOn⟩ := (sound.timers id).busy (.inl armed)
    have routine : (flags.thread id).timer.routine = some id := by
      cases ticking with
      | armed _ _ routine | seeking _ _ routine | passed _ _ routine => exact routine
      | fired _ unarmed =>
          rw [unarmed] at armed
          cases armed
    refine sound.timerKeeps (by rw [found]; rfl) (by rw [found]; rfl) (fun scene => ?_)
      (goesOn _ _ (.seeking trivial rfl routine))
    rw [found] at scene
    exact scene
  · cases step

/-- The callback posts the thread it has taken out of the list. -/
theorem Sound.timerPosts (sound : Sound flags group nodes consumed waking)
    (found : (flags.thread id).timer.stage = .post id)
    (timers : (flags.thread id).stage.TimerAgrees id { (flags.thread id).timer with stage := .clear }
      (decide (id ∈ nodes))) :
    Sound ((flags.setThread id (flags.thread id).post).timerGoTo id .clear) group nodes consumed waking := by
  have agrees := sound.agrees id
  rw [timerGoTo_setThread]
  refine sound.timerMoves rfl (by rw [found]; rfl) rfl (fun scene => ?_) ?_ timers
  · rw [found] at scene
    exact scene
  · have posts : (flags.thread id).timer.stage.posts = true := by
      rw [found]
      rfl
    refine agrees.sleeper (.inr (.inr posts)) rfl ?_
    have asleep := agrees.asleep (.inr (.inr posts))
    generalize decide (id ∈ nodes) = listed at asleep ⊢
    generalize decide (waking = some id) = woken at asleep ⊢
    cases asleep with
    | timing unposted posting fresh answer =>
        exact .posted (congrArg Nat.succ unposted) rfl .late answer fresh
    | listed _ quiet | waking _ quiet | posted _ quiet =>
        rw [posts] at quiet
        cases quiet

theorem Sound.timerStep (sound : Sound flags group nodes consumed waking)
    (step : flags.timerStep id = some after) :
    ∃ groupAfter nodes, (groupAfter = group ∨ groupAfter = group.expire id) ∧
      Sound after groupAfter nodes consumed waking := by
  by_cases waiting : (flags.thread id).timer.stage = .waiting
  · exact ⟨group, nodes, .inl rfl, sound.timerStarts waiting step⟩
  obtain ⟨ticking, goesOn⟩ := (sound.timers id).busy (.inr waiting)
  obtain ⟨place, expires, routine⟩ := ticking.under_way waiting
  cases found : (flags.thread id).timer.stage with
  | waiting => exact absurd found waiting
  | expired =>
      simp only [EventFlags.timerStep, found, routine, Option.some.injEq] at step
      subst step
      refine ⟨group, nodes, .inl rfl, sound.timerKeeps (by rw [found]; rfl) (by rw [found]; rfl)
        (fun scene => ?_) (goesOn _ _ (.seeking rfl expires routine))⟩
      rw [found] at scene
      exact scene
  | lock waitreq =>
      rw [found] at place
      rcases place with same | ⟨passed, -⟩
      · obtain rfl : waitreq = id := same
        simp only [EventFlags.timerStep, found] at step
        exact ⟨group, nodes, .inl rfl, sound.timerLocks found (goesOn _ _ (.seeking rfl expires routine)) step⟩
      · cases passed
  | walk waitreq prev plist =>
      rw [found] at place
      rcases place with same | ⟨passed, -⟩
      · obtain rfl : waitreq = id := same
        exact sound.timerWalk found step
      · cases passed
  | unlock thread =>
      rw [found] at place
      rcases place with seeks | ⟨passed, unlisted⟩
      · cases seeks
      · simp only [EventFlags.timerStep, found, Option.some.injEq] at step
        subst step
        refine ⟨group, nodes, .inl rfl, sound.timerUnlocks found (goesOn _ _ ?_)⟩
        cases thread with
        | none => exact .passed trivial expires routine unlisted
        | some thread => exact .passed passed expires routine unlisted
  | post thread =>
      rw [found] at place
      rcases place with seeks | ⟨passed, unlisted⟩
      · cases seeks
      · obtain rfl : thread = id := passed
        simp only [EventFlags.timerStep, found, Option.some.injEq] at step
        subst step
        exact ⟨group, nodes, .inl rfl, sound.timerPosts found
          (goesOn _ _ (.passed trivial expires routine unlisted))⟩
  | clear =>
      rw [found] at place
      rcases place with seeks | ⟨-, unlisted⟩
      · cases seeks
      · simp only [EventFlags.timerStep, found, Option.some.injEq] at step
        subst step
        refine ⟨group, nodes, .inl rfl, sound.timerKeeps (by rw [found]; rfl) (by rw [found]; rfl)
          (fun scene => ?_) (goesOn _ _ (.fired rfl expires rfl unlisted))⟩
        rw [found] at scene
        exact scene

end Steps

end RcControl.Vcos
