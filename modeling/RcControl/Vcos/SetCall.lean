import RcControl.Vcos.WaitingSteps

namespace RcControl.Vcos

open RcControl.Data

/-! `vcos_generic_event_flags_set`: the group changes where the events do, and the walk over
the list hands out what the group has answered. -/

variable {Id : Type*} {events : Unsigned} {request : Id → Request 32} {nodes front back : List Id}
  {node : Id}

section Pending

theorem unionOf_append {width : Nat} (front back : List (BitVec width)) :
    unionOf (front ++ back) = unionOf front ||| unionOf back := by
  induction front with
  | nil => simp [unionOf]
  | cons mask front ih =>
      change mask ||| unionOf (front ++ back) = (mask ||| unionOf front) ||| unionOf back
      rw [ih, BitVec.or_assoc]

theorem and_not_zero (events : Unsigned) : events &&& ~~~0 = events :=
  BitVec.and_allOnes

theorem zero_or (mask : Unsigned) : 0 ||| mask = mask :=
  BitVec.zero_or

theorem pending_append : pending events request (front ++ back) =
    pending events request front ||| pending events request back := by
  rw [pending, List.filter_append, List.map_append, unionOf_append, pending, pending]

theorem pending_unmet (unmet : ∀ node ∈ nodes, (request node).met events = false) :
    pending events request nodes = 0 := by
  have none : (nodes.filter fun node => (request node).met events) = [] := by
    refine List.filter_eq_nil_iff.mpr fun node member => ?_
    rw [unmet node member]
    exact Bool.false_ne_true
  rw [pending, none]
  rfl

theorem pending_cons (met : (request node).met events = true) :
    pending events request (node :: back) = (request node).takes ||| pending events request back := by
  rw [pending, List.filter_cons_of_pos (by simpa using met)]
  rfl

theorem filter_unmet (unmet : ∀ node ∈ nodes, (request node).met events = false) :
    (nodes.filter fun node => !(request node).met events) = nodes := by
  refine List.filter_eq_self.mpr fun node member => ?_
  rw [unmet node member]
  rfl

end Pending

section Tests

/-- The two tests are the same for an operation that the assertion lets pass. -/
theorem satisfied_eq_met {waiter : Waiter}
    (valid : (Call.get waiter.requestedEvents waiter.op 0).Valid) :
    waiter.satisfied events = waiter.request.met events := by
  have part : waiter.op &&& vcosAnd = (waiter.op &&& eventFlagOpMask) &&& vcosAnd := by
    rw [BitVec.and_assoc]
    rfl
  rw [Waiter.satisfied, Waiter.request, Request.met, requestOf, part]
  rcases valid with any | all
  · rw [any]
    rfl
  · rw [all]
    rfl

theorem requestOf_takes (bitmask op : Unsigned) :
    (requestOf bitmask op).takes = if op &&& vcosConsume ≠ 0 then bitmask else 0 := by
  simp only [Request.takes, requestOf, decide_eq_true_eq]

theorem consumed_takes (waiter : Waiter) (consumed : Unsigned) :
    (if waiter.op &&& vcosConsume ≠ 0 then consumed ||| waiter.requestedEvents else consumed) =
      consumed ||| waiter.request.takes := by
  rw [Waiter.request, requestOf_takes]
  split
  · rfl
  · exact BitVec.or_zero.symm

theorem getSatisfied_eq_met {bitmask op suspend : Unsigned} (valid : (Call.get bitmask op suspend).Valid) :
    getSatisfied events bitmask op = (requestOf bitmask op).met events := by
  rw [getSatisfied, Request.met, requestOf]
  rcases valid with any | all
  · rw [any]
    rfl
  · rw [all]
    rfl

theorem getRc_valid {bitmask op suspend : Unsigned} (valid : (Call.get bitmask op suspend).Valid) :
    getRc op = .eagain :=
  if_pos (Or.symm valid)

end Tests

section Positions

theorem Behind.next {flags : EventFlags Id} {prev : Option Id} {link : Link Id}
    (behind : Behind nodes front prev link) (holds : flags.waiters.Holds nodes) :
    ∃ back, nodes = front ++ back ∧ flags.waiters.load link = back.head? := by
  obtain ⟨⟨back, rfl⟩, -, rfl⟩ := behind
  exact ⟨back, rfl, holds.load⟩

theorem Behind.further (split : nodes = front ++ node :: back) :
    Behind nodes (front ++ [node]) (some node) (.next node) where
  split := ⟨back, by rw [split, List.append_assoc, List.singleton_append]⟩
  prev := by rw [List.getLast?_concat]
  link := LinkedList.lastOf_concat.symm

theorem mem_without [DecidableEq Id] {other : Id} (apart : other ≠ node) :
    decide (other ∈ front ++ back) = decide (other ∈ front ++ node :: back) := by
  simp [apart]

theorem not_mem_without (nodup : (front ++ node :: back).Nodup) : node ∉ front ++ back := by
  have moved := List.nodup_middle.mp nodup
  exact (List.nodup_cons.mp moved).1

end Positions

section Steps

variable [DecidableEq Id] {flags after : EventFlags Id} {group : Group Id 32} {consumed : Unsigned}
  {waking : Option Id} {id : Id}

theorem Sound.ownScene (sound : Sound flags group nodes consumed waking)
    (inside : (flags.thread id).stage.inside = true) :
    (flags.thread id).stage.Scene flags.events flags.request nodes consumed waking := by
  have owned := sound.guarded.owned (show flags.inside (.thread id) = true from inside)
  have scene := sound.scene
  rw [EventFlags.Scene, owned] at scene
  exact scene

theorem Sound.owned (sound : Sound flags group nodes consumed waking)
    (inside : (flags.thread id).stage.inside = true) : flags.owner = some (.thread id) :=
  sound.guarded.owned (show flags.inside (.thread id) = true from inside)

/-- With no set under way the group has the same events, and the waiters of the list. -/
theorem Sound.atRest (sound : Sound flags group nodes consumed waking)
    (resting : Resting flags.events flags.request nodes consumed waking) :
    group.events = flags.events ∧ group.waiting = nodes.map fun node => (node, flags.request node) := by
  have events := sound.events
  have waiting := sound.waiting
  rw [resting.unconsumed, pending_unmet resting.unmet] at events
  rw [filter_unmet resting.unmet] at waiting
  rw [BitVec.or_self, and_not_zero] at events
  exact ⟨events, waiting⟩

omit [DecidableEq Id] in
/-- The waiters that the new events meet. -/
theorem filter_met (waiting : group.waiting = nodes.map fun node => (node, flags.request node))
    (events : Unsigned) :
    (group.waiting.filter fun waiter => waiter.2.met events) =
      (nodes.filter fun node => (flags.request node).met events).map fun node =>
        (node, flags.request node) := by
  rw [waiting, List.filter_map]
  rfl

theorem Sound.released (sound : Sound flags group nodes consumed waking)
    (resting : Resting flags.events flags.request nodes consumed waking) (events : Unsigned) (other : Id) :
    (flags.thread other).Agrees events ((group.release events).client other) (decide (other ∈ nodes))
      false := by
  obtain ⟨-, waiting⟩ := sound.atRest resting
  have agrees := sound.agrees other
  rw [resting.unwoken] at agrees
  have answered : (group.release events).client other =
      if other ∈ nodes ∧ (flags.request other).met events = true then .answered (.events events)
      else group.client other := by
    simp only [Group.release, filter_met waiting, List.map_map, Function.comp_def, List.map_id',
      List.mem_filter]
  rw [answered]
  by_cases listed : other ∈ nodes
  · have unmet := resting.unmet other listed
    rw [decide_eq_true listed] at agrees ⊢
    refine agrees.sleeper (.inl rfl) rfl ?_
    cases agrees.asleep (.inl rfl) with
    | listed unposted quiet fresh valid answer =>
        rw [EventFlags.request] at unmet
        rw [unmet] at answer
        refine .listed unposted quiet fresh valid ?_
        simp only [listed, true_and, EventFlags.request, answer]
        rfl
  · rw [if_neg fun both => listed both.1]
    rw [decide_eq_false listed] at agrees ⊢
    exact agrees.unspoken events

theorem change_apply {bitmask op : Unsigned} (valid : (Call.set bitmask op).Valid) (events : Unsigned) :
    (if op = vcosOr then events ||| bitmask else if op = vcosAnd then events &&& bitmask else events) =
      (if op = vcosOr then Change.raise bitmask else .keep bitmask).apply events := by
  rcases valid with rfl | rfl <;> rfl

/-- The events change, and for the group all who are met have their answer. -/
theorem Sound.changed (sound : Sound flags group nodes consumed waking)
    (resting : Resting flags.events flags.request nodes consumed waking)
    (within : (flags.thread id).stage.inside = true) (events : Unsigned) {stage : Stage Id}
    (inside : stage.inside = true) (scene : stage.Scene events flags.request nodes 0 none)
    (agrees : ((flags.thread id).goTo stage).Agrees events (.answered .done) (decide (id ∈ nodes)) false)
    (timers : stage.TimerAgrees id (flags.thread id).timer (decide (id ∈ nodes))) :
    Sound { flags.goTo id stage with events } ((group.release events).setClient id (.answered .done))
      nodes 0 none := by
  obtain ⟨-, waiting⟩ := sound.atRest resting
  have requests : ({ flags.goTo id stage with events } : EventFlags Id).request = flags.request :=
    request_goTo flags id stage
  refine sound_changed sound.guarded rfl rfl (inside.trans within.symm) rfl sound.holds sound.nodup
    (scene_of_owner (sound.owned within) (goTo_stage flags id stage) requests scene) ?_ ?_ timers
    (fun other _ => sound.timers other) ?_ ?_
  · simp only [Group.setClient, Function.update_self]
    exact agrees
  · intro other elsewhere
    rw [setClient_ne _ elsewhere]
    exact sound.released resting events other
  · rw [requests, zero_or, pending]
    simp only [Group.setClient, Group.release, filter_met waiting, List.map_map, Function.comp_def]
  · rw [requests]
    simp only [Group.setClient, Group.release, waiting, List.filter_map, Function.comp_def]

theorem Sound.setEvents (sound : Sound flags group nodes consumed waking) {bitmask op : Unsigned}
    (found : (flags.thread id).stage = .setEvents bitmask op) (step : flags.threadStep id = some after) :
    Sound after (group.act id) nodes 0 none := by
  have agrees := sound.agrees id
  have timers := sound.timers id
  have within : (flags.thread id).stage.inside = true := by
    rw [found]
    rfl
  have resting := sound.ownScene within
  simp only [Thread.Agrees, found] at agrees
  simp only [found, Stage.TimerAgrees] at timers
  rw [found] at resting
  obtain ⟨awake, valid, asked⟩ := agrees
  obtain ⟨sameEvents, -⟩ := sound.atRest resting
  have acts : group.act id = (group.release
      ((if op = vcosOr then Change.raise bitmask else .keep bitmask).apply flags.events)).setClient id
        (.answered .done) := by
    simp only [Group.act, asked, Call.asked, sameEvents]
  simp only [EventFlags.threadStep, found, Option.some.injEq, change_apply valid] at step
  rw [acts]
  subst step
  by_cases empty : flags.waiters.head = none
  · rw [if_pos empty]
    have nobody : nodes = [] := by
      have linked := sound.holds.linked
      rw [empty] at linked
      cases nodes with
      | nil => rfl
      | cons node nodes => cases linked.1
    refine sound.changed resting within _ rfl ⟨rfl, rfl, ?_⟩ ⟨?_, rfl⟩ timers
    · simp [nobody]
    · exact ⟨awake.unposted, awake.quiet, awake.unlisted, rfl⟩
  · rw [if_neg empty]
    refine sound.changed resting within _ rfl ⟨rfl, rfl, [], ⟨⟨nodes, rfl⟩, rfl, rfl⟩, by simp⟩ ⟨?_, rfl⟩
      timers
    exact ⟨awake.unposted, awake.quiet, awake.unlisted, rfl⟩

/-- The walk takes a waiter that is met out of the list. -/
theorem Sound.walkMet (sound : Sound flags group (front ++ node :: back) consumed none)
    (found : (flags.thread id).stage = .setWalk consumed front.getLast? (LinkedList.lastOf front))
    (unmet : ∀ node ∈ front, (flags.request node).met flags.events = false)
    (met : (flags.request node).met flags.events = true) :
    Sound { flags.goTo id (.setWake (consumed ||| (flags.request node).takes) front.getLast?
        (LinkedList.lastOf front) node) with
      waiters := flags.waiters.unlink front.getLast? (LinkedList.lastOf front) node } group (front ++ back)
      (consumed ||| (flags.request node).takes) (some node) := by
  have agrees := sound.agrees id
  have timers := sound.timers id
  simp only [Thread.Agrees, found] at agrees
  simp only [found, Stage.TimerAgrees] at timers
  obtain ⟨awake, answered⟩ := agrees
  have within : (flags.thread id).stage.inside = true := by
    rw [found]
    rfl
  have apart : node ≠ id := by
    rintro rfl
    have unlisted := awake.unlisted
    simp at unlisted
  have nodup : (front ++ back).Nodup :=
    sound.nodup.sublist (List.Sublist.append_left (List.sublist_cons_self node back) front)
  have requests : ∀ stage waiters, ({ flags.goTo id stage with waiters } : EventFlags Id).request =
      flags.request := fun stage _ => request_goTo flags id stage
  refine sound_changed sound.guarded rfl rfl within.symm rfl (sound.holds.unlink sound.nodup) nodup
    (scene_of_owner (sound.owned within) (goTo_stage flags id _) (requests _ _)
      ⟨rfl, rfl, front, ⟨⟨back, rfl⟩, rfl, rfl⟩, unmet⟩) ?_ ?_ ?_ ?_ ?_ ?_
  · refine ⟨⟨awake.unposted, awake.quiet, ?_, decide_eq_false (by simpa using apart)⟩, answered⟩
    rw [mem_without (Ne.symm apart)]
    exact awake.unlisted
  · intro other elsewhere
    have before := sound.agrees other
    by_cases woken : other = node
    · subst woken
      rw [decide_eq_true (by simp : other ∈ front ++ other :: back)] at before
      rw [decide_eq_false (not_mem_without sound.nodup), decide_eq_true rfl]
      refine before.sleeper (.inl rfl) rfl ?_
      cases before.asleep (.inl rfl) with
      | listed unposted quiet fresh valid answer =>
          rw [EventFlags.request] at met
          rw [met] at answer
          exact .waking unposted quiet answer
    · have asleep : decide (some node = some other) = false :=
        decide_eq_false (by simpa using Ne.symm woken)
      rw [mem_without woken, asleep]
      exact before
  · exact timers
  · intro other elsewhere
    have before := sound.timers other
    by_cases woken : other = node
    · subst woken
      rw [decide_eq_false (not_mem_without sound.nodup)]
      exact before.unlist
    · rw [mem_without woken]
      exact before
  · have events := sound.events
    rw [pending_append, pending_unmet unmet, zero_or, pending_cons met, ← BitVec.or_assoc] at events
    rw [requests]
    change _ = flags.events &&& ~~~(_ ||| pending flags.events flags.request (front ++ back))
    rw [pending_append, pending_unmet unmet, zero_or]
    exact events
  · have waiting := sound.waiting
    rw [List.filter_append, List.filter_cons_of_neg (by simp [met]), ← List.filter_append] at waiting
    rw [requests]
    exact waiting

theorem Sound.walk (sound : Sound flags group nodes consumed waking) {sofar : Unsigned} {prev : Option Id}
    {current : Link Id} (found : (flags.thread id).stage = .setWalk sofar prev current)
    (step : flags.threadStep id = some after) :
    ∃ nodes consumed waking, Sound after group nodes consumed waking := by
  have agrees := sound.agrees id
  have timers := sound.timers id
  have within : (flags.thread id).stage.inside = true := by
    rw [found]
    rfl
  have scene := sound.ownScene within
  simp only [Thread.Agrees, found] at agrees
  simp only [found, Stage.TimerAgrees] at timers
  rw [found] at scene
  obtain ⟨awake, answered⟩ := agrees
  obtain ⟨rfl, rfl, front, behind, unmet⟩ := scene
  obtain ⟨back, rfl, loaded⟩ := behind.next sound.holds
  cases back with
  | nil =>
      simp only [EventFlags.threadStep, found, loaded, List.head?_nil, Option.some.injEq] at step
      subst step
      refine ⟨_, _, _, sound.threadMoves (by rw [found]; rfl) rfl rfl (fun _ => ⟨rfl, rfl, ?_⟩) ⟨awake, answered⟩
        timers⟩
      rw [List.append_nil]
      exact unmet
  | cons node back =>
      have listed := sound.agrees node
      rw [decide_eq_true (by simp : node ∈ front ++ node :: back)] at listed
      have same : (flags.thread node).waitreq.satisfied flags.events =
          (flags.request node).met flags.events := by
        cases listed.asleep (.inl rfl) with
        | listed unposted quiet fresh valid answer => exact satisfied_eq_met valid
      simp only [EventFlags.threadStep, found, loaded, List.head?_cons, same] at step
      split at step
      · rename_i met
        obtain rfl := Option.some.inj step
        obtain ⟨-, rfl, rfl⟩ := behind
        rw [consumed_takes]
        exact ⟨_, _, _, sound.walkMet found unmet met⟩
      · rename_i not_met
        obtain rfl := Option.some.inj step
        refine ⟨_, _, _, sound.threadMoves (by rw [found]; rfl) rfl rfl
          (fun _ => ⟨rfl, rfl, front ++ [node], Behind.further rfl, ?_⟩) ⟨awake, answered⟩
          timers⟩
        intro other member
        rcases List.mem_append.mp member with earlier | here
        · exact unmet other earlier
        · obtain rfl := List.mem_singleton.mp here
          simpa using not_met

/-- The waiter gets its answer, and its semaphore is posted. -/
theorem Sound.wake (sound : Sound flags group nodes consumed waking) {sofar : Unsigned}
    {prev : Option Id} {current : Link Id} {waiter : Id}
    (found : (flags.thread id).stage = .setWake sofar prev current waiter)
    (step : flags.threadStep id = some after) : Sound after group nodes consumed none := by
  have agrees := sound.agrees id
  have timers := sound.timers id
  have within : (flags.thread id).stage.inside = true := by
    rw [found]
    rfl
  have scene := sound.ownScene within
  have owned := sound.owned within
  simp only [Thread.Agrees, found] at agrees
  simp only [found, Stage.TimerAgrees] at timers
  rw [found] at scene
  obtain ⟨awake, answered⟩ := agrees
  obtain ⟨rfl, rfl, walking⟩ := scene
  have apart : waiter ≠ id := by
    rintro rfl
    simpa using awake.unwoken
  have unlisted : waiter ∉ nodes := by
    have before := sound.agrees waiter
    rw [decide_eq_true rfl] at before
    generalize listed : decide (waiter ∈ nodes) = inList at before
    cases before.asleep (.inr (.inl rfl)) with
    | waking unposted quiet answer => exact of_decide_eq_false listed
  simp only [EventFlags.threadStep, found, Option.some.injEq] at step
  generalize record : ((flags.thread waiter).wake flags.events).post = woken at step
  have stage : woken.stage = (flags.thread waiter).stage := by
    rw [← record]
    rfl
  have requests : (flags.setThread waiter woken).request = flags.request :=
    request_setThread (by rw [← record]; rfl)
  have insides : (flags.setThread waiter woken).inside = flags.inside :=
    inside_setThread (congrArg Stage.inside stage) (by rw [← record]; rfl)
  have ownThread : (flags.setThread waiter woken).thread id = flags.thread id := setThread_ne (Ne.symm apart)
  have guarded : Excludes (flags.setThread waiter woken).inside (flags.setThread waiter woken).owner :=
    insides ▸ sound.guarded
  have sameRequests : ((flags.setThread waiter woken).goTo id (.setWalk consumed prev current)).request =
      flags.request := (request_goTo _ id _).trans requests
  subst step
  refine sound_changed guarded rfl rfl ?_ rfl sound.holds sound.nodup
    (scene_of_owner owned (goTo_stage _ id _) sameRequests ⟨rfl, rfl, walking⟩) ?_ ?_ ?_ ?_ ?_ ?_
  · rw [ownThread]
    exact within.symm
  · rw [ownThread]
    exact ⟨⟨awake.unposted, awake.quiet, awake.unlisted, rfl⟩, answered⟩
  · intro other elsewhere
    have before := sound.agrees other
    by_cases here : other = waiter
    · subst here
      rw [decide_eq_true rfl, decide_eq_false unlisted] at before
      rw [setThread_self, decide_eq_false unlisted]
      refine before.sleeper (.inr (.inl rfl)) stage ?_
      cases before.asleep (.inr (.inl rfl)) with
      | waking unposted quiet answer =>
          rw [← record]
          exact .posted (congrArg Nat.succ unposted) quiet _ answer rfl
    · have asleep : decide (some waiter = some other) = false :=
        decide_eq_false (by simpa using Ne.symm here)
      rw [setThread_ne here]
      rw [asleep] at before
      exact before
  · rw [ownThread]
    exact timers
  · intro other elsewhere
    have before := sound.timers other
    by_cases here : other = waiter
    · subst here
      rw [setThread_self, ← record]
      exact before
    · rw [setThread_ne here]
      exact before
  · rw [sameRequests]
    exact sound.events
  · rw [sameRequests]
    exact sound.waiting

/-- What the waiters have taken goes, and those that are left are met no more than before. -/
theorem Sound.consume (sound : Sound flags group nodes consumed waking) {sofar : Unsigned}
    (found : (flags.thread id).stage = .setConsume sofar) (step : flags.threadStep id = some after) :
    Sound after group nodes 0 none := by
  have agrees := sound.agrees id
  have timers := sound.timers id
  have within : (flags.thread id).stage.inside = true := by
    rw [found]
    rfl
  have scene := sound.ownScene within
  simp only [Thread.Agrees, found] at agrees
  simp only [found, Stage.TimerAgrees] at timers
  rw [found] at scene
  obtain ⟨awake, answered⟩ := agrees
  obtain ⟨rfl, rfl, unmet⟩ := scene
  simp only [EventFlags.threadStep, found, Option.some.injEq] at step
  subst step
  have stillUnmet : ∀ node ∈ nodes, (flags.request node).met (flags.events &&& ~~~consumed) = false :=
    fun node member => Request.met_and (unmet node member) _
  have requests : ∀ events, ({ flags.goTo id .setUnlock with events } : EventFlags Id).request =
      flags.request := fun _ => request_goTo flags id .setUnlock
  refine sound_changed sound.guarded rfl rfl within.symm rfl sound.holds sound.nodup
    (scene_of_owner (sound.owned within) (goTo_stage flags id _) (requests _) ⟨rfl, rfl, stillUnmet⟩)
    ⟨awake, answered⟩ (fun other _ => ?_) timers (fun other _ => sound.timers other) ?_ ?_
  · exact (sound.agrees other).fewer _ fun listed => unmet other (of_decide_eq_true listed)
  · have events := sound.events
    rw [pending_unmet unmet] at events
    rw [requests, pending_unmet stillUnmet, BitVec.or_self, and_not_zero]
    exact events.trans (congrArg (fun mask => flags.events &&& ~~~mask) BitVec.or_zero)
  · have waiting := sound.waiting
    rw [filter_unmet unmet] at waiting
    rw [requests, filter_unmet stillUnmet]
    exact waiting

end Steps

end RcControl.Vcos
