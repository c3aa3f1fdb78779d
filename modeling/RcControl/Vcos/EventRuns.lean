import RcControl.Vcos.TimerCallback

namespace RcControl.Vcos

open RcControl.Data

/-! What the callers see of event flags, in every order of the steps. -/

variable {Id : Type*} [DecidableEq Id] {flags after : EventFlags Id} {group : Group Id 32}
  {nodes : List Id} {consumed : Unsigned} {waking : Option Id} {id : Id} {events : List (Event Id)}

section Outputs

/-- What a run shows begins with what its first event shows. -/
theorem reduceOption_outputs_cons {State Event Output : Type*} (machine : Machine State Event (Option Output))
    (state : State) (event : Event) (events : List Event) :
    (machine.outputs state (event :: events)).reduceOption =
      (machine.emit state event).toList ++ (machine.outputs (machine.next state event) events).reduceOption := by
  rw [Machine.outputs_cons, ← List.singleton_append, List.reduceOption_append, List.reduceOption_singleton]

end Outputs

section Events

/-- What the flags have become is what the group becomes by some actions, which show the same. -/
def Follows (group : Group Id 32) (after : EventFlags Id) (seen : List (Observed Id Call Reply))
    (actions : List (Action Id 32)) : Prop :=
  (∃ nodes consumed waking, Sound after ((eventGroup Id 32).run group actions) nodes consumed waking) ∧
    List.Forall₂ Matches seen ((eventGroup Id 32).outputs group actions).reduceOption

theorem Sound.follows (sound : Sound after group nodes consumed waking) : Follows group after [] [] :=
  ⟨⟨nodes, consumed, waking, sound⟩, .nil⟩

theorem Sound.follows_act (sound : Sound after (group.act id) nodes consumed waking) :
    Follows group after [] [.act id] :=
  ⟨⟨nodes, consumed, waking, sound⟩, .nil⟩

theorem Sound.follows_expire (sound : Sound after (group.expire id) nodes consumed waking) :
    Follows group after [] [.expire id] :=
  ⟨⟨nodes, consumed, waking, sound⟩, .nil⟩

theorem Sound.called (sound : Sound flags group nodes consumed waking) {call : Call} (valid : call.Valid)
    (idle : (flags.thread id).stage = .idle) :
    Follows group (flags.goTo id call.start) [.called id call] [.call id call.asked] := by
  have agrees := sound.agrees id
  have timers := sound.timers id
  simp only [Thread.Agrees, idle] at agrees
  simp only [idle, Stage.TimerAgrees] at timers
  obtain ⟨awake, asks⟩ := agrees
  have calls : (eventGroup Id 32).run group [.call id call.asked] = group.setClient id (.asked call.asked) :=
    if_pos asks
  have seen : (eventGroup Id 32).outputs group [.call id call.asked] = [some (.called id call.asked)] := by
    simp only [Machine.outputs, eventGroup, Group.emit, if_pos asks]
  refine ⟨⟨nodes, consumed, waking, ?_⟩, ?_⟩
  · rw [calls]
    refine sound.stays _ ?_ rfl rfl (fun scene => ?_) (fun scene => scene) ?_ ?_
    · rw [idle]
      cases call <;> rfl
    · rw [idle] at scene
      cases call <;> exact scene
    · cases call <;> exact ⟨awake, valid, rfl⟩
    · cases call <;> exact timers
  · rw [seen]
    exact .cons ⟨rfl, rfl⟩ .nil

theorem Sound.returned (sound : Sound flags group nodes consumed waking) {reply : Reply}
    (found : (flags.thread id).stage = .returned reply) :
    Follows group (flags.goTo id .idle) [.returned id reply] [.reply id] := by
  have agrees := sound.agrees id
  have timers := sound.timers id
  simp only [Thread.Agrees, found] at agrees
  simp only [found, Stage.TimerAgrees] at timers
  obtain ⟨awake, answered, answer, replies⟩ := agrees
  have idles : (eventGroup Id 32).run group [.reply id] = group.setClient id .idle := by
    simp only [Machine.run, eventGroup, Group.next, answer]
  have seen : (eventGroup Id 32).outputs group [.reply id] = [some (.returned id answered)] := by
    simp only [Machine.outputs, eventGroup, Group.emit, answer]
  refine ⟨⟨nodes, consumed, waking, ?_⟩, ?_⟩
  · rw [idles]
    refine sound.stays .idle (by rw [found]; rfl) rfl rfl (fun scene => ?_) (fun scene => scene)
      ⟨awake, rfl⟩ timers
    rw [found] at scene
    exact scene
  · rw [seen]
    exact .cons ⟨rfl, replies.symm⟩ .nil

theorem Sound.threadStep (sound : Sound flags group nodes consumed waking)
    (step : flags.threadStep id = some after) :
    ∃ actions, Follows group after (flags.emit (.step (.thread id))).toList actions := by
  cases found : (flags.thread id).stage with
  | setEvents bitmask op =>
      simp only [EventFlags.emit, found, Option.toList_none]
      exact ⟨_, (sound.setEvents found step).follows_act⟩
  | setWalk sofar prev current =>
      simp only [EventFlags.emit, found, Option.toList_none]
      obtain ⟨nodes, consumed, waking, soundAfter⟩ := sound.walk found step
      exact ⟨_, soundAfter.follows⟩
  | setWake sofar prev current waiter =>
      simp only [EventFlags.emit, found, Option.toList_none]
      exact ⟨_, (sound.wake found step).follows⟩
  | setConsume sofar =>
      simp only [EventFlags.emit, found, Option.toList_none]
      exact ⟨_, (sound.consume found step).follows⟩
  | getTest bitmask op suspend =>
      simp only [EventFlags.emit, found, Option.toList_none]
      obtain ⟨nodes, soundAfter⟩ := sound.test found step
      exact ⟨_, soundAfter.follows_act⟩
  | returned reply =>
      simp only [EventFlags.emit, found, Option.toList_some]
      simp only [EventFlags.threadStep, found, Option.some.injEq] at step
      subst step
      exact ⟨_, sound.returned found⟩
  | _ =>
      simp only [EventFlags.emit, found, Option.toList_none]
      exact ⟨_, (sound.quietStep (by rw [found]; rfl) step).follows⟩

theorem Sound.event (sound : Sound flags group nodes consumed waking) {event : Event Id}
    (valid : ValidCall flags event) :
    ∃ actions, Follows group (flags.next event) (flags.emit event).toList actions := by
  cases event with
  | call id call =>
      by_cases idle : (flags.thread id).stage = .idle
      · simp only [EventFlags.next, EventFlags.emit, if_pos idle, Option.toList_some]
        exact ⟨_, sound.called valid idle⟩
      · simp only [EventFlags.next, EventFlags.emit, if_neg idle, Option.toList_none]
        exact ⟨_, sound.follows⟩
  | step worker =>
      cases worker with
      | thread id =>
          simp only [EventFlags.next, EventFlags.step]
          cases step : flags.threadStep id with
          | some after => exact sound.threadStep step
          | none =>
              have nothing : flags.emit (.step (.thread id)) = none := by
                cases found : (flags.thread id).stage with
                | returned reply => simp only [EventFlags.threadStep, found, reduceCtorEq] at step
                | _ => simp only [EventFlags.emit, found]
              rw [nothing]
              exact ⟨_, sound.follows⟩
      | timer id =>
          simp only [EventFlags.next, EventFlags.step, EventFlags.emit, Option.toList_none]
          cases step : flags.timerStep id with
          | none => exact ⟨_, sound.follows⟩
          | some after =>
              obtain ⟨groupAfter, nodes, rfl | rfl, soundAfter⟩ := sound.timerStep step
              · exact ⟨_, soundAfter.follows⟩
              · exact ⟨_, soundAfter.follows_expire⟩

theorem Sound.run (sound : Sound flags group nodes consumed waking)
    (valid : (eventFlags Id).Along ValidCall flags events) :
    ∃ actions, Follows group ((eventFlags Id).run flags events)
      ((eventFlags Id).outputs flags events).reduceOption actions := by
  induction events generalizing flags group nodes consumed waking with
  | nil => exact ⟨[], sound.follows⟩
  | cons event events ih =>
      obtain ⟨first, ⟨nodesAfter, consumedAfter, wakingAfter, soundAfter⟩, seen⟩ := sound.event valid.1
      obtain ⟨rest, ended, seenRest⟩ := ih soundAfter valid.2
      refine ⟨first ++ rest, ?_, ?_⟩
      · rw [Machine.run_append]
        exact ended
      · rw [reduceOption_outputs_cons, Machine.outputs_append, List.reduceOption_append]
        exact List.rel_append seen seenRest

theorem create_sound : Sound (EventFlags.create Id) (Group.initial Id 32) [] 0 none where
  guarded := fun worker => by cases worker <;> simp [EventFlags.inside, EventFlags.create] <;> rfl
  holds := TailedList.empty_holds
  nodup := List.nodup_nil
  scene := ⟨rfl, rfl, by simp⟩
  agrees := fun id => ⟨⟨rfl, rfl, rfl, rfl⟩, rfl⟩
  timers := fun id => ⟨rfl, rfl, rfl⟩
  events := BitVec.zero_and.symm
  waiting := rfl

end Events

section Observations

/-- With the lock free, the word and the list are those of the group. -/
def Settled (flags : EventFlags Id) (group : Group Id 32) : Prop :=
  flags.owner = none → group.events = flags.events ∧
    ∃ nodes, flags.waiters.Holds nodes ∧ nodes.Nodup ∧
      group.waiting = nodes.map fun node => (node, flags.request node)

theorem Sound.settled (sound : Sound flags group nodes consumed waking) : Settled flags group := by
  intro free
  have resting := sound.scene
  rw [EventFlags.Scene, free] at resting
  obtain ⟨events, waiting⟩ := sound.atRest resting
  exact ⟨events, nodes, sound.holds, sound.nodup, waiting⟩

/-- The callers see what they would see of a group that does each call in one step. -/
theorem flags_refine_group (valid : (eventFlags Id).Along ValidCall (EventFlags.create Id) events) :
    ∃ actions,
      List.Forall₂ Matches ((eventFlags Id).outputs (EventFlags.create Id) events).reduceOption
        ((eventGroup Id 32).outputs (Group.initial Id 32) actions).reduceOption ∧
      Settled ((eventFlags Id).run (EventFlags.create Id) events)
        ((eventGroup Id 32).run (Group.initial Id 32) actions) := by
  obtain ⟨actions, ⟨nodes, consumed, waking, sound⟩, seen⟩ := create_sound.run valid
  exact ⟨actions, seen, sound.settled⟩

/-- A thread waits for an event. -/
def oneWaits : List (Event Bool) :=
  .call false (.get 1 vcosOr vcosSuspend) :: List.replicate 3 (.step (.thread false))

/-- A thread waits for an event, and another one raises it. -/
def handOver : List (Event Bool) :=
  oneWaits ++ .call true (.set 1 vcosOr) :: List.replicate 8 (.step (.thread true)) ++
    List.replicate 3 (.step (.thread false))

theorem flags_refine_group_handOver :
    ((eventFlags Bool).outputs (EventFlags.create Bool) handOver).reduceOption =
      [.called false (.get 1 vcosOr vcosSuspend), .called true (.set 1 vcosOr), .returned true .void,
        .returned false (.got .success 1)] ∧
    ∃ actions,
      List.Forall₂ Matches ((eventFlags Bool).outputs (EventFlags.create Bool) handOver).reduceOption
        ((eventGroup Bool 32).outputs (Group.initial Bool 32) actions).reduceOption ∧
      Settled ((eventFlags Bool).run (EventFlags.create Bool) handOver)
        ((eventGroup Bool 32).run (Group.initial Bool 32) actions) :=
  ⟨by decide +kernel, flags_refine_group (by decide +kernel)⟩

end Observations

end RcControl.Vcos
