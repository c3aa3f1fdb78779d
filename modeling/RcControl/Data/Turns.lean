import RcControl.Data.Machine

namespace RcControl.Data

/-! Turns in which everybody gets to go.

A rank says how far a state is from the end.  No event raises it, one that serves an enabled
party lowers it, and a party that is enabled stays so until it is served, or the rank falls
without it.  Then each turn that serves every party lowers the rank, in whatever order and
however often its events come. -/

namespace Machine

variable {State Event Output Party : Type*}

structure Descends (machine : Machine State Event Output) (invariant : State → Prop) (rank : State → Nat)
    (Serves : Event → Party → Prop) (parties : Set Party) (Enabled : State → Party → Prop) : Prop where
  kept : ∀ state event, invariant state → invariant (machine.next state event)
  falls : ∀ state event, invariant state → rank (machine.next state event) ≤ rank state
  lowers : ∀ state event party, invariant state → Enabled state party → Serves event party →
    rank (machine.next state event) < rank state
  stays : ∀ state event party, invariant state → Enabled state party → ¬ Serves event party →
    Enabled (machine.next state event) party ∨ rank (machine.next state event) < rank state
  goesOn : ∀ state, invariant state → 0 < rank state → ∃ party ∈ parties, Enabled state party

variable {machine : Machine State Event Output} {invariant : State → Prop} {rank : State → Nat}
  {Serves : Event → Party → Prop} {parties : Set Party} {Enabled : State → Party → Prop} {state : State}
  {party : Party}

theorem Descends.invariant_run (descends : machine.Descends invariant rank Serves parties Enabled)
    (holds : invariant state) (events : List Event) : invariant (machine.run state events) :=
  machine.always_run (machine.always_of_invariant descends.kept holds events)

theorem Descends.falls_run (descends : machine.Descends invariant rank Serves parties Enabled)
    (holds : invariant state) (events : List Event) : rank (machine.run state events) ≤ rank state := by
  induction events generalizing state with
  | nil => exact le_rfl
  | cons event events ih =>
      exact (ih (descends.kept state event holds)).trans (descends.falls state event holds)

/-- An enabled party is served in the turn. -/
theorem Descends.lowers_turn (descends : machine.Descends invariant rank Serves parties Enabled)
    (holds : invariant state) (enabled : Enabled state party) {turn : List Event}
    (served : ∃ event ∈ turn, Serves event party) : rank (machine.run state turn) < rank state := by
  induction turn generalizing state with
  | nil =>
      obtain ⟨event, inside, -⟩ := served
      cases inside
  | cons first turn ih =>
      have kept := descends.kept state first holds
      by_cases now : Serves first party
      · exact (descends.falls_run kept turn).trans_lt (descends.lowers state first party holds enabled now)
      · rcases descends.stays state first party holds enabled now with still | lower
        · obtain ⟨event, inside, serves⟩ := served
          have later : event ∈ turn := (List.mem_cons.mp inside).resolve_left fun same => now (same ▸ serves)
          exact (ih kept still ⟨event, later, serves⟩).trans_le (descends.falls state first holds)
        · exact (descends.falls_run kept turn).trans_lt lower

/-- After as many turns as the rank says, everything is done. -/
theorem Descends.ends (descends : machine.Descends invariant rank Serves parties Enabled)
    (holds : invariant state) {turns : List (List Event)}
    (everybody : ∀ turn ∈ turns, ∀ party ∈ parties, ∃ event ∈ turn, Serves event party)
    (enough : rank state ≤ turns.length) : rank (machine.run state turns.flatten) = 0 := by
  induction turns generalizing state with
  | nil => exact Nat.le_zero.mp enough
  | cons turn turns ih =>
      obtain ⟨first, others⟩ := List.forall_mem_cons.mp everybody
      rw [List.flatten_cons, machine.run_append]
      refine ih (descends.invariant_run holds turn) others ?_
      rw [List.length_cons] at enough
      by_cases done : rank state = 0
      · have fallen := descends.falls_run holds turn
        omega
      · obtain ⟨party, member, enabled⟩ := descends.goesOn state holds (Nat.pos_of_ne_zero done)
        have lowered := descends.lowers_turn holds enabled (first party member)
        omega

/-! Events that the rank pays for. -/

section Count

/-- How many events of a run are counted. -/
def count (machine : Machine State Event Output) (counts : State → Event → Bool) :
    State → List Event → Nat
  | _, [] => 0
  | state, event :: events =>
      (if counts state event then 1 else 0) + machine.count counts (machine.next state event) events

/-- Where each counted event lowers the rank and no other raises it, there are only so many. -/
theorem count_le_rank {condition : State → Event → Prop} {counts : State → Event → Bool}
    (kept : ∀ state event, invariant state → condition state event → invariant (machine.next state event))
    (falls : ∀ state event, invariant state → condition state event →
      rank (machine.next state event) + (if counts state event then 1 else 0) ≤ rank state)
    (holds : invariant state) {events : List Event} (along : machine.Along condition state events) :
    machine.count counts state events ≤ rank state := by
  induction events generalizing state with
  | nil => exact Nat.zero_le _
  | cons event events ih =>
      have rest := ih (kept state event holds along.1) along.2
      have paid := falls state event holds along.1
      rw [count]
      omega

end Count

/-! A machine that stops where something is done. -/

section Stopping

variable (machine) (done : State → Prop) [DecidablePred done]

def stopping : Machine State Event Output where
  next state event := if done state then state else machine.next state event
  emit := machine.emit

theorem run_stopping_done (at_ : done state) (events : List Event) :
    (machine.stopping done).run state events = state := by
  induction events with
  | nil => rfl
  | cons event events ih =>
      rw [run_cons, show (machine.stopping done).next state event = state from if_pos at_]
      exact ih

/-- It stops behind the events of the run that it takes. -/
theorem run_stopping (state : State) (events : List Event) :
    ∃ front, front <+: events ∧ (machine.stopping done).run state events = machine.run state front ∧
      machine.Along (fun state _ => ¬ done state) state front := by
  induction events generalizing state with
  | nil => exact ⟨[], List.nil_prefix, rfl, trivial⟩
  | cons event events ih =>
      by_cases at_ : done state
      · exact ⟨[], List.nil_prefix, machine.run_stopping_done done at_ _, trivial⟩
      · obtain ⟨front, before, same, along⟩ := ih (machine.next state event)
        refine ⟨event :: front, List.cons_prefix_cons.mpr ⟨rfl, before⟩, ?_, at_, along⟩
        rw [run_cons, show (machine.stopping done).next state event = _ from if_neg at_]
        exact same

end Stopping

end Machine

end RcControl.Data
