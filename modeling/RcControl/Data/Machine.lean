import Mathlib

namespace RcControl.Data

/-! Deterministic event machines.

A run consumes a finite list of events.  `Always` speaks about every state a run
visits and `Along` about every event together with the state it arrives in;
both recurse on the events, so a step lemma becomes a run lemma by one induction.
-/

/-- What one event does to the state, and what it emits on the way. -/
structure Machine (State Event Output : Type*) where
  next : State → Event → State
  emit : State → Event → Output

namespace Machine

variable {State Event Output : Type*}

def run (machine : Machine State Event Output) : State → List Event → State
  | state, [] => state
  | state, event :: events => machine.run (machine.next state event) events

def outputs (machine : Machine State Event Output) : State → List Event → List Output
  | _, [] => []
  | state, event :: events =>
      machine.emit state event :: machine.outputs (machine.next state event) events

def Along (machine : Machine State Event Output) (condition : State → Event → Prop) :
    State → List Event → Prop
  | _, [] => True
  | state, event :: events =>
      condition state event ∧ machine.Along condition (machine.next state event) events

def Always (machine : Machine State Event Output) (property : State → Prop) :
    State → List Event → Prop
  | state, [] => property state
  | state, event :: events =>
      property state ∧ machine.Always property (machine.next state event) events

def comap {Item : Type*} (machine : Machine State Event Output) (event : Item → Event) :
    Machine State Item Output where
  next state item := machine.next state (event item)
  emit state item := machine.emit state (event item)

variable (machine : Machine State Event Output)

instance decidableAlong {condition : State → Event → Prop}
    [decide : ∀ state event, Decidable (condition state event)] :
    (state : State) → (events : List Event) → Decidable (machine.Along condition state events)
  | _, [] => .isTrue trivial
  | state, event :: events =>
      @instDecidableAnd _ _ (decide state event) (decidableAlong (machine.next state event) events)

@[simp] theorem run_nil (state : State) : machine.run state [] = state := rfl

@[simp] theorem run_cons (state : State) (event : Event) (events : List Event) :
    machine.run state (event :: events) = machine.run (machine.next state event) events := rfl

@[simp] theorem outputs_nil (state : State) : machine.outputs state [] = [] := rfl

@[simp] theorem outputs_cons (state : State) (event : Event) (events : List Event) :
    machine.outputs state (event :: events) =
      machine.emit state event :: machine.outputs (machine.next state event) events := rfl

theorem run_append (state : State) (front back : List Event) :
    machine.run state (front ++ back) = machine.run (machine.run state front) back := by
  induction front generalizing state with
  | nil => rfl
  | cons event front ih => exact ih (machine.next state event)

theorem always_head {property : State → Prop} {state : State} {events : List Event}
    (always : machine.Always property state events) : property state := by
  cases events with
  | nil => exact always
  | cons event events => exact always.1

theorem always_run {property : State → Prop} {state : State} {events : List Event}
    (always : machine.Always property state events) : property (machine.run state events) := by
  induction events generalizing state with
  | nil => exact always
  | cons event events ih => exact ih always.2

theorem along_iff_split (condition : State → Event → Prop) (state : State)
    (events : List Event) :
    machine.Along condition state events ↔
      ∀ front event back, events = front ++ event :: back →
        condition (machine.run state front) event := by
  induction events generalizing state with
  | nil => simp [Along]
  | cons event events ih =>
      simp only [Along, ih]
      apply Iff.intro
      · intro every front chosen back split
        obtain ⟨head, tail⟩ := every
        cases front with
        | nil =>
            obtain ⟨rfl, rfl⟩ := List.cons.inj split
            exact head
        | cons first front =>
            obtain ⟨rfl, rfl⟩ := List.cons.inj split
            exact tail front chosen back rfl
      · intro every
        refine ⟨every [] event events rfl, fun front chosen back split => ?_⟩
        exact every (event :: front) chosen back (by rw [split]; rfl)

theorem outputs_append (state : State) (front back : List Event) :
    machine.outputs state (front ++ back) =
      machine.outputs state front ++ machine.outputs (machine.run state front) back := by
  induction front generalizing state with
  | nil => rfl
  | cons event front ih => exact congrArg (machine.emit state event :: ·) (ih (machine.next state event))

theorem run_concat (state : State) (front : List Event) (event : Event) :
    machine.run state (front ++ [event]) = machine.next (machine.run state front) event :=
  machine.run_append state front [event]

theorem along_append (condition : State → Event → Prop) (state : State)
    (front back : List Event) :
    machine.Along condition state (front ++ back) ↔
      machine.Along condition state front ∧ machine.Along condition (machine.run state front) back := by
  induction front generalizing state with
  | nil => simp [Along]
  | cons event front ih => simp only [List.cons_append, Along, ih, run_cons, and_assoc]

/-- The history rule: where a property of the past survives an event exactly when the
event meets the condition, it holds throughout the runs whose events all meet it. -/
theorem along_iff_histories (holds : List Event → Prop) {condition : State → Event → Prop}
    {state : State} (initial : holds [])
    (exact_step : ∀ past event, holds past →
      (condition (machine.run state past) event ↔ holds (past ++ [event])))
    (events : List Event) :
    machine.Along condition state events ↔ ∀ past, past <+: events → holds past := by
  induction events using List.reverseRecOn with
  | nil => simp [Along, initial]
  | append_singleton front event ih =>
      have single : machine.Along condition (machine.run state front) [event] ↔
          condition (machine.run state front) event := and_iff_left trivial
      rw [along_append, ih, single]
      apply Iff.intro
      · intro every past isPrefix
        obtain ⟨earlier, met⟩ := every
        rcases List.prefix_concat_iff.mp isPrefix with rfl | shorter
        · exact (exact_step front event (earlier front List.prefix_rfl)).mp met
        · exact earlier past shorter
      · intro every
        have earlier : ∀ past, past <+: front → holds past := fun past isPrefix =>
          every past (isPrefix.trans (List.prefix_append front [event]))
        refine ⟨earlier, (exact_step front event (earlier front List.prefix_rfl)).mpr ?_⟩
        exact every _ List.prefix_rfl

/-- Where a step keeps the invariant exactly when its event meets the condition, the
runs that stay inside the invariant are the runs whose events all meet it.  The guard
is what is known of every event beforehand. -/
theorem along_iff_always {invariant : State → Prop} {condition guard : State → Event → Prop}
    (exact_step : ∀ state event, guard state event → invariant state →
      (condition state event ↔ invariant (machine.next state event)))
    {state : State} {events : List Event} (guarded : machine.Along guard state events)
    (initial : invariant state) :
    machine.Along condition state events ↔ machine.Always invariant state events := by
  induction events generalizing state with
  | nil => simp [Along, Always, initial]
  | cons event events ih =>
      obtain ⟨now, later⟩ := guarded
      apply Iff.intro
      · intro along
        obtain ⟨met, rest⟩ := along
        have kept := (exact_step state event now initial).mp met
        exact ⟨initial, (ih later kept).mp rest⟩
      · intro always
        obtain ⟨_, rest⟩ := always
        have kept := machine.always_head rest
        exact ⟨(exact_step state event now initial).mpr kept, (ih later kept).mpr rest⟩

theorem outputs_of_along {condition : State → Event → Prop} {property : Output → Prop}
    (emitted : ∀ state event, condition state event → property (machine.emit state event))
    {state : State} {events : List Event} (along : machine.Along condition state events) :
    ∀ output ∈ machine.outputs state events, property output := by
  induction events generalizing state with
  | nil => simp
  | cons event events ih =>
      rw [outputs_cons, List.forall_mem_cons]
      exact ⟨emitted state event along.1, ih along.2⟩

/-- What holds of every state holds of the one behind each event. -/
theorem along_of_always {invariant : State → Prop} {state : State} {events : List Event}
    (always : machine.Always invariant state events) :
    machine.Along (fun state event => invariant (machine.next state event)) state events := by
  induction events generalizing state with
  | nil => trivial
  | cons event events ih => exact ⟨machine.always_head always.2, ih always.2⟩

/-- What holds of every state holds of the one each event arrives in. -/
theorem along_of_always_before {invariant : State → Prop} {state : State} {events : List Event}
    (always : machine.Always invariant state events) :
    machine.Along (fun state _ => invariant state) state events := by
  induction events generalizing state with
  | nil => trivial
  | cons event events ih => exact ⟨always.1, ih always.2⟩

theorem outputs_of_always {invariant : State → Prop} {property : Output → Prop}
    (emitted : ∀ state event, invariant (machine.next state event) →
      property (machine.emit state event))
    {state : State} {events : List Event} (always : machine.Always invariant state events) :
    ∀ output ∈ machine.outputs state events, property output :=
  machine.outputs_of_along emitted (machine.along_of_always always)

/-- An invariant that survives the events that meet a condition holds along their runs. -/
theorem always_of_along {invariant : State → Prop} {condition : State → Event → Prop}
    (preserved : ∀ state event, condition state event → invariant state →
      invariant (machine.next state event))
    {state : State} {events : List Event} (along : machine.Along condition state events)
    (initial : invariant state) : machine.Always invariant state events := by
  induction events generalizing state with
  | nil => exact initial
  | cons event events ih =>
      exact ⟨initial, ih along.2 (preserved state event along.1 initial)⟩

/-- An invariant that survives every event holds at every event of a run. -/
theorem along_of_invariant {invariant : State → Prop}
    (preserved : ∀ state event, invariant state → invariant (machine.next state event))
    {state : State} (initial : invariant state) (events : List Event) :
    machine.Along (fun state _ => invariant state) state events := by
  induction events generalizing state with
  | nil => trivial
  | cons event events ih => exact ⟨initial, ih (preserved state event initial)⟩

theorem always_of_invariant {invariant : State → Prop}
    (preserved : ∀ state event, invariant state → invariant (machine.next state event))
    {state : State} (initial : invariant state) (events : List Event) :
    machine.Always invariant state events := by
  have along := machine.along_of_invariant preserved initial events
  exact machine.always_of_along (fun state event _ => preserved state event) along initial

theorem along_mono {first second : State → Event → Prop}
    (weaker : ∀ state event, first state event → second state event)
    {state : State} {events : List Event} (along : machine.Along first state events) :
    machine.Along second state events := by
  induction events generalizing state with
  | nil => trivial
  | cons event events ih => exact ⟨weaker state event along.1, ih along.2⟩

theorem always_mono {first second : State → Prop} (weaker : ∀ state, first state → second state)
    {state : State} {events : List Event} (always : machine.Always first state events) :
    machine.Always second state events := by
  induction events generalizing state with
  | nil => exact weaker state always
  | cons event events ih => exact ⟨weaker state always.1, ih always.2⟩

/-- Two conditions that agree under an invariant hold along the same runs, if an event
that meets the first keeps the invariant. -/
theorem along_congr (invariant : State → Prop) {first second : State → Event → Prop}
    (agree : ∀ state event, invariant state → (first state event ↔ second state event))
    (kept : ∀ state event, invariant state → first state event →
      invariant (machine.next state event))
    {state : State} (initial : invariant state) (events : List Event) :
    machine.Along first state events ↔ machine.Along second state events := by
  induction events generalizing state with
  | nil => exact Iff.rfl
  | cons event events ih =>
      simp only [Along, ← agree state event initial]
      exact and_congr_right fun met => ih (kept state event initial met)

/-- Simulation: if each item drives two machines from related states to related states,
and the concrete output is a view of the abstract one, this holds of whole runs. -/
theorem simulation {State' Event' Output' Item : Type*} (abstract : Machine State' Event' Output')
    (related : State → State' → Prop) (event : Item → Event) (event' : Item → Event')
    (view : Output' → Output)
    (step : ∀ state state' item, related state state' →
      related (machine.next state (event item)) (abstract.next state' (event' item)) ∧
        machine.emit state (event item) = view (abstract.emit state' (event' item)))
    {state : State} {state' : State'} (initial : related state state') (items : List Item) :
    related (machine.run state (items.map event)) (abstract.run state' (items.map event')) ∧
      machine.outputs state (items.map event) =
        (abstract.outputs state' (items.map event')).map view := by
  induction items generalizing state state' with
  | nil => exact ⟨initial, rfl⟩
  | cons item items ih =>
      obtain ⟨related, emitted⟩ := step state state' item initial
      obtain ⟨finish, outputs⟩ := ih related
      exact ⟨finish, by simp only [List.map_cons, outputs_cons, emitted, outputs]⟩

end Machine

end RcControl.Data
