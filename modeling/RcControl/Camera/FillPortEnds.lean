import RcControl.Camera.FillPortRank
import RcControl.Data.Turns

namespace RcControl.Camera

open RcControl.Data RcControl.Mmal

/-! That a call of `fill_port_from_pool` ends, in turns in which everybody gets to go.

The main loop and the callbacks come in any order and as often as they like in a turn.  A
callback that never went on with its put could keep the main loop reading a length above zero
and getting nothing, or waiting for the lock. -/

variable {headersNum : Pool → Nat} {port : Port} {pool : Pool} {offered gone : List Header}
  {passed : Queue → Multiset Header} {contents : Queue → List Header} {state : Circuit} {caller : Caller}
  {queue : Queue} {thread : Nat} {call : Call Header} {stage : Mmal.Thread Header} {header : Header}

def Circuit.Fair (headersNum : Pool → Nat) (turn : List Circuit.Event) : Prop :=
  (∃ stop sent, .main stop sent ∈ turn) ∧ ∀ header ∈ allHeaders headersNum, .callback header ∈ turn

/-- The main loop and the callbacks. -/
def parties (headersNum : Pool → Nat) : Set Caller :=
  {caller | ∀ header, caller = .callback header → header ∈ allHeaders headersNum}

/-- So many steps or turns are enough for a call. -/
def turnsEnough (headersNum : Pool → Nat) (pool : Pool) : Nat :=
  20 + 11 * headersNum pool + 160 * (allHeaders headersNum).length

/-- A step of the main loop while no callback has the lock of the port's pool. -/
def Circuit.Event.unblocked (port : Port) (state : Circuit) : Circuit.Event → Bool
  | .main _ _ => !state.blocked port.source
  | .returns _ _ | .callback _ => false

/-- What a call does, from the state that it is entered in, through any events while it lasts;
and that it does not last for ever, if everybody gets to go. -/
structure FillsPort (headersNum : Pool → Nat) (port : Port) (pool : Pool) (entry : Circuit) : Prop where
  sends : ∀ events, circuit.Along (fun state _ => state.main.InCall port) entry events →
    (circuit.run entry events).Sent headersNum port pool (entry.offered port)
  stops : ∀ events, circuit.Along (fun state _ => state.main.InCall port) entry events →
    ¬ (circuit.run entry events).main.InCall port →
    ∃ front last, events = front ++ [last] ∧
      Leaves port (circuit.run entry front) (circuit.run entry events)
  steps : ∀ events, circuit.Along (fun state _ => state.main.InCall port) entry events →
    circuit.count (Circuit.Event.unblocked port) entry events ≤ turnsEnough headersNum pool
  ends : ∀ turns : List (List Circuit.Event), (∀ turn ∈ turns, Circuit.Fair headersNum turn) →
    turnsEnough headersNum pool ≤ turns.length →
    ∃ front, front <+: turns.flatten ∧
      circuit.Along (fun state _ => state.main.InCall port) entry front ∧
      ¬ (circuit.run entry front).main.InCall port

section Turns

variable {limit : Nat} {event : Circuit.Event}

def Lasts (headersNum : Pool → Nat) (port : Port) (offered : List Header) (state : Circuit) : Prop :=
  state.main.InCall port →
    ∃ gone passed contents, Waiting headersNum port offered gone passed contents state

/-- The main loop and its callbacks, up to the end of the call. -/
def fillPort (port : Port) : Machine Circuit Circuit.Event Unit :=
  circuit.stopping fun state => ¬ state.main.InCall port

theorem fillPort_next (during : state.main.InCall port) (event : Circuit.Event) :
    (fillPort port).next state event = state.next event :=
  if_neg (not_not.mpr during)

theorem fillPort_left (left : ¬ state.main.InCall port) (event : Circuit.Event) :
    (fillPort port).next state event = state :=
  if_pos left

theorem inCall_of_rank (positive : 0 < state.rank headersNum port limit) : state.main.InCall port := by
  by_contra left
  rw [Circuit.rank, if_neg left] at positive
  exact absurd positive (Nat.lt_irrefl 0)

theorem Circuit.Enabled.inCall (enabled : state.Enabled port caller) : state.main.InCall port := by
  cases caller with
  | mainLoop => exact enabled.1
  | callback header => exact enabled.1

theorem Lasts.next (feeds : port.source = .pool pool) (lasts : Lasts headersNum port offered state)
    (during : state.main.InCall port) (event : Circuit.Event) :
    Lasts headersNum port offered (state.next event) := by
  obtain ⟨gone, passed, contents, waiting⟩ := lasts during
  exact fun inCall => (waiting.next feeds event).resolve_right (not_not.mpr inCall)

theorem lasts_next (feeds : port.source = .pool pool) (lasts : Lasts headersNum port offered state)
    (event : Circuit.Event) : Lasts headersNum port offered ((fillPort port).next state event) := by
  by_cases during : state.main.InCall port
  · rw [fillPort_next during]
    exact lasts.next feeds during event
  · rw [fillPort_left during]
    exact lasts

/-- Each step that the main loop takes unblocked lowers the rank. -/
theorem Lasts.pays (feeds : port.source = .pool pool) (limit_ : limit = offered.length + headersNum pool)
    (lasts : Lasts headersNum port offered state) (during : state.main.InCall port)
    (event : Circuit.Event) :
    (state.next event).rank headersNum port limit +
      (if Circuit.Event.unblocked port state event then 1 else 0) ≤ state.rank headersNum port limit := by
  obtain ⟨gone, passed, contents, waiting⟩ := lasts during
  cases event with
  | main stop sent =>
      have falls := waiting.falls_main feeds limit_ stop sent
      rw [Circuit.Event.unblocked]
      split
      · rename_i free
        exact falls.2 (Bool.not_eq_true' _ ▸ free)
      · exact falls.1
  | returns from_ header => exact (waiting.falls_returned feeds from_ header).1
  | callback header => exact (waiting.falls_callback header).elim le_of_lt And.left

theorem fillPort_falls (feeds : port.source = .pool pool) (limit_ : limit = offered.length + headersNum pool)
    (lasts : Lasts headersNum port offered state) (event : Circuit.Event) :
    ((fillPort port).next state event).rank headersNum port limit ≤ state.rank headersNum port limit := by
  by_cases during : state.main.InCall port
  · rw [fillPort_next during]
    exact le_self_add.trans (lasts.pays feeds limit_ during event)
  · rw [fillPort_left during]

/-- A callback that is inside does not have to wait. -/
theorem Waiting.lowers_callback (waiting : Waiting headersNum port offered gone passed contents state)
    (enabled : state.Enabled port (.callback header)) :
    (state.stepOf (.callback header)).rank headersNum port limit < state.rank headersNum port limit := by
  obtain ⟨during, thread, call, stage, called, at_, inside⟩ := enabled
  rw [Callers.stage_eq called] at at_
  exact waiting.falls_ready called at_ ((waiting.stands.puts called at_).ready inside)

theorem fillPort_lowers (feeds : port.source = .pool pool) (limit_ : limit = offered.length + headersNum pool)
    (lasts : Lasts headersNum port offered state) (enabled : state.Enabled port caller)
    (serves : event.Serves caller) :
    ((fillPort port).next state event).rank headersNum port limit < state.rank headersNum port limit := by
  have during := enabled.inCall
  obtain ⟨gone, passed, contents, waiting⟩ := lasts during
  rw [fillPort_next during]
  cases event with
  | main stop sent =>
      obtain rfl : caller = .mainLoop := serves
      exact (waiting.falls_main feeds limit_ stop sent).2 enabled.2
  | returns from_ header => exact serves.elim
  | callback header =>
      obtain rfl : caller = .callback header := serves
      exact waiting.lowers_callback enabled

theorem goes_callers {after : Circuit} (goes : state.Goes port after) :
    after.callers = state.callers ∨
      ∃ queue call, after.callers = state.callers.enter .mainLoop queue call := by
  cases goes with
  | got here got | stops here => exact .inl rfl
  | gets here read | repeats here got | sent here | refused here => exact .inr ⟨_, _, rfl⟩
  | ends here read => cases port <;> exact .inr ⟨_, _, rfl⟩

/-- A step of the main loop leaves the callbacks where they are. -/
theorem Waiting.callback_main (feeds : port.source = .pool pool)
    (waiting : Waiting headersNum port offered gone passed contents state) (stop sent : Bool)
    (header : Header) :
    (state.mainStep stop sent).callers.calls (.callback header) = state.callers.calls (.callback header) ∧
      (state.mainStep stop sent).callers.stage (.callback header) =
        state.callers.stage (.callback header) := by
  have stands := waiting.stands
  rw [Circuit.mainStep]
  split
  · exact ⟨congrFun Callers.step_calls _, stepOf_stage_other stands (by simp)⟩
  · rename_i idle
    rw [Bool.not_eq_true] at idle
    rcases goes_callers (stands.goes feeds idle waiting.here.inCall stop sent) with same | ⟨queue, call, same⟩
    · rw [same]
      exact ⟨rfl, rfl⟩
    · rw [same]
      exact ⟨Callers.enter_calls_other (by simp), stands.sound.enter_stage_other (by simp)⟩

theorem enabled_congr {after : Circuit} (enabled : state.Enabled port (.callback header))
    (inCall : after.main.InCall port)
    (calls : after.callers.calls (.callback header) = state.callers.calls (.callback header))
    (stage : after.callers.stage (.callback header) = state.callers.stage (.callback header)) :
    after.Enabled port (.callback header) := by
  obtain ⟨-, thread, call, at_, called, found, inside⟩ := enabled
  exact ⟨inCall, thread, call, at_, calls.trans called, stage.trans found, inside⟩

/-- Who is enabled stays so, or the rank falls. -/
theorem fillPort_stays (feeds : port.source = .pool pool)
    (lasts : Lasts headersNum port offered state) (enabled : state.Enabled port caller)
    (others : ¬ event.Serves caller) :
    ((fillPort port).next state event).Enabled port caller ∨
      ((fillPort port).next state event).rank headersNum port limit < state.rank headersNum port limit := by
  have during := enabled.inCall
  obtain ⟨gone, passed, contents, waiting⟩ := lasts during
  have stands := waiting.stands
  rw [fillPort_next during]
  cases event with
  | main stop sent =>
      cases caller with
      | mainLoop => exact absurd rfl others
      | callback header =>
          by_cases inCall : (state.next (.main stop sent)).main.InCall port
          · obtain ⟨calls, stage⟩ := waiting.callback_main feeds stop sent header
            exact .inl (enabled_congr enabled inCall calls stage)
          · exact .inr (rank_left_lt during inCall)
  | returns from_ other =>
      have inCall : (state.next (.returns from_ other)).main.InCall port := by
        rw [main_returned]
        exact during
      left
      cases caller with
      | mainLoop =>
          have same := (waiting.falls_returned feeds from_ other : _ ≤ Circuit.rank _ _ limit _ ∧ _).2
          exact ⟨inCall, same.trans enabled.2⟩
      | callback header =>
          by_cases held : other ∈ state.held from_
          · have different : Caller.callback header ≠ .callback other := by
              rintro ⟨⟩
              obtain ⟨-, thread, call, stage, called, at_, inside⟩ := enabled
              have idle := stands.callback_idle held
              rw [Callers.busy, at_, Option.any_some, running_of_inside inside] at idle
              cases idle
            refine enabled_congr enabled inCall ?_ ?_
            · rw [callers_returned held, Callers.enter_calls_other different]
            · rw [callers_returned held, stands.sound.enter_stage_other different]
          · rw [Circuit.next, if_neg held]
            exact enabled
  | callback other =>
      cases caller with
      | mainLoop =>
          rcases waiting.falls_callback other with lower | ⟨-, blocked⟩
          · exact .inr lower
          · exact .inl ⟨during, blocked.trans enabled.2⟩
      | callback header =>
          have different : Caller.callback header ≠ .callback other := fun same => others same
          exact .inl (enabled_congr enabled during (congrFun Callers.step_calls _)
            (stepOf_stage_other stands different))

theorem fillPort_goesOn (lasts : Lasts headersNum port offered state)
    (positive : 0 < state.rank headersNum port limit) :
    ∃ caller ∈ parties headersNum, state.Enabled port caller := by
  have during := inCall_of_rank positive
  obtain ⟨gone, passed, contents, waiting⟩ := lasts during
  have stands := waiting.stands
  cases blocked : state.blocked port.source with
  | false => exact ⟨.mainLoop, by simp [parties], during, blocked⟩
  | true =>
      rw [Circuit.blocked, Bool.and_eq_true, Bool.not_eq_true'] at blocked
      obtain ⟨owned, outside⟩ := blocked
      obtain ⟨index, owned⟩ := Option.isSome_iff_exists.mp owned
      obtain ⟨stage, found, inside⟩ := (stands.sound.queues port.source).guarded.owner_found owned
      have off : ∀ stage, state.callers.stage .mainLoop = some stage → stage.inside = false := by
        intro stage at_
        rwa [at_, Option.any_some] at outside
      obtain ⟨header, call, called, -, -⟩ := stands.puts_of_owner off owned found
      have at_ : state.callers.stage (.callback header) = some stage := (Callers.stage_eq called).trans found
      have busy : state.callers.busy (.callback header) = true := by
        rw [Callers.busy, at_, Option.any_some, running_of_inside inside]
        rfl
      refine ⟨.callback header, ?_, during, index, call, stage, called, at_, inside⟩
      intro other same
      cases same
      exact mem_of_busy stands called busy

theorem fillPort_descends (feeds : port.source = .pool pool)
    (limit_ : limit = offered.length + headersNum pool) :
    (fillPort port).Descends (Lasts headersNum port offered) (Circuit.rank headersNum port limit)
      Circuit.Event.Serves (parties headersNum) (Circuit.Enabled port) where
  kept _ event lasts := lasts_next feeds lasts event
  falls _ event lasts := fillPort_falls feeds limit_ lasts event
  lowers _ _ _ lasts enabled serves := fillPort_lowers feeds limit_ lasts enabled serves
  stays _ _ _ lasts enabled others := fillPort_stays feeds lasts enabled others
  goesOn _ lasts positive := fillPort_goesOn lasts positive

/-- The rank at the beginning. -/
theorem rank_le_turnsEnough (stands : state.Stands headersNum passed contents) :
    state.rank headersNum port ((state.offered port).length + headersNum pool) ≤
      turnsEnough headersNum pool := by
  rw [Circuit.rank]
  split
  · have most := mainLeft_le state port
    have coming : ((allHeaders headersNum).map (state.comes port.source)).sum ≤
        (allHeaders headersNum).length * 8 := by
      have each := List.sum_le_card_nsmul ((allHeaders headersNum).map (state.comes port.source)) 8 (by
        intro count member
        obtain ⟨header, -, rfl⟩ := List.mem_map.mp member
        exact comes_le stands port.source header)
      rwa [List.length_map, smul_eq_mul] at each
    rw [turnsEnough]
    omega
  · exact Nat.zero_le _

end Turns

/-- Of `headersNum` headers each is sent at most once in a call, and the call ends with the
pool's queue empty or with a send that failed.  It takes a bounded number of steps, but for
those while a callback has the lock, and it does end if everybody gets to go. -/
theorem fillPortFromPool_terminates (headersNum : Pool → Nat) {port : Port} {pool : Pool}
    (feeds : port.source = .pool pool) (history : List Circuit.Event)
    (entered : (circuit.run (Circuit.initial headersNum) history).main = .testing port)
    (begun : (circuit.run (Circuit.initial headersNum) history).callers.stage .mainLoop = some .readLength) :
    FillsPort headersNum port pool (circuit.run (Circuit.initial headersNum) history) := by
  obtain ⟨passed, contents, stands⟩ := Circuit.run_stands headersNum history
  generalize circuit.run (Circuit.initial headersNum) history = entry at *
  have filling := Filling.entered stands entered
  have lasts : Lasts headersNum port (entry.offered port) entry := by
    refine fun _ => ⟨[], passed, contents, filling, ?_⟩
    intro stage at_ hopes
    obtain rfl := Option.some.inj (begun.symm.trans at_)
    cases hopes
  constructor
  · exact fun events during => (filling_run feeds filling during).1
  · exact fun events during left => (filling_run feeds filling during).2.resolve_left left
  · intro events during
    exact (Machine.count_le_rank (fun _ event lasts during => lasts.next feeds during event)
      (fun _ event lasts during => lasts.pays feeds rfl during event) lasts during).trans
      (rank_le_turnsEnough stands)
  · intro turns fair enough
    have everybody : ∀ turn ∈ turns, ∀ caller ∈ parties headersNum,
        ∃ event ∈ turn, Circuit.Event.Serves event caller := by
      intro turn member caller party
      obtain ⟨⟨stop, sent, main⟩, callbacks⟩ := fair turn member
      cases caller with
      | mainLoop => exact ⟨_, main, rfl⟩
      | callback header => exact ⟨_, callbacks header (party header rfl), rfl⟩
    have ended := (fillPort_descends feeds rfl).ends lasts everybody
      ((rank_le_turnsEnough stands).trans enough)
    obtain ⟨front, before, same, along⟩ :=
      circuit.run_stopping (fun state => ¬ state.main.InCall port) entry turns.flatten
    refine ⟨front, before, circuit.along_mono (fun _ _ => not_not.mp) along, ?_⟩
    intro inCall
    rw [fillPort, same, rank_of_inCall inCall] at ended
    omega

/-- Pools of one header, at the first call after they have been created. -/
theorem fillPortFromPool_terminates_one :
    FillsPort (fun _ => 1) .videoPort .encoderIn
      (circuit.run (Circuit.initial fun _ => 1) (List.replicate 20 (.main false true))) :=
  fillPortFromPool_terminates (fun _ => 1) rfl (List.replicate 20 (.main false true)) (by decide) (by decide)

end RcControl.Camera
