import RcControl.Control.Drive

namespace RcControl.Control

open RcControl.Data RcControl.Data.Slots

/-! What the car does, from what the pages do. -/

variable {drive : Drive} {index : Nat} {driver : Driver} {peer : Peer}

/-- Both servos are within the car's limits, and every call made so far was. -/
structure ServosInRange (drive : Drive) : Prop where
  steer : (drive.car.steer : ℚ) ∈ steerRange
  bldc : (drive.car.bldc : ℚ) ∈ throttleRange
  calls : ∀ call ∈ drive.calls, call.2.InEnvelope

/-- No frame of a page goes back in time, or overshoots by more than the room it has. -/
def FramesStayWithin (drive : Drive) (event : DriveEvent) : Prop :=
  ∀ index pageEvent driver, event = .page index pageEvent → drive.drivers[index]? = some driver →
    Forward driver.page pageEvent ∧ FrameStaysWithin driver.page pageEvent

/-- The page, and what it has on the way, is within the limits. -/
structure Driver.InRange (driver : Driver) : Prop where
  aimed : driver.page.Aimed
  page : driver.page.InEnvelope
  channel : ∀ message ∈ driver.channel, SentInEnvelope message

structure AllInRange (drive : Drive) : Prop where
  servos : ServosInRange drive
  drivers : ∀ driver ∈ drive.drivers, driver.InRange
  backlogs : ∀ peer ∈ drive.car.peers, ∀ command ∈ peer.backlog, command.InEnvelope

section Range

theorem joined_inRange : Driver.joined.InRange where
  aimed := initial_aimed
  page := initial_inEnvelope
  channel message member := by cases member

theorem Driver.InRange.onPage (inRange : driver.InRange) {event : PageEvent}
    (forward : Forward driver.page event) (within : FrameStaysWithin driver.page event) :
    (driver.onPage event).InRange := by
  have seen : Forward driver.page (driver.sees event) ∧ FrameStaysWithin driver.page (driver.sees event) := by
    cases event with
    | frame timeStamp isOpen => exact ⟨forward, within⟩
    | keydown | keyup | mousedown | mouseup => exact ⟨trivial, trivial⟩
  have inside := (next_inEnvelope_iff driver.page (driver.sees event) ⟨inRange.aimed, seen.1⟩
    inRange.page).mp seen.2
  refine ⟨next_aimed inRange.aimed _, inside, fun message member => ?_⟩
  rcases List.mem_append.mp member with older | new
  · exact inRange.channel message older
  · exact emit_inEnvelope driver.page _ inside message (Option.mem_toList.mp new)

/-- The commands of the servo that a call is made for are the only ones that matter to it. -/
theorem servo_inRange {car : Car} {command : Command} (within : command.InEnvelope)
    (steer : (car.steer : ℚ) ∈ steerRange) (bldc : (car.bldc : ℚ) ∈ throttleRange) :
    ((car.servo command).steer : ℚ) ∈ steerRange ∧ ((car.servo command).bldc : ℚ) ∈ throttleRange := by
  obtain ⟨servo, pwm⟩ := command
  cases servo with
  | steer => exact ⟨within, bldc⟩
  | bldc => exact ⟨steer, within⟩

theorem neutral_inEnvelope : Command.InEnvelope ⟨.bldc, 1500⟩ := by
  norm_num [Command.InEnvelope, throttleRange, throttleMin, throttleMax]

theorem AllInRange.change (inRange : AllInRange drive) {step : Driver → Driver}
    (kept : ∀ driver, drive.drivers[index]? = some driver → driver.InRange → (step driver).InRange) :
    AllInRange (drive.change index step) where
  servos := ⟨inRange.servos.steer, inRange.servos.bldc, inRange.servos.calls⟩
  drivers driver member := by
    obtain ⟨position, found⟩ := List.mem_iff_getElem?.mp member
    obtain ⟨before, here, rfl⟩ := getElem?_modify_eq_some.mp found
    have inRangeBefore := inRange.drivers before (List.mem_of_getElem? here)
    split
    · rename_i changed
      subst changed
      exact kept before here inRangeBefore
    · exact inRangeBefore
  backlogs := inRange.backlogs

theorem AllInRange.deliver (inRange : AllInRange drive) (index : Nat) : AllInRange (drive.deliver index) := by
  unfold Drive.deliver
  split
  · rename_i x y channel sent found
    have own := inRange.drivers _ (List.mem_of_getElem? found)
    have popped : AllInRange (drive.change index fun driver => { driver with channel }) := by
      refine inRange.change fun driver here inRangeDriver => ⟨inRangeDriver.aimed, inRangeDriver.page, ?_⟩
      obtain rfl := Option.some.inj (found.symm.trans here)
      exact fun message member => own.channel message (List.mem_cons_of_mem _ member)
    refine ⟨⟨inRange.servos.steer, inRange.servos.bldc, inRange.servos.calls⟩, popped.drivers, ?_⟩
    intro peer member
    obtain ⟨position, there⟩ := List.mem_iff_getElem?.mp member
    obtain ⟨before, here, rfl⟩ := getElem?_modify_eq_some.mp there
    have earlier := inRange.backlogs before (List.mem_of_getElem? here)
    split
    · intro command asked
      rcases List.mem_append.mp asked with older | new
      · exact earlier command older
      · exact (own.channel (x, y) List.mem_cons_self).2.2 command new
    · exact earlier
  · exact inRange

theorem AllInRange.servoCall (inRange : AllInRange drive) (index : Nat) :
    AllInRange (drive.servoCall index) := by
  unfold Drive.servoCall
  split
  · rename_i id terminated command rest found
    have within := inRange.backlogs _ (List.mem_of_getElem? found) command List.mem_cons_self
    obtain ⟨steer, bldc⟩ := servo_inRange within inRange.servos.steer inRange.servos.bldc
    have car : drive.car.next (.servoCall index) =
        { drive.car.servo command with
          peers := drive.car.peers.modify index fun peer => { peer with backlog := rest } } := by
      simp only [Car.next, Car.servoCall, found]
    rw [car]
    refine ⟨⟨steer, bldc, ?_⟩, inRange.drivers, ?_⟩
    · intro call member
      rcases List.mem_append.mp member with older | new
      · exact inRange.servos.calls call older
      · rw [List.mem_singleton.mp new]
        exact within
    · intro peer member
      obtain ⟨position, there⟩ := List.mem_iff_getElem?.mp member
      obtain ⟨before, here, rfl⟩ := getElem?_modify_eq_some.mp there
      have earlier := inRange.backlogs before (List.mem_of_getElem? here)
      split
      · rename_i same
        subst same
        obtain rfl := Option.some.inj (found.symm.trans here)
        exact fun command member => earlier command (List.mem_cons_of_mem _ member)
      · exact earlier
  · exact inRange

theorem AllInRange.stateChange (inRange : AllInRange drive) (index : Nat) (state : PeerState) :
    AllInRange (drive.stateChange index state) := by
  obtain ⟨-, backlogs⟩ := stateChange_backlog drive.car index state
  have servos : ((drive.car.stateChange index state).steer : ℚ) ∈ steerRange ∧
      ((drive.car.stateChange index state).bldc : ℚ) ∈ throttleRange := by
    unfold Car.stateChange
    split
    · exact ⟨inRange.servos.steer, inRange.servos.bldc⟩
    · split
      · exact ⟨inRange.servos.steer, neutral_inEnvelope⟩
      · exact ⟨inRange.servos.steer, inRange.servos.bldc⟩
  refine ⟨⟨servos.1, servos.2, ?_⟩, inRange.drivers, ?_⟩
  · intro call member
    rcases List.mem_append.mp member with older | new
    · exact inRange.servos.calls call older
    · split at new
      · rw [List.mem_singleton.mp new]
        exact neutral_inEnvelope
      · cases new
  · intro peer member
    obtain ⟨position, there⟩ := List.mem_iff_getElem?.mp member
    obtain ⟨earlier, here, same⟩ := backlogs position peer there
    rw [same]
    exact inRange.backlogs earlier (List.mem_of_getElem? here)

/-- The step lemma. -/
theorem next_inRange (drive : Drive) (event : DriveEvent) (within : FramesStayWithin drive event)
    (inRange : AllInRange drive) : AllInRange (drive.next event) := by
  cases event with
  | join id =>
      refine ⟨⟨inRange.servos.steer, inRange.servos.bldc, inRange.servos.calls⟩, ?_, ?_⟩
      · intro driver member
        rcases List.mem_append.mp member with older | new
        · exact inRange.drivers driver older
        · rw [List.mem_singleton.mp new]
          exact joined_inRange
      · intro peer member
        rcases List.mem_append.mp member with older | new
        · exact inRange.backlogs peer older
        · rw [List.mem_singleton.mp new]
          exact fun command none => by cases none
  | openChannel index =>
      exact inRange.change fun driver _ own => ⟨own.aimed, own.page, own.channel⟩
  | page index event =>
      refine inRange.change fun driver here own => ?_
      obtain ⟨forward, stays⟩ := within index event driver rfl here
      exact own.onPage forward stays
  | deliver index => exact inRange.deliver index
  | servoCall index => exact inRange.servoCall index
  | closeChannel index =>
      exact inRange.change fun driver _ own => ⟨own.aimed, own.page, fun message member => by cases member⟩
  | stateChange index state => exact inRange.stateChange index state
  | runDispatched =>
      have servos : (drive.car.runDispatched).steer = drive.car.steer ∧
          (drive.car.runDispatched).bldc = drive.car.bldc := by
        unfold Car.runDispatched
        split <;> exact ⟨rfl, rfl⟩
      refine ⟨⟨?_, ?_, inRange.servos.calls⟩, inRange.drivers, ?_⟩
      · exact servos.1 ▸ inRange.servos.steer
      · exact servos.2 ▸ inRange.servos.bldc
      · exact (runDispatched_peers drive.car).symm ▸ inRange.backlogs

theorem initial_inRange : AllInRange Drive.initial where
  servos := by
    refine ⟨?_, neutral_inEnvelope, fun call member => by cases member⟩
    norm_num [Drive.initial, Car.initial, steerRange, steerMin, steerMax]
  drivers driver member := by cases member
  backlogs peer member := by cases member

end Range

/-- Whatever any number of pages and the threads of the server do, the servos stay within the
limits of the car as long as no frame of a page overshoots. -/
theorem servos_in_range (events : List DriveEvent)
    (within : driving.Along FramesStayWithin Drive.initial events) :
    driving.Always ServosInRange Drive.initial events := by
  have always := driving.always_of_along next_inRange within initial_inRange
  exact driving.always_mono (fun drive inRange => inRange.servos) always

/-- A page steers for half a second's worth of frames, and its first message gets through. -/
def steersLeft : List DriveEvent :=
  [.join "a", .openChannel 0, .page 0 (.frame 0 false), .page 0 (.keydown .keyA), .page 0 (.frame 33 false),
    .deliver 0, .servoCall 0, .stateChange 0 .closed, .servoCall 0]

theorem servos_in_range_steering : driving.Always ServosInRange Drive.initial steersLeft := by
  refine servos_in_range steersLeft ⟨?_, ?_, ?_, ?_, ?_, ?_, ?_, ?_, ?_, trivial⟩
  all_goals rintro index event driver ⟨⟩ found
  all_goals
    obtain rfl := Option.some.inj found
  · refine ⟨le_rfl, .inl ?_, .inl ?_⟩ <;>
      norm_num [Page.steeringFactor, Page.throttleFactor, Page.dt, Driver.joined, Driver.opens, Page.initial]
  · exact ⟨trivial, trivial⟩
  · refine ⟨?_, .inl ?_, .inl ?_⟩ <;>
      norm_num [Forward, Page.steeringFactor, Page.throttleFactor, Page.dt, Driver.joined, Driver.opens, Driver.onPage,
        Driver.sees, Page.next, Page.loop, Page.keydown, Page.aimSteering, Page.updateSteeringValue,
        Page.updateThrottleValue, Page.initial, sendDCInterval]

section Mirror

/-- The pulse width that the last call for a servo asked for, or the one it starts with. -/
def lastAsked (servo : Servo) (commands : List Command) : Int :=
  ((commands.filter (·.servo = servo)).getLast?.map Command.pwm).getD 1500

def Obeys (drive : Drive) : Prop :=
  ∀ servo, drive.car.width servo = lastAsked servo (drive.calls.map Prod.snd)

theorem lastAsked_concat (servo : Servo) (commands : List Command) (command : Command) :
    lastAsked servo (commands ++ [command]) =
      if command.servo = servo then command.pwm else lastAsked servo commands := by
  unfold lastAsked
  rw [List.filter_append]
  by_cases own : command.servo = servo
  · simp [own]
  · simp [own]

theorem width_servo (car : Car) (command : Command) (servo : Servo) :
    (car.servo command).width servo = if command.servo = servo then command.pwm else car.width servo := by
  obtain ⟨own, pwm⟩ := command
  cases own <;> cases servo <;> rfl

theorem Obeys.called (obeys : Obeys drive) {after : Drive} {caller : Option Nat} {command : Command}
    (calls : after.calls = drive.calls ++ [(caller, command)])
    (widths : ∀ servo, after.car.width servo = (drive.car.servo command).width servo) : Obeys after := by
  intro servo
  rw [calls, List.map_append, widths, width_servo, List.map_singleton, lastAsked_concat, obeys servo]

theorem Obeys.same (obeys : Obeys drive) {after : Drive} (calls : after.calls = drive.calls)
    (widths : ∀ servo, after.car.width servo = drive.car.width servo) : Obeys after := by
  intro servo
  rw [calls, widths, obeys servo]

theorem next_obeys (drive : Drive) (event : DriveEvent) (obeys : Obeys drive) : Obeys (drive.next event) := by
  cases event with
  | join id | openChannel index | page index event | closeChannel index =>
      exact obeys.same rfl fun servo => by cases servo <;> rfl
  | deliver index =>
      rw [Drive.next, Drive.deliver]
      split
      · exact obeys.same rfl fun servo => by cases servo <;> rfl
      · exact obeys
  | servoCall index =>
      rw [Drive.next, Drive.servoCall]
      split
      · rename_i id terminated command rest found
        refine obeys.called rfl fun servo => ?_
        simp only [Car.next, Car.servoCall, found]
        cases servo <;> rfl
      · exact obeys
  | stateChange index state =>
      rw [Drive.next, Drive.stateChange]
      split
      · rename_i terminal
        obtain ⟨inside, terminal⟩ := terminal
        refine obeys.called rfl fun servo => ?_
        simp only [Car.next, Car.stateChange, List.getElem?_eq_getElem inside, if_pos terminal]
        cases servo <;> rfl
      · rename_i other
        refine obeys.same (List.append_nil _) fun servo => ?_
        simp only [Car.next, Car.stateChange]
        split
        · rfl
        · rename_i found
          rw [if_neg]
          exact fun terminal => other ⟨(List.getElem?_eq_some_iff.mp found).1, terminal⟩
  | runDispatched =>
      refine obeys.same rfl fun servo => ?_
      simp only [Drive.next, Car.next, Car.runDispatched]
      split <;> cases servo <;> rfl

theorem initial_obeys : Obeys Drive.initial := by
  intro servo
  cases servo <;> rfl

/-- Where nothing of a page is on the way any more, and the servos were called for no other
reason, they show what the page sent last. -/
def Mirrors (drive : Drive) : Prop :=
  ∀ (index : Nat) (driver : Driver) (peer : Peer) (x y : Int), drive.drivers[index]? = some driver →
    drive.car.peers[index]? = some peer → driver.closed = false → driver.channel = [] →
    peer.backlog = [] → (∀ call ∈ drive.calls, call.1 = some index) → driver.sent.getLast? = some (x, y) →
    x.bmod (2 ^ 32) = x → y.bmod (2 ^ 32) = y → drive.car.steer = x ∧ drive.car.bldc = y

theorem Obeys.mirrors (obeys : Obeys drive) (carries : Carries drive) : Mirrors drive := by
  intro index driver peer x y found there closed channel backlog own last xFits yFits
  have arrived := (carries.carried index driver peer found there).complete closed
  rw [channel, backlog, commandsOf, List.flatMap_nil, List.append_nil, List.append_nil] at arrived
  have calls : drive.calls.map Prod.snd = commandsOf driver.sent := by
    rw [← arrived, Drive.callsOf, List.filter_eq_self.mpr]
    exact fun call member => decide_eq_true (own call member)
  obtain ⟨front, split⟩ := List.getLast?_eq_some_iff.mp last
  have both := onMessage_stringify xFits yFits
  have asked : drive.calls.map Prod.snd = commandsOf front ++ [⟨.steer, x⟩] ++ [⟨.bldc, y⟩] := by
    rw [calls, split, commandsOf_append, commandsOf_cons, both, List.append_assoc]
    rfl
  constructor
  · have width := obeys .steer
    rw [asked, lastAsked_concat, if_neg (by simp), lastAsked_concat, if_pos rfl] at width
    exact width
  · have width := obeys .bldc
    rw [asked, lastAsked_concat, if_pos rfl] at width
    exact width

end Mirror

/-- The car ends up where its only driver last told it to be. -/
theorem car_mirrors_page (events : List DriveEvent) :
    driving.Always Mirrors Drive.initial events := by
  have kept : ∀ drive event, Obeys drive ∧ Carries drive →
      Obeys (driving.next drive event) ∧ Carries (driving.next drive event) :=
    fun drive event both => ⟨next_obeys drive event both.1, next_carries drive event both.2⟩
  have always := driving.always_of_invariant kept ⟨initial_obeys, initial_carries⟩ events
  exact driving.always_mono (fun drive both => both.1.mirrors both.2) always

/-- A page steers, and both servo calls of its first message are made. -/
def steersAndDrains : List DriveEvent :=
  [.join "a", .openChannel 0, .page 0 (.frame 0 false), .page 0 (.keydown .keyA), .page 0 (.frame 33 false),
    .deliver 0, .servoCall 0, .servoCall 0]

theorem loop_first_none : (Page.initial.loop 0 true).2 = none := by
  norm_num [Page.loop, Page.updateSteeringValue, Page.updateThrottleValue, Page.initial, Page.dt, sendDCInterval]

theorem loop_steers_some :
    (((Page.initial.loop 0 true).1.keydown .keyA).loop 33 true).2 = some (1494, 1500) := by
  norm_num [Page.loop, Page.keydown, Page.aimSteering, Page.updateSteeringValue, Page.updateThrottleValue,
    Page.initial, Page.dt, sendDCInterval, steerMin, round_eq]

theorem car_mirrors_page_drained :
    (driving.run Drive.initial steersAndDrains).car.steer = 1494 ∧
      (driving.run Drive.initial steersAndDrains).car.bldc = 1500 := by
  have mirrors := driving.always_run (car_mirrors_page steersAndDrains)
  have drained : ∃ driver peer, (driving.run Drive.initial steersAndDrains).drivers = [driver] ∧
      (driving.run Drive.initial steersAndDrains).car.peers = [peer] ∧
      (driving.run Drive.initial steersAndDrains).calls =
        [(some 0, ⟨.steer, 1494⟩), (some 0, ⟨.bldc, 1500⟩)] ∧
      driver.closed = false ∧ driver.channel = [] ∧ driver.sent = [(1494, 1500)] ∧ peer.backlog = [] := by
    simp only [driving, Machine.run, steersAndDrains, Drive.next, Drive.initial, Drive.change, Driver.onPage,
      Driver.opens, Driver.joined, Driver.sees, Page.emit, Page.next, List.nil_append, List.modify,
      Option.toList, List.modifyTailIdx, List.modifyTailIdx.go, loop_first_none, loop_steers_some,
      Bool.not_false, List.modifyHead]
    exact ⟨_, _, rfl, rfl, rfl, rfl, rfl, rfl, rfl⟩
  obtain ⟨driver, peer, drivers, peers, calls, opened, channel, sent, backlog⟩ := drained
  exact mirrors 0 driver peer 1494 1500 (by rw [drivers]; rfl) (by rw [peers]; rfl) opened channel backlog
    (by rw [calls]; simp) (by rw [sent]; rfl) (by decide) (by decide)

end RcControl.Control
