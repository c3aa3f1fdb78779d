import RcControl.Data.Slots
import RcControl.Control.Peers
import RcControl.Control.Envelope

namespace RcControl.Control

open RcControl.Data RcControl.Data.Slots

/-! The way from the pages to the car.

Each page has a data channel of its own to the car, ordered and reliable until it closes.
The pages, the channels and the threads of the server take their steps in any order. -/

/-- What is in a page's channel, and the history of what the page sent. -/
structure Driver where
  page : Page
  isOpen : Bool
  closed : Bool
  channel : List (Int × Int)
  sent : List (Int × Int)

def Driver.joined : Driver where
  page := Page.initial
  isOpen := false
  closed := false
  channel := []
  sent := []

/-- `calls` lists every servo call with the peer whose message handler made it, if it was not
the callback of a terminal state. -/
structure Drive where
  car : Car
  drivers : List Driver
  calls : List (Option Nat × Command)

inductive DriveEvent where
  /-- The server makes a peer connection for a page. -/
  | join (id : String)
  | openChannel (driver : Nat)
  /-- A page event; an animation frame finds the channel as it is. -/
  | page (driver : Nat) (event : PageEvent)
  | deliver (driver : Nat)
  | servoCall (peer : Nat)
  /-- The channel closes, and what is in it is lost. -/
  | closeChannel (driver : Nat)
  | stateChange (peer : Nat) (state : PeerState)
  | runDispatched

namespace Driver

def sees (driver : Driver) : PageEvent → PageEvent
  | .frame timeStamp _ => .frame timeStamp driver.isOpen
  | event => event

def onPage (driver : Driver) (event : PageEvent) : Driver :=
  { driver with
    page := driver.page.next (driver.sees event)
    channel := driver.channel ++ (driver.page.emit (driver.sees event)).toList
    sent := driver.sent ++ (driver.page.emit (driver.sees event)).toList }

def opens (driver : Driver) : Driver :=
  { driver with isOpen := !driver.closed }

def closes (driver : Driver) : Driver :=
  { driver with isOpen := false, closed := true, channel := [] }

end Driver

namespace Drive

def initial : Drive where
  car := Car.initial
  drivers := []
  calls := []

def change (drive : Drive) (driver : Nat) (step : Driver → Driver) : Drive :=
  { drive with drivers := drive.drivers.modify driver step }

def deliver (drive : Drive) (driver : Nat) : Drive :=
  match drive.drivers[driver]? with
  | some { channel := (x, y) :: channel, .. } =>
      { drive.change driver fun driver => { driver with channel } with
        car := drive.car.next (.message driver (some (stringify x y))) }
  | _ => drive

def servoCall (drive : Drive) (peer : Nat) : Drive :=
  match drive.car.peers[peer]? with
  | some { backlog := command :: _, .. } =>
      { drive with
        car := drive.car.next (.servoCall peer)
        calls := drive.calls ++ [(some peer, command)] }
  | _ => drive

/-- The callback of a terminal state calls `servo(1500)`. -/
def stateChange (drive : Drive) (peer : Nat) (state : PeerState) : Drive :=
  { drive with
    car := drive.car.next (.stateChange peer state)
    calls := drive.calls ++
      if peer < drive.car.peers.length ∧ state.terminal = true then [(none, ⟨.bldc, 1500⟩)] else [] }

def next (drive : Drive) : DriveEvent → Drive
  | .join id =>
      { drive with
        car := drive.car.next (.createPeerConnection id)
        drivers := drive.drivers ++ [Driver.joined] }
  | .openChannel driver => drive.change driver Driver.opens
  | .page driver event => drive.change driver (·.onPage event)
  | .deliver driver => drive.deliver driver
  | .servoCall peer => drive.servoCall peer
  | .closeChannel driver => drive.change driver Driver.closes
  | .stateChange peer state => drive.stateChange peer state
  | .runDispatched => { drive with car := drive.car.next .runDispatched }

end Drive

def driving : Machine Drive DriveEvent Unit where
  next := Drive.next
  emit _ _ := ()

/-- The servo calls that a message asks for. -/
def commandsOf (sent : List (Int × Int)) : List Command :=
  sent.flatMap fun message => (onMessage (stringify message.1 message.2)).commands

/-- The calls that a peer's message handler made. -/
def Drive.callsOf (drive : Drive) (peer : Nat) : List Command :=
  (drive.calls.filter (·.1 = some peer)).map Prod.snd

/-- What a page sent arrives: the calls made for it, those its handler has yet to make and
those still in its channel are, in this order, what it sent, or the beginning of that
once the channel has closed. -/
structure Carried (drive : Drive) (index : Nat) (driver : Driver) (peer : Peer) : Prop where
  inOrder : drive.callsOf index ++ peer.backlog ++ commandsOf driver.channel <+: commandsOf driver.sent
  complete : driver.closed = false →
    drive.callsOf index ++ peer.backlog ++ commandsOf driver.channel = commandsOf driver.sent

/-- Every page's commands are carried. -/
structure Carries (drive : Drive) : Prop where
  paired : drive.car.peers.length = drive.drivers.length
  shut : ∀ driver ∈ drive.drivers, driver.closed = true → driver.isOpen = false ∧ driver.channel = []
  carried : ∀ (index : Nat) (driver : Driver) (peer : Peer), drive.drivers[index]? = some driver →
    drive.car.peers[index]? = some peer → Carried drive index driver peer
  known : ∀ call ∈ drive.calls, ∀ peer, call.1 = some peer → peer < drive.drivers.length

section Step

variable {drive : Drive} {index : Nat} {driver : Driver} {peer : Peer}

theorem commandsOf_append (front back : List (Int × Int)) :
    commandsOf (front ++ back) = commandsOf front ++ commandsOf back := List.flatMap_append

theorem commandsOf_cons (x y : Int) (rest : List (Int × Int)) :
    commandsOf ((x, y) :: rest) = (onMessage (stringify x y)).commands ++ commandsOf rest := rfl

/-- What happens to the messages on the way, when nothing is added or taken. -/
theorem Carried.same {after : Drive} {later : Peer} (carried : Carried drive index driver peer)
    (calls : after.callsOf index = drive.callsOf index) (backlog : later.backlog = peer.backlog) :
    Carried after index driver later := by
  constructor
  · rw [calls, backlog]
    exact carried.inOrder
  · rw [calls, backlog]
    exact carried.complete

/-- The driver's own events. -/
theorem Carries.change (carries : Carries drive) {step : Driver → Driver}
    (shut : ∀ driver ∈ drive.drivers, (driver.closed = true → driver.isOpen = false ∧ driver.channel = []) →
      (step driver).closed = true → (step driver).isOpen = false ∧ (step driver).channel = [])
    (carried : ∀ driver peer, driver ∈ drive.drivers → Carried drive index driver peer →
      Carried drive index (step driver) peer) : Carries (drive.change index step) where
  paired := carries.paired.trans (List.length_modify ..).symm
  shut driver member closed := by
    obtain ⟨position, found⟩ := List.mem_iff_getElem?.mp member
    obtain ⟨before, here, rfl⟩ := getElem?_modify_eq_some.mp found
    have memberBefore := List.mem_of_getElem? here
    split at closed
    · rename_i changed
      rw [if_pos changed]
      exact shut before memberBefore (carries.shut before memberBefore) closed
    · rename_i unchanged
      rw [if_neg unchanged]
      exact carries.shut before memberBefore closed
  carried position driver peer found there := by
    obtain ⟨before, here, rfl⟩ := getElem?_modify_eq_some.mp found
    have now := carries.carried position before peer here there
    split
    · rename_i changed
      subst changed
      exact (carried before peer (List.mem_of_getElem? here) now).same rfl rfl
    · exact now.same rfl rfl
  known call member peer same := by
    rw [Drive.change, List.length_modify]
    exact carries.known call member peer same

/-- A channel that is not open is sent nothing. -/
theorem emit_closed (page : Page) (timeStamp : ℚ) : page.emit (.frame timeStamp false) = none := by
  simp only [Page.emit, Page.loop]
  split <;> rfl

theorem Driver.emit_closed (driver : Driver) (closed : driver.isOpen = false) (event : PageEvent) :
    driver.page.emit (driver.sees event) = none := by
  cases event with
  | frame timeStamp isOpen =>
      rw [Driver.sees, closed]
      exact Control.emit_closed driver.page timeStamp
  | keydown | keyup | mousedown | mouseup => rfl

theorem Carried.onPage (carried : Carried drive index driver peer)
    (shut : driver.closed = true → driver.isOpen = false ∧ driver.channel = []) (event : PageEvent) :
    Carried drive index (driver.onPage event) peer := by
  cases closed : driver.closed with
  | true =>
      have silent := driver.emit_closed (shut closed).1 event
      constructor
      · simp only [Driver.onPage, silent, Option.toList_none, List.append_nil]
        exact carried.inOrder
      · intro still
        rw [Driver.onPage, closed] at still
        cases still
  | false =>
      have complete := carried.complete closed
      have all : drive.callsOf index ++ peer.backlog ++ commandsOf (driver.onPage event).channel =
          commandsOf (driver.onPage event).sent := by
        rw [Driver.onPage, commandsOf_append, commandsOf_append, ← complete]
        simp only [List.append_assoc]
      exact ⟨all ▸ List.prefix_rfl, fun _ => all⟩

theorem Carried.closes (carried : Carried drive index driver peer) :
    Carried drive index driver.closes peer where
  inOrder := by
    rw [Driver.closes, commandsOf, List.flatMap_nil, List.append_nil]
    exact (List.prefix_append _ _).trans carried.inOrder
  complete closed := by cases closed

theorem Carried.deliver {x y : Int} {channel : List (Int × Int)} (head : driver.channel = (x, y) :: channel)
    (carried : Carried drive index driver peer) {after : Drive} {later : Peer}
    (calls : after.callsOf index = drive.callsOf index)
    (backlog : later.backlog = peer.backlog ++ (onMessage (stringify x y)).commands) :
    Carried after index { driver with channel } later := by
  have same : after.callsOf index ++ later.backlog ++ commandsOf channel =
      drive.callsOf index ++ peer.backlog ++ commandsOf driver.channel := by
    rw [calls, backlog, head, commandsOf_cons]
    simp only [List.append_assoc]
  exact ⟨same ▸ carried.inOrder, fun closed => same ▸ carried.complete closed⟩

theorem Carries.deliver (carries : Carries drive) (index : Nat) : Carries (drive.deliver index) := by
  unfold Drive.deliver
  split
  · rename_i x y channel sent found
    constructor
    · simp only [Drive.change, Car.next, Car.message, List.length_modify, carries.paired]
    · intro driver member closed
      obtain ⟨position, here⟩ := List.mem_iff_getElem?.mp member
      obtain ⟨before, foundBefore, rfl⟩ := getElem?_modify_eq_some.mp here
      have shut := carries.shut before (List.mem_of_getElem? foundBefore)
      split at closed
      · -- A closed channel is empty, and this one is not.
        rename_i same
        rw [← same] at foundBefore
        obtain rfl := Option.some.inj (found.symm.trans foundBefore)
        cases (shut closed).2
      · rename_i elsewhere
        rw [if_neg elsewhere]
        exact shut closed
    · intro position driver peer here there
      obtain ⟨before, foundBefore, rfl⟩ := getElem?_modify_eq_some.mp here
      obtain ⟨earlier, foundEarlier, rfl⟩ := getElem?_modify_eq_some.mp there
      have carried := carries.carried position before earlier foundBefore foundEarlier
      split
      · rename_i same
        rw [← same] at foundBefore
        obtain rfl := Option.some.inj (found.symm.trans foundBefore)
        exact carried.deliver rfl rfl rfl
      · exact carried.same rfl rfl
    · intro call member peer same
      simp only [Drive.change, List.length_modify]
      exact carries.known call member peer same
  · exact carries

theorem callsOf_concat (drive : Drive) (car : Car) (caller : Option Nat) (command : Command) (index : Nat) :
    ({ drive with car, calls := drive.calls ++ [(caller, command)] } : Drive).callsOf index =
      drive.callsOf index ++ if caller = some index then [command] else [] := by
  rw [Drive.callsOf, List.filter_append, List.map_append]
  congr 1
  by_cases own : caller = some index <;> simp [own]

theorem Carries.servoCall (carries : Carries drive) (index : Nat) : Carries (drive.servoCall index) := by
  unfold Drive.servoCall
  split
  · rename_i id terminated command rest found
    have peers : (drive.car.next (.servoCall index)).peers =
        drive.car.peers.modify index fun peer => { peer with backlog := rest } := by
      simp only [Car.next, Car.servoCall, found]
    constructor
    · rw [peers, List.length_modify, carries.paired]
    · exact carries.shut
    · intro position driver peer here there
      rw [peers] at there
      obtain ⟨earlier, foundEarlier, rfl⟩ := getElem?_modify_eq_some.mp there
      have carried := carries.carried position driver earlier here foundEarlier
      have calls := callsOf_concat drive (drive.car.next (.servoCall index)) (some index) command position
      split
      · rename_i same
        subst same
        obtain rfl := Option.some.inj (found.symm.trans foundEarlier)
        rw [if_pos rfl] at calls
        have moved : drive.callsOf index ++ [command] ++ rest ++ commandsOf driver.channel =
            drive.callsOf index ++ command :: rest ++ commandsOf driver.channel := by
          simp only [List.append_assoc, List.cons_append, List.nil_append]
        constructor
        · rw [calls, moved]
          exact carried.inOrder
        · rw [calls, moved]
          exact carried.complete
      · rename_i elsewhere
        rw [if_neg (by simpa using elsewhere), List.append_nil] at calls
        exact carried.same calls rfl
    · intro call member peer same
      rcases List.mem_append.mp member with older | new
      · exact carries.known call older peer same
      · rw [List.mem_singleton.mp new] at same
        obtain rfl := Option.some.inj same
        rw [← carries.paired]
        exact (List.getElem?_eq_some_iff.mp found).1
  · exact carries

theorem stateChange_backlog (car : Car) (index : Nat) (state : PeerState) :
    (car.stateChange index state).peers.length = car.peers.length ∧
      ∀ (position : Nat) (peer : Peer), (car.stateChange index state).peers[position]? = some peer →
        ∃ earlier, car.peers[position]? = some earlier ∧ peer.backlog = earlier.backlog := by
  unfold Car.stateChange
  split
  · exact ⟨rfl, fun position peer found => ⟨peer, found, rfl⟩⟩
  · split
    · refine ⟨List.length_modify .., fun position peer found => ?_⟩
      obtain ⟨earlier, here, rfl⟩ := getElem?_modify_eq_some.mp found
      refine ⟨earlier, here, ?_⟩
      split <;> rfl
    · exact ⟨rfl, fun position peer found => ⟨peer, found, rfl⟩⟩

theorem Carries.stateChange (carries : Carries drive) (index : Nat) (state : PeerState) :
    Carries (drive.stateChange index state) := by
  obtain ⟨size, backlogs⟩ := stateChange_backlog drive.car index state
  constructor
  · exact size.trans carries.paired
  · exact carries.shut
  · intro position driver peer here there
    obtain ⟨earlier, foundEarlier, backlog⟩ := backlogs position peer there
    refine (carries.carried position driver earlier here foundEarlier).same ?_ backlog
    unfold Drive.stateChange
    split
    · rw [callsOf_concat, if_neg (by simp), List.append_nil]
    · rw [Drive.callsOf, List.append_nil, Drive.callsOf]
  · intro call member peer same
    rcases List.mem_append.mp member with older | new
    · exact carries.known call older peer same
    · split at new
      · rw [List.mem_singleton.mp new] at same
        cases same
      · cases new

theorem runDispatched_peers (car : Car) : car.runDispatched.peers = car.peers := by
  unfold Car.runDispatched
  split <;> rfl

theorem Carries.join (carries : Carries drive) (id : String) : Carries (drive.next (.join id)) := by
  constructor
  · simp only [Drive.next, Car.next, Car.createPeerConnection, List.length_append, carries.paired,
      List.length_cons, List.length_nil]
  · intro driver member closed
    rcases List.mem_append.mp member with older | new
    · exact carries.shut driver older closed
    · rw [List.mem_singleton.mp new] at closed
      cases closed
  · intro position driver peer here there
    have noCalls : drive.callsOf drive.drivers.length = [] := by
      rw [Drive.callsOf, List.map_eq_nil_iff, List.filter_eq_nil_iff]
      intro call member own
      exact absurd (carries.known call member _ (of_decide_eq_true own)) (Nat.lt_irrefl _)
    rcases getElem?_concat_eq_some.mp here with before | ⟨rfl, rfl⟩
    · rcases getElem?_concat_eq_some.mp there with earlier | ⟨rfl, rfl⟩
      · exact (carries.carried position driver peer before earlier).same rfl rfl
      · have bound := (List.getElem?_eq_some_iff.mp before).1
        rw [carries.paired] at bound
        exact absurd bound (Nat.lt_irrefl _)
    · rcases getElem?_concat_eq_some.mp there with earlier | ⟨-, rfl⟩
      · have bound := (List.getElem?_eq_some_iff.mp earlier).1
        rw [carries.paired] at bound
        exact absurd bound (Nat.lt_irrefl _)
      · have all : (drive.next (.join id)).callsOf drive.drivers.length ++ ([] : List Command) ++ [] = [] := by
          rw [List.append_nil, List.append_nil]
          exact noCalls
        exact ⟨⟨[], (List.append_nil _).trans all⟩, fun _ => all⟩
  · intro call member peer same
    rw [Drive.next, List.length_append]
    exact Nat.lt_add_right _ (carries.known call member peer same)

/-- The step lemma. -/
theorem next_carries (drive : Drive) (event : DriveEvent) (carries : Carries drive) :
    Carries (drive.next event) := by
  cases event with
  | join id => exact carries.join id
  | openChannel index =>
      refine carries.change ?_ ?_
      · intro driver _ shut closed
        have still : driver.closed = true := closed
        exact ⟨congrArg not still, (shut still).2⟩
      · exact fun driver peer _ carried => ⟨carried.inOrder, carried.complete⟩
  | page index event =>
      refine carries.change ?_ ?_
      · intro driver _ shut closed
        refine ⟨(shut closed).1, ?_⟩
        rw [Driver.onPage, driver.emit_closed (shut closed).1 event, (shut closed).2]
        rfl
      · exact fun driver peer member carried => carried.onPage (carries.shut driver member) event
  | deliver index => exact carries.deliver index
  | servoCall index => exact carries.servoCall index
  | closeChannel index =>
      refine carries.change ?_ ?_
      · exact fun driver _ _ _ => ⟨rfl, rfl⟩
      · exact fun driver peer _ carried => carried.closes
  | stateChange index state => exact carries.stateChange index state
  | runDispatched =>
      have peers : (drive.car.next .runDispatched).peers = drive.car.peers := runDispatched_peers drive.car
      refine ⟨(congrArg List.length peers).trans carries.paired, carries.shut, ?_, carries.known⟩
      intro position driver peer here there
      rw [Drive.next, peers] at there
      exact (carries.carried position driver peer here there).same rfl rfl

theorem initial_carries : Carries Drive.initial where
  paired := rfl
  shut driver member := by cases member
  carried index driver peer found := by cases found
  known call member := by cases member

end Step

/-- For any number of pages in any interleaving, what each page sends is commanded in the
order it was sent, once each, with nothing left out as long as the channel is there. -/
theorem commands_carried (events : List DriveEvent) :
    driving.Always Carries Drive.initial events :=
  driving.always_of_invariant next_carries initial_carries events

end RcControl.Control
