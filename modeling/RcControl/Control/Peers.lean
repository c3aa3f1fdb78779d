import RcControl.Data.Machine
import RcControl.Data.Registry
import RcControl.Control.Message

namespace RcControl.Control

open RcControl.Data

/-! The car's servos under the callbacks of its peer connections.

A peer's message handler and its state callback run on threads of their own, and a
dispatched erase on another one.  The events below are the steps these threads take;
a handler's servo calls are separate steps, so other threads can come in between. -/

inductive PeerState where
  | new | connecting | connected | disconnected | failed | closed
deriving DecidableEq, Repr

def PeerState.terminal : PeerState → Bool
  | .disconnected | .failed | .closed => true
  | .new | .connecting | .connected => false

/-- A peer connection: whether a terminal state of it has been handled, and the servo
calls its message handler has yet to make. -/
structure Peer where
  id : String
  terminated : Bool
  backlog : List Command
deriving DecidableEq, Repr

/-- The state the callbacks share.  A peer's position in `peers` is its number, and
`clients` maps ids to numbers. -/
structure Car where
  steer : Int
  bldc : Int
  peers : List Peer
  clients : Registry String Nat
  queue : List String

namespace Car

def initial : Car where
  steer := 1500
  bldc := 1500
  peers := []
  clients := Registry.empty
  queue := []

def width (car : Car) : Servo → Int
  | .steer => car.steer
  | .bldc => car.bldc

def servo (car : Car) (command : Command) : Car :=
  match command.servo with
  | .steer => { car with steer := command.pwm }
  | .bldc => { car with bldc := command.pwm }

end Car

inductive PeerEvent where
  | createPeerConnection (id : String)
  /-- A message reaches its handler; there is no document if the text does not parse. -/
  | message (peer : Nat) (document : Option Json)
  | servoCall (peer : Nat)
  | stateChange (peer : Nat) (state : PeerState)
  | runDispatched

namespace Car

def createPeerConnection (car : Car) (id : String) : Car :=
  { car with
    peers := car.peers ++ [{ id, terminated := false, backlog := [] }]
    clients := car.clients.emplace id car.peers.length }

/-- `dc->onMessage`: parsing throws, or the handler has servo calls to make. -/
def message (car : Car) (peer : Nat) : Option Json → Car
  | none => car
  | some document =>
      { car with
        peers := car.peers.modify peer fun peer =>
          { peer with backlog := peer.backlog ++ (onMessage document).commands } }

def servoCall (car : Car) (peer : Nat) : Car :=
  match car.peers[peer]? with
  | some { backlog := command :: rest, .. } =>
      { car.servo command with
        peers := car.peers.modify peer fun peer => { peer with backlog := rest } }
  | _ => car

def stateChange (car : Car) (peer : Nat) (state : PeerState) : Car :=
  match car.peers[peer]? with
  | none => car
  | some { id, .. } =>
      if state.terminal then
        { car with
          queue := car.queue ++ [id]
          bldc := 1500
          peers := car.peers.modify peer fun peer => { peer with terminated := true } }
      else car

def runDispatched (car : Car) : Car :=
  match car.queue with
  | [] => car
  | id :: queue => { car with clients := car.clients.erase id, queue := queue }

def next (car : Car) : PeerEvent → Car
  | .createPeerConnection id => car.createPeerConnection id
  | .message peer document => car.message peer document
  | .servoCall peer => car.servoCall peer
  | .stateChange peer state => car.stateChange peer state
  | .runDispatched => car.runDispatched

end Car

def carServer : Machine Car PeerEvent Unit where
  next := Car.next
  emit _ _ := ()

def LateCall (car : Car) (event : PeerEvent) (command : Command) : Prop :=
  ∃ number peer rest, event = .servoCall number ∧ car.peers[number]? = some peer ∧
    peer.terminated = true ∧ peer.backlog = command :: rest

def LateCallChangesNothing (car : Car) (event : PeerEvent) : Prop :=
  ∀ command, LateCall car event command → ∀ servo, (car.next event).width servo = car.width servo

def LateCallRepeats (car : Car) (event : PeerEvent) : Prop :=
  ∀ command, LateCall car event command → car.width command.servo = command.pwm

def Car.Stopped (car : Car) : Prop :=
  (∀ peer ∈ car.peers, peer.terminated = true) → car.bldc = 1500

/-- The dead-man rule: no message of a peer changes a servo after its terminal state, and
the throttle is neutral whenever all peers have terminated. -/
def DeadMan (events : List PeerEvent) : Prop :=
  carServer.Along LateCallChangesNothing Car.initial events ∧
    carServer.Always Car.Stopped Car.initial events

section Step

variable {car : Car}

theorem servo_width (command : Command) (servo : Servo) :
    (car.servo command).width servo =
      if servo = command.servo then command.pwm else car.width servo := by
  obtain ⟨target, pwm⟩ := command
  cases target <;> cases servo <;> rfl

theorem servoCall_width {number : Nat} {peer : Peer} {command : Command} {rest : List Command}
    (found : car.peers[number]? = some peer) (calls : peer.backlog = command :: rest)
    (servo : Servo) :
    (car.servoCall number).width servo = (car.servo command).width servo := by
  obtain ⟨id, terminated, backlog⟩ := peer
  obtain rfl : backlog = command :: rest := calls
  simp only [Car.servoCall, found]
  cases servo <;> rfl

theorem lateCall_iff (event : PeerEvent) :
    LateCallChangesNothing car event ↔ LateCallRepeats car event := by
  apply Iff.intro
  · intro changesNothing command late
    have same := changesNothing command late command.servo
    obtain ⟨number, peer, rest, rfl, found, terminated, calls⟩ := late
    rw [Car.next, servoCall_width found calls, servo_width, if_pos rfl] at same
    exact same.symm
  · intro repeats command late servo
    have same := repeats command late
    obtain ⟨number, peer, rest, rfl, found, terminated, calls⟩ := late
    rw [Car.next, servoCall_width found calls, servo_width]
    split
    · rename_i own
      rw [own, same]
    · rfl

theorem allTerminated_modify {peers : List Peer} {number : Nat} (change : Peer → Peer)
    (keeps : ∀ peer, (change peer).terminated = peer.terminated)
    (all : ∀ peer ∈ peers.modify number change, peer.terminated = true) :
    ∀ peer ∈ peers, peer.terminated = true := by
  intro peer member
  obtain ⟨position, found⟩ := List.mem_iff_getElem?.mp member
  have changed : (peers.modify number change)[position]? =
      some (if number = position then change peer else peer) := by
    rw [List.getElem?_modify, found]
    split <;> rfl
  have terminated := all _ (List.mem_of_getElem? changed)
  split at terminated
  · rwa [keeps] at terminated
  · exact terminated

theorem servoCall_stopped (stopped : car.Stopped) (number : Nat)
    (repeats : LateCallRepeats car (.servoCall number)) : (car.servoCall number).Stopped := by
  unfold Car.servoCall
  split
  · rename_i id terminated command rest found
    intro all
    have before : ∀ peer ∈ car.peers, peer.terminated = true :=
      allTerminated_modify (fun peer => { peer with backlog := rest }) (fun _ => rfl) all
    have own := before _ (List.mem_of_getElem? found)
    have same := repeats command ⟨number, _, rest, rfl, found, own, rfl⟩
    change (car.servo command).width .bldc = 1500
    rw [servo_width]
    split
    · rename_i throttle
      rw [← same, ← throttle]
      exact stopped before
    · exact stopped before
  · exact stopped

theorem next_stopped (car : Car) (event : PeerEvent) (repeats : LateCallRepeats car event)
    (stopped : car.Stopped) : (car.next event).Stopped := by
  cases event with
  | createPeerConnection id =>
      intro all
      have fresh := all { id, terminated := false, backlog := [] } (by simp [Car.next, Car.createPeerConnection])
      cases fresh
  | message number document =>
      cases document with
      | none => exact stopped
      | some document =>
          exact fun all => stopped (allTerminated_modify
            (fun peer => { peer with backlog := peer.backlog ++ (onMessage document).commands })
            (fun _ => rfl) all)
  | servoCall number => exact servoCall_stopped stopped number repeats
  | stateChange number state =>
      change (car.stateChange number state).Stopped
      unfold Car.stateChange
      split
      · exact stopped
      · split
        · exact fun _ => rfl
        · exact stopped
  | runDispatched =>
      change car.runDispatched.Stopped
      unfold Car.runDispatched
      split
      · exact stopped
      · exact stopped

end Step

/-- In every interleaving, the dead-man rule holds exactly when each servo call made for a
peer after its terminal state repeats the pulse width already in force. -/
theorem deadMan_iff (events : List PeerEvent) :
    DeadMan events ↔ carServer.Along LateCallRepeats Car.initial events := by
  have same : carServer.Along LateCallChangesNothing Car.initial events ↔
      carServer.Along LateCallRepeats Car.initial events :=
    carServer.along_congr (fun _ => True) (fun _ event _ => lateCall_iff event)
      (fun _ _ _ _ => trivial) trivial events
  rw [DeadMan, same]
  refine and_iff_left_of_imp fun along => ?_
  exact carServer.always_of_along next_stopped along fun _ => rfl

/-- A throttle message handled after its peer's disconnect leaves the car driving. -/
theorem not_deadMan : ¬ ∀ events : List PeerEvent, DeadMan events := by
  intro deadMan
  obtain ⟨-, -, -, -, -, last⟩ := deadMan [.createPeerConnection "a", .stateChange 0 .disconnected,
    .message 0 (some (.object [("y", .integer 1300)])), .servoCall 0]
  have neutral := last (by decide)
  exact absurd neutral (by decide)

end RcControl.Control
