import RcControl.Signalling.Handler

namespace RcControl.Signalling

open RcControl.Data RcControl.Control

/-! Which sockets are still there.

The server hands each incoming socket over, and the program's pointers are the only ones
that own it.  A socket therefore lasts until the next browser connects, or until the
last handler that was running then returns. -/

/-- The browser has connected and not closed its socket. -/
def Server.Open (server : Server) (socket : Nat) : Prop :=
  socket < server.sockets ∧ socket ∉ server.closed

/-- A message of a connected browser is handled, and when the gathering for its peer
connection is complete, the description is sent on its own socket. -/
def Served (server : Server) (event : Event) (effects : List Effect) : Prop :=
  match event with
  | .message socket _ => server.Open socket → .handled socket ∈ effects
  | .gatheringComplete pc type sdp =>
      ∀ connection, server.connections[pc]? = some connection → server.lockPc pc = true →
        server.Open connection.socket →
          .send connection.socket (Server.localDescription connection.id type sdp) ∈ effects
  | .connect | .close _ | .handler _ | .stateChange _ _ | .runDispatched => True

/-- No browser has connected after this one, or one of its handlers is still running. -/
def Server.Kept (server : Server) (socket : Nat) : Prop :=
  socket + 1 = server.sockets ∨ ∃ handler ∈ server.handlers, handler.socket = socket

/-- The socket an event needs is kept. -/
def NeedsKept (server : Server) : Event → Prop
  | .message socket _ => server.Open socket → server.Kept socket
  | .gatheringComplete pc _ _ =>
      ∀ connection, server.connections[pc]? = some connection → server.lockPc pc = true →
        server.Open connection.socket → server.Kept connection.socket
  | .connect | .close _ | .handler _ | .stateChange _ _ | .runDispatched => True

/-- The variable `client` holds the latest socket. -/
def Server.Latest (server : Server) : Prop :=
  ∀ socket, server.client = some socket ↔ socket + 1 = server.sockets

section Step

variable {server : Server}

theorem lock_iff (latest : server.Latest) (socket : Nat) :
    server.lock socket = true ↔ server.Kept socket := by
  simp only [Server.lock, Server.Kept, Bool.or_eq_true, decide_eq_true_eq, List.any_eq_true,
    latest socket]

theorem next_latest (rtc : Rtc) (server : Server) (event : Event) (latest : server.Latest) :
    (server.step rtc event).1.Latest := by
  cases event with
  | connect =>
      intro socket
      simp only [Server.step, Server.onClient, Option.some.injEq, Nat.add_right_cancel_iff]
      exact eq_comm
  | close socket | gatheringComplete pc type sdp => exact latest
  | message socket data =>
      simp only [Server.step, Server.message]
      split <;> exact latest
  | handler index =>
      simp only [Server.step, Server.handler]
      split <;> exact latest
  | stateChange pc state =>
      simp only [Server.step, Server.stateChange]
      split
      · exact latest
      · split <;> exact latest
  | runDispatched =>
      simp only [Server.step, Server.runDispatched]
      split <;> exact latest

theorem handled_iff_lock (rtc : Rtc) (socket : Nat) (data : SocketData) :
    .handled socket ∈ (server.message rtc socket data).2 ↔ server.lock socket = true := by
  unfold Server.message
  split
  · rename_i locked
    exact iff_of_true List.mem_cons_self locked
  · rename_i unlocked
    exact iff_of_false (by simp) unlocked

theorem send_iff_lock {pc : Nat} {connection : Connection}
    (here : server.connections[pc]? = some connection) (alive : server.lockPc pc = true)
    (type sdp : String) :
    .send connection.socket (Server.localDescription connection.id type sdp) ∈
        server.gatheringComplete pc type sdp ↔ server.lock connection.socket = true := by
  simp only [Server.gatheringComplete, here, alive, Bool.true_and]
  split
  · rename_i locked
    exact iff_of_true List.mem_cons_self locked
  · rename_i unlocked
    exact iff_of_false (by simp) unlocked

theorem served_iff (rtc : Rtc) (latest : server.Latest) (event : Event) :
    Served server event (server.step rtc event).2 ↔ NeedsKept server event := by
  cases event with
  | message socket data =>
      refine forall_congr' fun _ => ?_
      exact (handled_iff_lock rtc socket data).trans (lock_iff latest socket)
  | gatheringComplete pc type sdp =>
      refine forall_congr' fun connection => forall_congr' fun here => forall_congr' fun alive =>
        forall_congr' fun _ => ?_
      exact (send_iff_lock here alive type sdp).trans (lock_iff latest connection.socket)
  | connect | close _ | handler _ | stateChange _ _ | runDispatched => exact Iff.rfl

end Step

/-- Every message and every description of a connected browser goes through.  -/
def BrowsersServed (rtc : Rtc) (events : List Event) : Prop :=
  (signalling rtc).Along (fun server event => Served server event (server.step rtc event).2)
    Server.initial events

/-- In every interleaving, the browsers are served exactly when, at each of their messages
and of the completed gatherings for them, their socket is the latest or still in a handler. -/
theorem browsers_served_iff (rtc : Rtc) (events : List Event) :
    BrowsersServed rtc events ↔ (signalling rtc).Along NeedsKept Server.initial events := by
  refine (signalling rtc).along_congr Server.Latest (fun server event latest => served_iff rtc latest event)
    (fun server event latest _ => next_latest rtc server event latest) ?_ events
  intro socket
  simp [Server.initial]

/-- A second browser connects before the first one sends its request. -/
theorem not_browsers_served :
    ¬ ∀ (rtc : Rtc) (events : List Event), BrowsersServed rtc events := by
  intro served
  let rtc : Rtc := { description := fun _ _ => .ok (), candidate := fun _ _ => .ok () }
  let request : Json := .object [("id", .string "a"), ("type", .string "request")]
  obtain ⟨-, -, handled, -⟩ := served rtc [.connect, .connect, .message 0 (.text (.ok request))]
  have effects := handled ⟨by decide, by decide⟩
  cases effects

end RcControl.Signalling
