import RcControl.Control.Peers

namespace RcControl.Signalling

open RcControl.Data RcControl.Control

/-! The signalling server.

Every browser has a socket of its own, but `run_websocket_server` keeps only the latest
one in its variable `client`; handlers and peer connections hold weak pointers.  The
handlers of different sockets run on different threads, and the erase jobs of
`MainThread` on another one: the events below are the steps these threads take. -/

/-- What the constructors of the two library types make of their arguments: they throw
an exception, here its text, or build a value. -/
structure Rtc where
  description (sdp type : String) : Except String Unit
  candidate (candidate mid : String) : Except String Unit

/-- `message[key]` for an object: a missing member is added as null. -/
def member (key : String) (message : Json) : Json := (message.find key).getD .null

/-- `get<std::string>()`, or the text of the `type_error` it throws. -/
def getString : Json → Except String String
  | .string value => .ok value
  | other => .error
      ("[json.exception.type_error.302] type must be string, but is " ++ other.typeName)

/-- `message.find(key)` and the conversion of what it finds. -/
def findString (key : String) (message : Json) : Except String (Option String) :=
  match message.find key with
  | none => .ok none
  | some value => (getString value).map some

inductive RemoteCall where
  | setRemoteDescription (sdp type : String)
  | addRemoteCandidate (candidate mid : String)
deriving DecidableEq, Repr

/-- The call a message makes on `pc`, once its arguments have been built. -/
def remoteCall (rtc : Rtc) (type : String) (message : Json) : Except String (Option RemoteCall) :=
  if type = "offer" ∨ type = "answer" then do
    let sdp ← getString (member "sdp" message)
    rtc.description sdp type
    return some (.setRemoteDescription sdp type)
  else if type = "candidate" then do
    let sdp ← getString (member "candidate" message)
    let mid ← getString (member "mid" message)
    rtc.candidate sdp mid
    return some (.addRemoteCandidate sdp mid)
  else return none

/-- What arrives on a socket: binary data, or text and what parsing it gives. -/
inductive SocketData where
  | binary
  | text (document : Except String Json)

inductive Stage where
  /-- The lookup found nothing, and `createPeerConnection` comes next. -/
  | create (id type : String) (message : Json)
  | returning

/-- A running `onMessage` handler.  Its local `client` owns the socket. -/
structure Handler where
  socket : Nat
  pc : Option Nat
  stage : Stage

structure Connection where
  id : String
  socket : Nat
  terminated : Bool
deriving DecidableEq, Repr

/-- Sockets and peer connections are numbered in the order they were made. -/
structure Server where
  sockets : Nat
  closed : List Nat
  client : Option Nat
  connections : List Connection
  clients : Registry String Nat
  handlers : List Handler
  queue : List String

inductive Event where
  | connect
  | close (socket : Nat)
  | message (socket : Nat) (data : SocketData)
  | handler (index : Nat)
  | stateChange (pc : Nat) (state : PeerState)
  | runDispatched
  | gatheringComplete (pc : Nat) (type sdp : String)

inductive Effect where
  | handled (socket : Nat)
  | threw (text : String)
  | remote (pc : Option Nat) (call : RemoteCall)
  | send (socket : Nat) (message : Json)

namespace Server

def initial : Server where
  sockets := 0
  closed := []
  client := none
  connections := []
  clients := Registry.empty
  handlers := []
  queue := []

/-- `wclient.lock()`: the socket lives while the variable or a running handler owns it. -/
def lock (server : Server) (socket : Nat) : Bool :=
  server.client = some socket || server.handlers.any (·.socket = socket)

/-- `wpc.lock()`: a peer connection lives while a client or a running handler owns it. -/
def lockPc (server : Server) (pc : Nat) : Bool :=
  server.clients.entries.any (·.2 = pc) || server.handlers.any (·.pc = some pc)

def onClient (server : Server) : Server :=
  { server with sockets := server.sockets + 1, client := some server.sockets }

def createPeerConnection (server : Server) (socket : Nat) (id : String) : Server :=
  { server with
    connections := server.connections ++ [{ id, socket, terminated := false }]
    clients := server.clients.emplace id server.connections.length }

def remoteEffects (rtc : Rtc) (pc : Option Nat) (type : String) (message : Json) : List Effect :=
  match remoteCall rtc type message with
  | .error text => [.threw text]
  | .ok none => []
  | .ok (some call) => [.remote pc call]

/-- The body of `onMessage` up to where it would create a peer connection, or to its end. -/
def onMessage (rtc : Rtc) (server : Server) : SocketData → (Option Nat × Stage) × List Effect
  | .binary => ((none, .returning), [])
  | .text (.error text) => ((none, .returning), [.threw text])
  | .text (.ok message) =>
      match findString "id" message with
      | .error text => ((none, .returning), [.threw text])
      | .ok none => ((none, .returning), [])
      | .ok (some id) =>
          match findString "type" message with
          | .error text => ((none, .returning), [.threw text])
          | .ok none => ((none, .returning), [])
          | .ok (some type) =>
              match server.clients.find? id with
              | some pc => ((some pc, .returning), remoteEffects rtc (some pc) type message)
              | none =>
                  if type = "offer" ∨ type = "request" then ((none, .create id type message), [])
                  else ((none, .returning), remoteEffects rtc none type message)

def message (rtc : Rtc) (server : Server) (socket : Nat) (data : SocketData) : Server × List Effect :=
  if server.lock socket then
    let ((pc, stage), effects) := server.onMessage rtc data
    ({ server with handlers := server.handlers ++ [{ socket, pc, stage }] },
      .handled socket :: effects)
  else (server, [])

/-- The next step of a running handler: it creates the peer connection and goes on to its
end, or it returns. -/
def handler (rtc : Rtc) (server : Server) (index : Nat) : Server × List Effect :=
  match server.handlers[index]? with
  | none => (server, [])
  | some { stage := .returning, .. } =>
      ({ server with handlers := server.handlers.eraseIdx index }, [])
  | some { socket, stage := .create id type message, .. } =>
      let pc := server.connections.length
      ({ server.createPeerConnection socket id with
          handlers := server.handlers.set index { socket, pc := some pc, stage := .returning } },
        remoteEffects rtc (some pc) type message)

def stateChange (server : Server) (pc : Nat) (state : PeerState) : Server :=
  match server.connections[pc]? with
  | none => server
  | some { id, .. } =>
      if state.terminal then
        { server with
          queue := server.queue ++ [id]
          connections := server.connections.modify pc fun connection =>
            { connection with terminated := true } }
      else server

def runDispatched (server : Server) : Server :=
  match server.queue with
  | [] => server
  | id :: queue => { server with clients := server.clients.erase id, queue := queue }

/-- The text sent when gathering is complete, as the browser parses it. -/
def localDescription (id type sdp : String) : Json :=
  .object [("id", .string id), ("type", .string type), ("sdp", .string sdp)]

def gatheringComplete (server : Server) (pc : Nat) (type sdp : String) : List Effect :=
  match server.connections[pc]? with
  | none => []
  | some { id, socket, .. } =>
      if server.lockPc pc && server.lock socket then
        [.send socket (localDescription id type sdp)]
      else []

def step (rtc : Rtc) (server : Server) : Event → Server × List Effect
  | .connect => (server.onClient, [])
  | .close socket => ({ server with closed := socket :: server.closed }, [])
  | .message socket data => server.message rtc socket data
  | .handler index => server.handler rtc index
  | .stateChange pc state => (server.stateChange pc state, [])
  | .runDispatched => (server.runDispatched, [])
  | .gatheringComplete pc type sdp => (server, server.gatheringComplete pc type sdp)

end Server

def signalling (rtc : Rtc) : Machine Server Event (List Effect) where
  next server event := (server.step rtc event).1
  emit server event := (server.step rtc event).2

end RcControl.Signalling
