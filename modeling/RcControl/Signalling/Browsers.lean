import RcControl.Signalling.Handler

namespace RcControl.Signalling

open RcControl.Data RcControl.Control

/-! The page's side of the signalling, and both sides together.

A browser sends one request when its socket has been open for a while, and then an answer
to each offer that it gets.  What either side sends arrives in order, if it arrives. -/

/-- A message of the page, `JSON.stringify(..)`, as the server parses it. -/
def requestMessage (id : String) : Json := .object [("id", .string id), ("type", .string "request")]

def answerMessage (id sdp : String) : Json :=
  .object [("id", .string id), ("type", .string "answer"), ("sdp", .string sdp)]

/-- `answering` lists the offers that a running `handleOffer` is about, `answers` each offer
that was answered together with its answer. -/
structure Browser where
  clientId : String
  isOpen : Bool
  started : Bool
  inbox : List Json
  answering : List String
  outbox : List Json
  answers : List (String × String)

namespace Browser

def opened (clientId : String) : Browser where
  clientId := clientId
  isOpen := true
  started := false
  inbox := []
  answering := []
  outbox := []
  answers := []

def sendRequest (browser : Browser) : Browser :=
  { browser with outbox := browser.outbox ++ [requestMessage browser.clientId] }

/-- The timer that `websocket.onopen` sets fires once. -/
def start (browser : Browser) : Browser :=
  if browser.isOpen && !browser.started then { browser.sendRequest with started := true }
  else browser

/-- `websocket.onmessage`, up to the first `await` of `handleOffer`; that rejects a message
without an sdp. -/
def onmessage (browser : Browser) (message : Json) : Browser :=
  match message.find "type", message.find "sdp" with
  | some (.string "offer"), some (.string sdp) =>
      { browser with answering := browser.answering ++ [sdp] }
  | _, _ => browser

def receive (browser : Browser) : Browser :=
  match browser.inbox with
  | [] => browser
  | message :: inbox => { browser.onmessage message with inbox }

/-- The end of `sendAnswer`, with the answer that `createAnswer` made of one of the offers. -/
def sendAnswer (browser : Browser) (index : Nat) (sdp : String) : Browser :=
  match browser.answering[index]? with
  | none => browser
  | some offer =>
      { browser with
        answering := browser.answering.eraseIdx index
        outbox := browser.outbox ++ [answerMessage browser.clientId sdp]
        answers := browser.answers ++ [(offer, sdp)] }

/-- What arrives for a page that is gone is lost, and so is what it did not get sent. -/
def close (browser : Browser) : Browser :=
  { browser with isOpen := false, inbox := [], answering := [], outbox := [] }

def arrive (message : Json) (browser : Browser) : Browser :=
  if browser.isOpen then { browser with inbox := browser.inbox ++ [message] } else browser

end Browser

/-- A browser's position in `browsers` is the number of its socket.  `described` lists the
local descriptions of the peer connections. -/
structure Session where
  server : Server
  browsers : List Browser
  described : List (Nat × String)

inductive Move where
  | connect (clientId : String)
  | start (browser : Nat)
  /-- The next message of a browser reaches the server. -/
  | deliver (browser : Nat)
  | handler (index : Nat)
  /-- The peer connection `pc` has described itself, in an offer. -/
  | gatheringComplete (pc : Nat) (sdp : String)
  /-- The next message of the server reaches a browser. -/
  | receive (browser : Nat)
  | sendAnswer (browser index : Nat) (sdp : String)
  | stateChange (pc : Nat) (state : PeerState)
  | runDispatched
  | close (browser : Nat)

namespace Session

def initial : Session where
  server := Server.initial
  browsers := []
  described := []

def post (browsers : List Browser) : Effect → List Browser
  | .send socket message => browsers.modify socket (Browser.arrive message)
  | .handled _ | .threw _ | .remote _ _ => browsers

/-- The server takes a step, and what it sends is on its way. -/
def serve (rtc : Rtc) (session : Session) (event : Event) : Session × List Effect :=
  let (server, effects) := session.server.step rtc event
  ({ session with server, browsers := effects.foldl post session.browsers }, effects)

def change (session : Session) (browser : Nat) (step : Browser → Browser) : Session :=
  { session with browsers := session.browsers.modify browser step }

def deliver (rtc : Rtc) (session : Session) (browser : Nat) : Session × List Effect :=
  match session.browsers[browser]? with
  | some { outbox := message :: outbox, .. } =>
      (session.change browser fun browser => { browser with outbox }).serve rtc
        (.message browser (.text (.ok message)))
  | _ => (session, [])

def step (rtc : Rtc) (session : Session) : Move → Session × List Effect
  | .connect clientId =>
      { session with browsers := session.browsers ++ [Browser.opened clientId] }.serve rtc .connect
  | .start browser => (session.change browser Browser.start, [])
  | .deliver browser => session.deliver rtc browser
  | .handler index => session.serve rtc (.handler index)
  | .gatheringComplete pc sdp =>
      if pc < session.server.connections.length then
        { session with described := session.described ++ [(pc, sdp)] }.serve rtc
          (.gatheringComplete pc "offer" sdp)
      else (session, [])
  | .receive browser => (session.change browser Browser.receive, [])
  | .sendAnswer browser index sdp =>
      (session.change browser (·.sendAnswer index sdp), [])
  | .stateChange pc state => session.serve rtc (.stateChange pc state)
  | .runDispatched => session.serve rtc .runDispatched
  | .close browser => (session.change browser Browser.close).serve rtc (.close browser)

end Session

def negotiation (rtc : Rtc) : Machine Session Move (List Effect) where
  next session move := (session.step rtc move).1
  emit session move := (session.step rtc move).2

/-! What a browser can rely on. -/

/-- The connection `pc` was made for the browser on this socket. -/
def Session.Serves (session : Session) (pc socket : Nat) (clientId : String) : Prop :=
  ∃ connection, session.server.connections[pc]? = some connection ∧
    connection.socket = socket ∧ connection.id = clientId

/-- No two browsers draw the same random id. -/
def FreshId (session : Session) (move : Move) : Prop :=
  ∀ clientId, move = .connect clientId → clientId ∉ session.browsers.map Browser.clientId

/-- An offer goes to the browser that its connection was made for, and is the description
of that connection. -/
def OffersMatch (session : Session) (effects : List Effect) : Prop :=
  ∀ socket message, .send socket message ∈ effects →
    ∃ browser pc sdp, session.browsers[socket]? = some browser ∧
      session.Serves pc socket browser.clientId ∧ (pc, sdp) ∈ session.described ∧
      message = Server.localDescription browser.clientId "offer" sdp

/-- What a connection is given is the answer of its own browser to its own offer. -/
def AnswersMatch (session : Session) (effects : List Effect) : Prop :=
  ∀ pc call, .remote (some pc) call ∈ effects →
    ∃ socket browser offer sdp, session.browsers[socket]? = some browser ∧
      session.Serves pc socket browser.clientId ∧ (pc, offer) ∈ session.described ∧
      (offer, sdp) ∈ browser.answers ∧ call = .setRemoteDescription sdp "answer"

/-- An answer misses its connection only if that has terminated. -/
def MissesTerminated (session : Session) (effects : List Effect) : Prop :=
  ∀ call, .remote none call ∈ effects →
    ∃ socket browser pc connection offer sdp, session.browsers[socket]? = some browser ∧
      session.server.connections[pc]? = some connection ∧ connection.socket = socket ∧
      connection.id = browser.clientId ∧ connection.terminated = true ∧
      (pc, offer) ∈ session.described ∧ (offer, sdp) ∈ browser.answers ∧
      call = .setRemoteDescription sdp "answer"

/-- Each browser has at most one connection. -/
def OneEach (session : Session) : Prop :=
  ∀ first second socket clientId clientId', session.Serves first socket clientId →
    session.Serves second socket clientId' → first = second

end RcControl.Signalling
