import RcControl.Camera.Conservation
import RcControl.Mmal.Callers

namespace RcControl.Camera

open RcControl.Data

/-! The main loop of `mmal_start_camcorder` with the queues of `mmal_queue.c`.

The functions of a queue are no longer one step: the main loop and the callbacks are parties
that take their steps one by one, so a length may be read while a put is under way, and a get
may find the semaphore at zero.  Payloads are left out. -/

inductive Caller where
  | mainLoop
  /-- The callback that a header was returned with last. -/
  | callback (header : Header)
deriving DecidableEq, Repr

/-- Where the main loop is, and whose headers it has in hand.  `creating` and `adding` are in
`mmal_pool_create`, for both pools. -/
inductive Loop where
  | creating (left : List Header)
  | adding (header : Header) (left : List Header)
  | top
  /-- In `mmal_queue_length`, at the test of the loop in `fill_port_from_pool`. -/
  | testing (port : Port)
  | getting (port : Port)
  | sending (port : Port) (header : Header)
  | puttingBack (port : Port) (header : Header)
  | processing
  | passing (header : Header)
  | releasing (header : Header)
  | stopped
deriving DecidableEq, Repr

/-- The call that the main loop is in. -/
def Loop.expects : Loop → Option (Queue × Mmal.Call Header)
  | .adding header _ | .releasing header => some (.pool header.pool, .put header)
  | .testing port => some (port.source, .length)
  | .getting port => some (port.source, .get)
  | .puttingBack port header => some (port.source, .putBack header)
  | .processing => some (.encoderOut, .get)
  | .creating _ | .top | .sending _ _ | .passing _ | .stopped => none

/-- The queue that the callback of a port puts a header in, where `cmd` is zero: its
`userdata`, or for an input port the queue of the pool that the header is released to. -/
def Port.returnsTo (port : Port) (header : Header) : Queue :=
  match port with
  | .videoPort => .encoderIn
  | .encoderOutput => .encoderOut
  | .encoderInput => .pool header.pool

/-- `offered` lists what a port was sent, with success or not. -/
structure Circuit where
  main : Loop
  callers : Mmal.Callers Caller Queue Header
  held : Port → List Header
  offered : Port → List Header

namespace Circuit

inductive Event where
  /-- A step of the main loop; `stop` is read at the top, and `sent` is the outcome of
  `mmal_port_send_buffer`. -/
  | main (stop sent : Bool)
  /-- The port returns a header: its callback begins. -/
  | returns (port : Port) (header : Header)
  | callback (header : Header)
deriving DecidableEq, Repr

def initial (headersNum : Pool → Nat) : Circuit where
  main := .creating (allHeaders headersNum)
  callers := .initial Caller Queue Header
  held _ := []
  offered _ := []

variable (state : Circuit)

def goTo (main : Loop) : Circuit := { state with main }

def addOffered (port : Port) (header : Header) : Circuit :=
  { state with offered := Function.update state.offered port (state.offered port ++ [header]) }

def setHeld (port : Port) (headers : List Header) : Circuit :=
  { state with held := Function.update state.held port headers }

def stepOf (caller : Caller) : Circuit :=
  { state with callers := state.callers.step caller }

/-- The main loop calls a function of a queue. -/
def calls (queue : Queue) (call : Mmal.Call Header) (main : Loop) : Circuit :=
  { state with
    main
    callers := state.callers.enter .mainLoop queue call }

/-- From the top of the loop in `fill_port_from_pool`. -/
def fill (port : Port) : Circuit :=
  state.calls port.source .length (.testing port)

def sendBufferFromQueue (port : Port) : Circuit :=
  state.calls port.source .get (.getting port)

/-- After `fill_port_from_pool`, which is called for two of the ports. -/
def afterFill : Port → Circuit
  | .videoPort => state.fill .encoderOutput
  | .encoderOutput | .encoderInput => state.sendBufferFromQueue .encoderInput

/-- After a `send_buffer_from_queue` that is successful. -/
def afterSend : Port → Circuit
  | .videoPort => state.fill .videoPort
  | .encoderOutput => state.fill .encoderOutput
  | .encoderInput => state.calls .encoderOut .get .processing

/-- What the main loop does when it is in no call, or its call has returned. -/
def goOn (stop sent : Bool) : Circuit :=
  match state.main with
  | .creating [] => state.goTo .top
  | .creating (header :: left) => state.calls (.pool header.pool) (.put header) (.adding header left)
  | .adding _ left => state.goTo (.creating left)
  | .top => if stop then state.goTo .stopped else state.fill .videoPort
  | .testing port =>
      if state.callers.lengthRead .mainLoop > 0 then state.sendBufferFromQueue port
      else state.afterFill port
  | .getting port =>
      match state.callers.headerGot .mainLoop with
      | some header => state.goTo (.sending port header)
      -- There is nothing to send, which is a success.
      | none => state.afterSend port
  | .sending port header =>
      if sent then
        ((state.addOffered port header).setHeld port (state.held port ++ [header])).afterSend port
      else
        (state.addOffered port header).calls port.source (.putBack header) (.puttingBack port header)
  | .puttingBack _ _ => state.goTo .stopped
  | .processing =>
      match state.callers.headerGot .mainLoop with
      | some header => state.goTo (.passing header)
      | none => state.goTo .top
  | .passing header => state.calls (.pool header.pool) (.put header) (.releasing header)
  | .releasing _ => state.goTo .top
  | .stopped => state

def mainStep (stop sent : Bool) : Circuit :=
  if state.callers.busy .mainLoop then state.stepOf .mainLoop else state.goOn stop sent

def next : Event → Circuit
  | .main stop sent => state.mainStep stop sent
  | .returns port header =>
      if header ∈ state.held port then
        { state.setHeld port ((state.held port).erase header) with
          callers := state.callers.enter (.callback header) (port.returnsTo header) (.put header) }
      else state
  | .callback header => state.stepOf (.callback header)

/-- What the main loop has in its hands, a header that it has just taken off a queue included. -/
def hand : List Header :=
  match state.main with
  | .creating left | .adding _ left => left
  | .getting _ | .processing => (state.callers.stage .mainLoop).toList.flatMap Mmal.Thread.takes
  | .sending _ header | .passing header => [header]
  | .top | .testing _ | .puttingBack _ _ | .releasing _ | .stopped => []

def ledger (contents : Queue → List Header) : Place → List Header
  | .queue queue => (state.callers.queues queue).stored (contents queue)
  | .port port => state.held port
  | .hand => state.hand

end Circuit

def circuit : Machine Circuit Circuit.Event Unit where
  next := Circuit.next
  emit _ _ := ()

/-- What holds of the headers and of the calls in every state. -/
structure Circuit.Stands (headersNum : Pool → Nat) (passed : Queue → Multiset Header)
    (contents : Queue → List Header) (state : Circuit) : Prop where
  sound : state.callers.Sound passed contents
  whole : Ledger.total (state.ledger contents) = allHeaders headersNum
  placed : ∀ place, ∀ header ∈ state.ledger contents place, place ∈ header.pool.places
  handed : ∀ port, state.main = .getting port ∨ (∃ header, state.main = .sending port header) →
    ∀ header ∈ state.hand, .port port ∈ header.pool.places
  called : ∀ queue call, state.main.expects = some (queue, call) →
    ∃ thread, state.callers.calls .mainLoop = some (queue, thread, call)
  idle : state.main.expects = none → state.callers.busy .mainLoop = false
  putting : ∀ header queue thread call,
    state.callers.calls (.callback header) = some (queue, thread, call) → call = .put header
  /-- A callback that has not returned has its header in the queue, or on its way there. -/
  stored : ∀ header queue thread call,
    state.callers.calls (.callback header) = some (queue, thread, call) →
    state.callers.busy (.callback header) = true → header ∈ state.ledger contents (.queue queue)

end RcControl.Camera
