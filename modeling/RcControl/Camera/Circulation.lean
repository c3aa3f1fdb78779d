import RcControl.Data.Fifo
import RcControl.Data.Ledger
import RcControl.Data.Machine

namespace RcControl.Camera

open RcControl.Data

/-! The buffer headers in the main loop of `mmal_start_camcorder`, without tunnelling.

An event is one step of the main loop or one callback of a port, and a queue is a list that
each function changes at once: this is about where the headers go.  That
`mmal_queue_length` is read without the lock, while a put may be under way, matters for when
the loops end, not for that.  A buffer is a header with the payload it carries; a released
one carries none. -/

variable {Payload : Type*}

inductive Pool where
  | encoderIn
  | encoderOut
deriving DecidableEq, Repr

structure Header where
  pool : Pool
  number : Nat
deriving DecidableEq, Repr

structure Buffer (Payload : Type*) where
  header : Header
  payload : Option Payload
deriving DecidableEq, Repr

inductive Port where
  | videoPort
  | encoderInput
  | encoderOutput
deriving DecidableEq, Repr

inductive Queue where
  /-- The `queue` of a pool. -/
  | pool (pool : Pool)
  | encoderIn
  | encoderOut
deriving DecidableEq, Repr

/-- The queue that the main loop sends to a port from. -/
def Port.source : Port → Queue
  | .videoPort => .pool .encoderIn
  | .encoderInput => .encoderIn
  | .encoderOutput => .pool .encoderOut

/-- Where the main loop is.  A send remembers the queue as it was. -/
inductive Main (Payload : Type*) where
  | top
  /-- At the test of the loop in `fill_port_from_pool`. -/
  | fill (port : Port)
  | get (port : Port)
  | sending (port : Port) (buffer : Buffer Payload) (before : List (Buffer Payload))
  | puttingBack (port : Port) (buffer : Buffer Payload) (before : List (Buffer Payload))
  | process
  | passing (buffer : Buffer Payload)
  | releasing (buffer : Buffer Payload)
  | stopped
deriving DecidableEq, Repr

/-- `returned` lists what a port gave to its callback and `offered` what it was sent,
with success or not; `passed` lists what `cb` was called with. -/
structure Camcorder (Payload : Type*) where
  main : Main Payload
  queues : Queue → Fifo (Buffer Payload)
  held : Port → List Header
  returned : Port → List (Buffer Payload)
  offered : Port → List (Buffer Payload)
  passed : List (Buffer Payload)

inductive Event (Payload : Type*) where
  /-- A step of the main loop; `stop` is read at the top, and `sent` is the outcome of
  `mmal_port_send_buffer`. -/
  | main (stop sent : Bool)
  | callback (port : Port) (header : Header) (payload : Payload)

/-- After `fill_port_from_pool`, which is called for two of the ports. -/
def Port.afterFill : Port → Main Payload
  | .videoPort => .fill .encoderOutput
  | .encoderOutput | .encoderInput => .get .encoderInput

/-- After a `send_buffer_from_queue` that is successful. -/
def Port.afterSend : Port → Main Payload
  | .videoPort => .fill .videoPort
  | .encoderOutput => .fill .encoderOutput
  | .encoderInput => .process

def Header.reset (header : Header) : Buffer Payload where
  header
  payload := none

def Pool.headers (pool : Pool) (headersNum : Nat) : List Header :=
  (List.range headersNum).map (Header.mk pool)

namespace Camcorder

def initial (Payload : Type*) (headersNum : Pool → Nat) : Camcorder Payload where
  main := .top
  queues queue :=
    match queue with
    | .pool pool => Fifo.filled ((pool.headers (headersNum pool)).map Header.reset)
    | .encoderIn | .encoderOut => Fifo.empty
  held _ := []
  returned _ := []
  offered _ := []
  passed := []

variable (state : Camcorder Payload)

def goTo (main : Main Payload) : Camcorder Payload :=
  { state with main }

def setQueue (queue : Queue) (fifo : Fifo (Buffer Payload)) : Camcorder Payload :=
  { state with queues := Function.update state.queues queue fifo }

def setHeld (port : Port) (headers : List Header) : Camcorder Payload :=
  { state with held := Function.update state.held port headers }

def addReturned (port : Port) (buffer : Buffer Payload) : Camcorder Payload :=
  { state with returned := Function.update state.returned port (state.returned port ++ [buffer]) }

def addOffered (port : Port) (buffer : Buffer Payload) : Camcorder Payload :=
  { state with offered := Function.update state.offered port (state.offered port ++ [buffer]) }

def mmalQueuePut (queue : Queue) (buffer : Buffer Payload) : Camcorder Payload :=
  state.setQueue queue ((state.queues queue).push buffer)

def mmalQueuePutBack (queue : Queue) (buffer : Buffer Payload) : Camcorder Payload :=
  state.setQueue queue ((state.queues queue).putBack buffer)

/-- What `mmal_queue_get` leaves of a queue that is not empty. -/
def mmalQueueGet (queue : Queue) : Camcorder Payload :=
  state.setQueue queue (state.queues queue).take

def mmalBufferHeaderRelease (header : Header) : Camcorder Payload :=
  state.mmalQueuePut (.pool header.pool) header.reset

def genericOutputPortCb (userdata : Queue) (cmd : Nat) (buffer : Buffer Payload) : Camcorder Payload :=
  if cmd ≠ 0 then state.mmalBufferHeaderRelease buffer.header
  else state.mmalQueuePut userdata buffer

def genericInputPortCb (buffer : Buffer Payload) : Camcorder Payload :=
  state.mmalBufferHeaderRelease buffer.header

def portCallback (buffer : Buffer Payload) : Port → Camcorder Payload
  | .videoPort => state.genericOutputPortCb .encoderIn 0 buffer
  | .encoderOutput => state.genericOutputPortCb .encoderOut 0 buffer
  | .encoderInput => state.genericInputPortCb buffer

def mainStep (stop sent : Bool) : Camcorder Payload :=
  match state.main with
  | .top => if stop then state.goTo .stopped else state.goTo (.fill .videoPort)
  | .fill port =>
      if (state.queues port.source).queue.length > 0 then state.goTo (.get port)
      else state.goTo port.afterFill
  | .get port =>
      match (state.queues port.source).queue with
      | [] => state.goTo port.afterSend
      | buffer :: rest =>
          (state.mmalQueueGet port.source).goTo (.sending port buffer (buffer :: rest))
  | .sending port buffer before =>
      if sent then
        ((state.addOffered port buffer).setHeld port (state.held port ++ [buffer.header])).goTo
          port.afterSend
      else (state.addOffered port buffer).goTo (.puttingBack port buffer before)
  | .puttingBack port buffer _ => (state.mmalQueuePutBack port.source buffer).goTo .stopped
  | .process =>
      match (state.queues .encoderOut).queue with
      | [] => state.goTo .top
      | buffer :: _ => (state.mmalQueueGet .encoderOut).goTo (.passing buffer)
  | .passing buffer => { state with passed := state.passed ++ [buffer], main := .releasing buffer }
  | .releasing buffer => (state.mmalBufferHeaderRelease buffer.header).goTo .top
  | .stopped => state

def next : Event Payload → Camcorder Payload
  | .main stop sent => state.mainStep stop sent
  | .callback port header payload =>
      if header ∈ state.held port then
        ((state.setHeld port ((state.held port).erase header)).addReturned port
          ⟨header, some payload⟩).portCallback ⟨header, some payload⟩ port
      else state

end Camcorder

def camcorder (Payload : Type*) : Machine (Camcorder Payload) (Event Payload) Unit where
  next := Camcorder.next
  emit _ _ := ()

/-! Where a header can be. -/

inductive Place where
  | queue (queue : Queue)
  | port (port : Port)
  | hand
deriving DecidableEq, Repr

instance : Fintype Place where
  elems := {.queue (.pool .encoderIn), .queue (.pool .encoderOut), .queue .encoderIn,
    .queue .encoderOut, .port .videoPort, .port .encoderInput, .port .encoderOutput, .hand}
  complete := by
    intro place
    cases place with
    | queue queue =>
        cases queue with
        | pool pool => cases pool <;> decide
        | encoderIn | encoderOut => decide
    | port port => cases port <;> decide
    | hand => decide

def Pool.places : Pool → List Place
  | .encoderIn =>
      [.queue (.pool .encoderIn), .port .videoPort, .queue .encoderIn, .port .encoderInput, .hand]
  | .encoderOut => [.queue (.pool .encoderOut), .port .encoderOutput, .queue .encoderOut, .hand]

/-- What the main loop has in its hands. -/
def Main.hand : Main Payload → List (Buffer Payload)
  | .sending _ buffer _ | .puttingBack _ buffer _ | .passing buffer | .releasing buffer => [buffer]
  | .top | .fill _ | .get _ | .process | .stopped => []

def Camcorder.ledger (state : Camcorder Payload) : Place → List Header
  | .queue queue => (state.queues queue).queue.map Buffer.header
  | .port port => state.held port
  | .hand => state.main.hand.map Buffer.header

/-- The buffer headers circulate: each one of each pool is in exactly one of its places,
once, and what the encoder and `cb` get is what came, in order. -/
structure Circulates (headersNum : Pool → Nat) (state : Camcorder Payload) : Prop where
  somewhere : ∀ pool : Pool, ∀ header ∈ pool.headers (headersNum pool),
    ∃! place, header ∈ state.ledger place
  once : ∀ place, (state.ledger place).Nodup
  circuit : ∀ place, ∀ header ∈ state.ledger place,
    place ∈ header.pool.places ∧ header ∈ header.pool.headers (headersNum header.pool)
  frames : state.offered .encoderInput <+: state.returned .videoPort
  packets : state.passed <+: state.returned .encoderOutput

/-- A failed send leaves the queue as it was, but for what has arrived at its end. -/
def KeepsOrder (state : Camcorder Payload) (event : Event Payload) : Prop :=
  ∀ stop sent port buffer before, event = .main stop sent →
    state.main = .puttingBack port buffer before →
      before <+: ((state.next event).queues port.source).queue

end RcControl.Camera
