import RcControl.Camera.FrameOrder
import RcControl.Stream.RoundTrip
import RcControl.Stream.Timestamps

namespace RcControl.Program

open RcControl.Data RcControl.Camera RcControl.Stream

/-! From the encoder to the clients.

The camcorder's main loop calls `on_mmalcam_buffer` with each packet; the threads that serve
clients run between its steps. -/

structure Pipeline where
  camcorder : Camcorder MmalBufferHeader
  server : Server

inductive Step where
  | camera (event : Camera.Event MmalBufferHeader)
  | createPeerConnection (id : String)
  | addToStream (id : String)
  | erase (id : String)

/-- The header that `cb` is given; one without a payload has been reset. -/
def packet (buffer : Buffer MmalBufferHeader) : MmalBufferHeader :=
  buffer.payload.getD { data := fun _ => 0, offset := 0, length := 0, flags := 0, pts := mmalTimeUnknown }

namespace Pipeline

def initial (headersNum : Pool → Nat) (cells : Nat → UInt8) : Pipeline where
  camcorder := Camcorder.initial MmalBufferHeader headersNum
  server := Server.initial cells

/-- What a step is for the stream server. -/
def serverEvent (pipeline : Pipeline) : Step → Option Stream.Event
  | .camera (.main _ _) =>
      match pipeline.camcorder.main with
      | .passing buffer => some (.buffer (packet buffer))
      | _ => none
  | .camera (.callback _ _ _) => none
  | .createPeerConnection id => some (.createPeerConnection id)
  | .addToStream id => some (.addToStream id)
  | .erase id => some (.erase id)

variable [RtpClock]

def next (startTimestamp : Nat → UInt32) (pipeline : Pipeline) (step : Step) : Pipeline where
  camcorder :=
    match step with
    | .camera event => pipeline.camcorder.next event
    | .createPeerConnection _ | .addToStream _ | .erase _ => pipeline.camcorder
  server := (streamServer startTimestamp).run pipeline.server (pipeline.serverEvent step).toList

/-- The samples that the track of a client is handed in a step. -/
def samples (startTimestamp : Nat → UInt32) (pipeline : Pipeline) (step : Step) (id : String) :
    List (List UInt8) :=
  samplesTo startTimestamp id pipeline.server (pipeline.serverEvent step).toList

end Pipeline

def pipeline [RtpClock] (startTimestamp : Nat → UInt32) :
    Machine Pipeline Step (String → List (List UInt8)) where
  next := Pipeline.next startTimestamp
  emit := Pipeline.samples startTimestamp

/-- What happens to the stream server in a run. -/
def history [RtpClock] (startTimestamp : Nat → UInt32) : Pipeline → List Step → List Stream.Event
  | _, [] => []
  | state, step :: steps =>
      (state.serverEvent step).toList ++ history startTimestamp (state.next startTimestamp step) steps

section Projection

variable [RtpClock]

variable (startTimestamp : Nat → UInt32) {state : Pipeline} {steps : List Step}

end Projection

section InFlight

variable {headersNum : Pool → Nat} {state : Pipeline}

/-- The packets that the encoder has returned and `cb` has not been called with. -/
def inFlight (camcorder : Camcorder MmalBufferHeader) : List (Buffer MmalBufferHeader) :=
  camcorder.main.unpassed ++ (camcorder.queues .encoderOut).queue

/-- A packet in the hands of the main loop is one of the encoder's. -/
def FromEncoder (camcorder : Camcorder MmalBufferHeader) : Prop :=
  ∀ buffer ∈ camcorder.main.unpassed, buffer.header.pool = .encoderOut

structure Tracked (headersNum : Pool → Nat) (state : Pipeline) : Prop where
  flowing : Flowing headersNum state.camcorder
  fromEncoder : FromEncoder state.camcorder

theorem pool_of_queued {camcorder : Camcorder MmalBufferHeader}
    (flowing : Flowing headersNum camcorder) {buffer : Buffer MmalBufferHeader}
    (queued : buffer ∈ (camcorder.queues .encoderOut).queue) : buffer.header.pool = .encoderOut := by
  have place := flowing.conserved.placed (.queue .encoderOut) buffer.header (List.mem_map_of_mem queued)
  cases pool : buffer.header.pool with
  | encoderOut => rfl
  | encoderIn =>
      rw [pool] at place
      exact absurd place (by decide)

theorem FromEncoder.none {camcorder : Camcorder MmalBufferHeader} (none : camcorder.main.unpassed = []) :
    FromEncoder camcorder := by
  intro buffer inHand
  rw [none] at inHand
  cases inHand

theorem mainStep_fromEncoder {camcorder : Camcorder MmalBufferHeader}
    (flowing : Flowing headersNum camcorder) (stop sent : Bool) :
    FromEncoder (camcorder.mainStep stop sent) := by
  cases here : camcorder.main with
  | process =>
      simp only [Camcorder.mainStep, here]
      split
      · exact FromEncoder.none rfl
      · rename_i first rest head
        intro buffer inHand
        obtain rfl := List.mem_singleton.mp inHand
        exact pool_of_queued flowing (by rw [head]; exact List.mem_cons_self)
  | fill port | sending port buffer before =>
      simp only [Camcorder.mainStep, here]
      split <;> cases port <;> exact FromEncoder.none rfl
  | get port =>
      simp only [Camcorder.mainStep, here]
      split
      · cases port <;> exact FromEncoder.none rfl
      · exact FromEncoder.none rfl
  | top =>
      simp only [Camcorder.mainStep, here]
      split <;> exact FromEncoder.none rfl
  | puttingBack port buffer before | passing buffer | releasing buffer =>
      simp only [Camcorder.mainStep, here]
      exact FromEncoder.none rfl
  | stopped =>
      simp only [Camcorder.mainStep, here]
      exact FromEncoder.none (by rw [here]; rfl)

theorem callback_main (camcorder : Camcorder MmalBufferHeader) (port : Port) (header : Header)
    (payload : MmalBufferHeader) :
    (camcorder.next (.callback port header payload)).main = camcorder.main := by
  simp only [Camcorder.next]
  split
  · cases port <;> rfl
  · rfl

theorem Tracked.next [RtpClock] (tracked : Tracked headersNum state) (startTimestamp : Nat → UInt32) (step : Step) :
    Tracked headersNum (state.next startTimestamp step) := by
  cases step with
  | createPeerConnection id | addToStream id | erase id => exact ⟨tracked.flowing, tracked.fromEncoder⟩
  | camera event =>
      refine ⟨next_flowing _ event tracked.flowing, ?_⟩
      cases event with
      | main stop sent => exact mainStep_fromEncoder tracked.flowing stop sent
      | callback port header payload =>
          intro buffer inHand
          simp only [Pipeline.next, callback_main] at inHand
          exact tracked.fromEncoder buffer inHand

/-- `cb` has been called with the packets in order, up to those in flight. -/
theorem Tracked.returned (tracked : Tracked headersNum state) :
    state.camcorder.returned .encoderOutput = state.camcorder.passed ++ inFlight state.camcorder := by
  obtain ⟨conserved, inLine, gathered⟩ := tracked.flowing
  rw [← gathered.packets, (inLine.accounted _).eq_of_not_discarded (inLine.kept _), inLine.passed,
    List.append_assoc, inFlight]

end InFlight

section Delivery

instance (server : Server) (event : Stream.Event) : Decidable (server.Fits event) :=
  inferInstanceAs (Decidable (∀ buffer ∈ event.buffer?,
    (acceptBuffer server.frame buffer).sBufLength ≤ sBufCapacity))

end Delivery

end RcControl.Program
