import RcControl.Stream.Server

namespace RcControl.Stream

open RcControl.Data RcControl.H264

/-! What a client receives, decoded, is what the encoder produced. -/

def Event.buffer? : Event → Option MmalBufferHeader
  | .buffer header => some header
  | _ => none

def buffersOf (events : List Event) : List MmalBufferHeader := events.filterMap Event.buffer?

theorem Event.eq_buffer {event : Event} {header : MmalBufferHeader}
    (found : event.buffer? = some header) : event = .buffer header := by
  cases event with
  | buffer own => cases found; rfl
  | createPeerConnection id | addToStream id | erase id => cases found

theorem buffersOf_buffer (header : MmalBufferHeader) (events : List Event) :
    buffersOf (.buffer header :: events) = header :: buffersOf events := rfl

theorem buffersOf_other {event : Event} (other : event.buffer? = none) (events : List Event) :
    buffersOf (event :: events) = buffersOf events :=
  List.filterMap_cons_none other

section Samples

variable [RtpClock]

/-- The samples `on_mmalcam_buffer` hands to the track of the client under `id`. -/
def samplesTo (startTimestamp : Nat → UInt32) (id : String) (server : Server) (events : List Event) :
    List (List UInt8) :=
  (events.zip ((streamServer startTimestamp).outputs server events)).flatMap fun (event, sent) =>
    if event.buffer?.isSome then (sent.filter (·.id = id)).map (·.data) else []

theorem samplesTo_cons (startTimestamp : Nat → UInt32) (id : String) (server : Server)
    (event : Event) (events : List Event) :
    samplesTo startTimestamp id server (event :: events) =
      (if event.buffer?.isSome then ((server.emit event).filter (·.id = id)).map (·.data) else []) ++
        samplesTo startTimestamp id (server.next startTimestamp event) events := rfl

def Server.Ready (server : Server) (id : String) : Prop :=
  ∃ client, server.clients.find? id = some client ∧ client.receiver.isSome

instance (server : Server) (id : String) : Decidable (server.Ready id) :=
  decidable_of_iff ((server.clients.find? id).any (·.receiver.isSome)) (Option.any_eq_true _ _)

def Server.Fits (server : Server) (event : Event) : Prop :=
  ∀ buffer, event.buffer? = some buffer →
    (acceptBuffer server.frame buffer).sBufLength ≤ sBufCapacity

section Step

variable (startTimestamp : Nat → UInt32) (server : Server)

theorem onMmalcamBuffer_frame (throws : String → Bool) (buffer : MmalBufferHeader) :
    (onMmalcamBuffer throws server buffer).server.frame = acceptBuffer server.frame buffer := by
  simp only [onMmalcamBuffer]
  split <;> rfl

theorem next_frame_of_not_buffer {event : Event} (other : event.buffer? = none) :
    (server.next startTimestamp event).frame = server.frame := by
  cases event with
  | buffer buffer => cases other
  | createPeerConnection id => rfl
  | addToStream id =>
      simp only [Server.next, addToStream]
      cases server.clients.find? id with
      | none => rfl
      | some client => cases video : client.video <;> simp only [video]
  | erase id => rfl

/-- Without exceptions, what a client is sent depends on its own entry only. -/
theorem fanOut_sent_filter {registry : Registry String Client} {id : String} {client : Client}
    (found : registry.find? id = some client) (lastFrameDuration : UInt32) (sample : List UInt8) :
    (fanOut noThrow lastFrameDuration sample registry.entries).sent.filter (·.id = id) =
      (client.receiver.map fun trackData =>
        ⟨id, client.handle, (trackData.stamp lastFrameDuration).timestamp, sample⟩).toList := by
  rw [(fanOut_noThrow _ _ _).1, List.filter_filterMap]
  have own : (fun entry : String × Client => Option.filter (fun sent : Sent => sent.id = id)
      (entry.2.receiver.map fun trackData =>
        ⟨entry.1, entry.2.handle, (trackData.stamp lastFrameDuration).timestamp, sample⟩)) =
      fun entry => if decide (entry.1 = id) then (entry.2.receiver.map fun trackData =>
        ⟨entry.1, entry.2.handle, (trackData.stamp lastFrameDuration).timestamp, sample⟩)
        else none := by
    funext entry
    cases entry.2.receiver with
    | none => simp
    | some trackData => simp [Option.filter]
  rw [own, ← List.filterMap_filter, Registry.entries_filter_key found]
  cases receiver : client.receiver <;> simp [receiver]

theorem onMmalcamBuffer_entries (buffer : MmalBufferHeader) :
    (onMmalcamBuffer noThrow server buffer).server.clients.entries =
      if (acceptBuffer server.frame buffer).pendingFrame then server.clients.entries
      else server.clients.entries.map fun entry =>
        (entry.1, entry.2.received (acceptBuffer server.frame buffer).lastFrameDuration) := by
  simp only [onMmalcamBuffer]
  split
  · rfl
  · exact fanOut_clients _ _ _

variable {server} in
theorem onMmalcamBuffer_ready {id : String} (ready : server.Ready id) (buffer : MmalBufferHeader) :
    (onMmalcamBuffer noThrow server buffer).server.Ready id := by
  obtain ⟨client, found, receives⟩ := ready
  have stored := Registry.mem_of_find? found
  have entries := onMmalcamBuffer_entries server buffer
  split at entries
  · exact ⟨client, Registry.find?_of_mem (by rwa [entries]), receives⟩
  · refine ⟨client.received (acceptBuffer server.frame buffer).lastFrameDuration,
      Registry.find?_of_mem ?_, by simpa using receives⟩
    rw [entries]
    exact List.mem_map_of_mem (f := fun entry : String × Client => (entry.1, entry.2.received _))
      stored

theorem onMmalcamBuffer_sent {id : String} (ready : server.Ready id) (buffer : MmalBufferHeader) :
    ((onMmalcamBuffer noThrow server buffer).sent.filter (·.id = id)).map (·.data) =
      (frames.emit server.frame buffer).toList := by
  obtain ⟨client, found, receives⟩ := ready
  obtain ⟨trackData, receiver⟩ := Option.isSome_iff_exists.mp receives
  simp only [onMmalcamBuffer, frames]
  cases pending : (acceptBuffer server.frame buffer).pendingFrame with
  | true => rfl
  | false =>
      simp only [Bool.false_eq_true, if_false]
      rw [fanOut_sent_filter found, receiver]
      rfl

end Step

section Run

variable (startTimestamp : Nat → UInt32)

theorem run_frame (server : Server) (events : List Event) :
    ((streamServer startTimestamp).run server events).frame =
      frames.run server.frame (buffersOf events) := by
  induction events generalizing server with
  | nil => rfl
  | cons event events ih =>
      rw [Machine.run_cons, ih]
      change frames.run (server.next startTimestamp event).frame _ = _
      cases kind : event.buffer? with
      | none => rw [buffersOf_other kind, next_frame_of_not_buffer startTimestamp server kind]
      | some buffer =>
          obtain rfl := Event.eq_buffer kind
          rw [buffersOf_buffer, Machine.run_cons]
          exact congrArg (frames.run · _) (onMmalcamBuffer_frame server noThrow buffer)

theorem samplesTo_eq_outputs {id : String} {server : Server} {events : List Event}
    (ready : (streamServer startTimestamp).Along (fun server _ => server.Ready id) server events) :
    samplesTo startTimestamp id server events =
      (frames.outputs server.frame (buffersOf events)).reduceOption := by
  induction events generalizing server with
  | nil => rfl
  | cons event events ih =>
      obtain ⟨now, later⟩ := ready
      have rest : samplesTo startTimestamp id (server.next startTimestamp event) events =
          (frames.outputs (server.next startTimestamp event).frame (buffersOf events)).reduceOption :=
        ih later
      rw [samplesTo_cons, rest]
      cases kind : event.buffer? with
      | none =>
          rw [buffersOf_other kind, next_frame_of_not_buffer startTimestamp server kind]
          rfl
      | some buffer =>
          obtain rfl := Event.eq_buffer kind
          have frame : (server.next startTimestamp (.buffer buffer)).frame =
              frames.next server.frame buffer := onMmalcamBuffer_frame server noThrow buffer
          have sent := onMmalcamBuffer_sent server now buffer
          rw [buffersOf_buffer, Machine.outputs_cons, frame, Option.isSome_some, if_pos rfl]
          change ((onMmalcamBuffer noThrow server buffer).sent.filter (·.id = id)).map (·.data) ++ _ = _
          rw [sent]
          cases frames.emit server.frame buffer <;> rfl

/-- What holds of the buffers along a run of the server is about the frame alone. -/
theorem along_buffers (condition : Frame → MmalBufferHeader → Prop) (server : Server)
    (events : List Event) :
    (streamServer startTimestamp).Along (fun server event => ∀ buffer, event.buffer? = some buffer →
        condition server.frame buffer) server events ↔
      frames.Along condition server.frame (buffersOf events) := by
  induction events generalizing server with
  | nil => exact Iff.rfl
  | cons event events ih =>
      have rest := ih (server.next startTimestamp event)
      cases kind : event.buffer? with
      | none =>
          rw [next_frame_of_not_buffer startTimestamp server kind] at rest
          rw [buffersOf_other kind, ← rest]
          refine and_iff_right fun buffer found => ?_
          rw [kind] at found
          cases found
      | some buffer =>
          obtain rfl := Event.eq_buffer kind
          have frame : (server.next startTimestamp (.buffer buffer)).frame =
              frames.next server.frame buffer := onMmalcamBuffer_frame server noThrow buffer
          rw [frame] at rest
          exact and_congr ⟨fun met => met buffer rfl, fun met _ found => by cases found; exact met⟩ rest

omit [RtpClock] in
theorem sample_length_le {frame : Frame} {buffers : List MmalBufferHeader}
    (fits : frames.Along (fun frame buffer => (acceptBuffer frame buffer).sBufLength ≤ sBufCapacity)
      frame buffers) :
    ∀ sample ∈ (frames.outputs frame buffers).reduceOption, sample.length ≤ sBufCapacity := by
  have emitted : ∀ frame buffer, (acceptBuffer frame buffer).sBufLength ≤ sBufCapacity →
      ∀ sample ∈ frames.emit frame buffer, sample.length ≤ sBufCapacity := by
    intro frame buffer bound sample sent
    simp only [frames] at sent
    split at sent
    · cases sent
    · cases sent
      rwa [Memory.read_length]
  have bounded : ∀ output ∈ frames.outputs frame buffers,
      ∀ sample ∈ output, sample.length ≤ sBufCapacity := frames.outputs_of_along emitted fits
  intro sample member
  exact bounded (some sample) (List.reduceOption_mem_iff.mp member) sample rfl

/-- The samples are what the assembler passes on, framed, and decode to it. -/
theorem samples_decode_held {id : String} {server : Server} {events : List Event}
    {buffers : List UnitBuffer} (held : Option (List (List UInt8))) (holds : Holds server.frame held)
    (carried : buffersOf events = buffers.map (·.header))
    (ready : (streamServer startTimestamp).Along (fun server _ => server.Ready id) server events)
    (fits : (streamServer startTimestamp).Along Server.Fits server events) :
    (samplesTo startTimestamp id server events).map Framing.decode =
      ((assembler (List UInt8)).outputs held (buffers.map UnitBuffer.batch)).reduceOption.map
        some := by
  have outputs := (frames_refine_held held holds buffers).2
  have samples : samplesTo startTimestamp id server events =
      ((assembler (List UInt8)).outputs held (buffers.map UnitBuffer.batch)).reduceOption.map
        Framing.encode := by
    rw [samplesTo_eq_outputs startTimestamp ready, carried, outputs, List.reduceOption_map]
  rw [samples, List.map_map]
  apply List.map_congr_left
  intro payloads member
  apply Framing.decode_encode
  -- A payload is a part of its sample, and the sample fits into `s_buf`.
  intro payload inside
  have size := sample_length_le ((along_buffers startTimestamp _ server events).mp fits)
    (Framing.encode payloads) (by
    rw [← samplesTo_eq_outputs startTimestamp ready, samples]
    exact List.mem_map_of_mem member)
  have part := List.single_le_sum (by simp) _ (List.mem_map_of_mem (f := (4 + ·.length)) inside)
  rw [Framing.encode_length, sBufCapacity] at size
  omega

theorem samples_decode {id : String} {server : Server} {events : List Event}
    {buffers : List UnitBuffer} (idle : server.frame.pendingFrame = false)
    (carried : buffersOf events = buffers.map (·.header))
    (ready : (streamServer startTimestamp).Along (fun server _ => server.Ready id) server events)
    (fits : (streamServer startTimestamp).Along Server.Fits server events) :
    (samplesTo startTimestamp id server events).map Framing.decode =
      ((assembler (List UInt8)).outputs none (buffers.map UnitBuffer.batch)).reduceOption.map
        some :=
  samples_decode_held startTimestamp none idle carried ready fits

end Run

/-- Over any run from an idle frame, with buffers of well-formed units that fit into
`s_buf`, the samples a `Ready` client is handed decode to the payloads of all the
buffers in order, up to one last configuration buffer that is still pending. -/
theorem samples_round_trip (startTimestamp : Nat → UInt32) (id : String) (server : Server)
    (events : List Event) (buffers : List UnitBuffer)
    (idle : server.frame.pendingFrame = false)
    (carried : buffersOf events = buffers.map (·.header))
    (ready : (streamServer startTimestamp).Along (fun server _ => server.Ready id) server events)
    (fits : (streamServer startTimestamp).Along Server.Fits server events) :
    ∃ (decoded : List (List (List UInt8))) (delivered pending : List UnitBuffer),
      (samplesTo startTimestamp id server events).map Framing.decode = decoded.map some ∧
      buffers = delivered ++ pending ∧
      decoded.flatten = (delivered.map UnitBuffer.payloads).flatten ∧
      if ((streamServer startTimestamp).run server events).frame.pendingFrame
      then ∃ last, pending = [last] ∧ last.header.config = true
      else pending = [] := by
  have holds := (frames_refine_assembler idle buffers).1
  obtain ⟨sentBatches, heldBatches, split, delivers, rest⟩ :=
    assembler_delivers (buffers.map UnitBuffer.batch)
  obtain ⟨delivered, pending, parts, rfl, rfl⟩ := List.map_eq_append_iff.mp split
  have payloadsOf : (delivered.map UnitBuffer.batch).map Prod.snd =
      delivered.map UnitBuffer.payloads := List.map_map
  rw [payloadsOf] at delivers
  refine ⟨_, delivered, pending, samples_decode startTimestamp idle carried ready fits, parts,
    delivers, ?_⟩
  rw [run_frame, carried]
  cases held : (assembler (List UInt8)).run none (buffers.map UnitBuffer.batch) with
  | none =>
      rw [held] at holds rest
      rw [if_neg (Bool.eq_false_iff.mp holds)]
      exact List.map_eq_nil_iff.mp rest
  | some items =>
      rw [held] at holds rest
      rw [if_pos holds.1]
      obtain ⟨last, single, batch⟩ := List.map_eq_singleton_iff.mp rest
      exact ⟨last, single, congrArg Prod.fst batch⟩

end Samples

def configThenSlice : List UnitBuffer :=
  [.holding [.plain true [0x67, 0x42] (by simp) (by simp) (by decide)] (by simp)
      mmalBufferHeaderFlagConfig mmalTimeUnknown,
    .holding [.plain false [0x41, 0x9A] (by simp) (by simp) (by decide)] (by simp) 0 33333]

def oneReadyClient : Server where
  frame := Frame.initial fun _ => 0
  clients := Registry.empty.emplace "a"
    { handle := 0
      state := .ready
      video := some { sender :=
        { rtpConfig := { startTimestamp := 0, timestamp := 0 }
          lastReportedTimestamp := 0
          needsToReport := false } } }
  created := 1

attribute [local instance] RtpClock.exact in
theorem samples_round_trip_config_then_slice :
    ∃ (decoded : List (List (List UInt8))) (delivered pending : List UnitBuffer),
      (samplesTo (fun _ => 0) "a" oneReadyClient
        (configThenSlice.map fun buffer => .buffer buffer.header)).map Framing.decode =
          decoded.map some ∧
      configThenSlice = delivered ++ pending ∧
      decoded.flatten = (delivered.map UnitBuffer.payloads).flatten ∧
      if ((streamServer fun _ => 0).run oneReadyClient
          (configThenSlice.map fun buffer => .buffer buffer.header)).frame.pendingFrame
      then ∃ last, pending = [last] ∧ last.header.config = true
      else pending = [] := by
  refine samples_round_trip (fun _ => 0) "a" oneReadyClient _ configThenSlice rfl rfl
    ⟨by decide, by decide +kernel, trivial⟩ ⟨?_, ?_, trivial⟩
  · rintro _ ⟨⟩
    decide +kernel
  · rintro _ ⟨⟩
    decide +kernel

end RcControl.Stream
