import RcControl.Data.Registry
import RcControl.Stream.UnitBuffers

namespace RcControl.Stream

open RcControl.Data RcControl.H264

/-! The clients of the stream and everything that is sent to them.

The library objects behind a track appear by what the program reads and writes:
the clock of `RtpPacketizationConfig`, the report bookkeeping of `RtcpSrReporter`,
and each call of `Track::send` as the message it carries and the timestamp it is
packetized with. -/

def defaultClockRate : Nat := 90 * 1000

structure RtpPacketizationConfig where
  startTimestamp : UInt32
  timestamp : UInt32
deriving DecidableEq, Repr

/-- The conversion of the library.  Both calls of `secondsToTimestamp` are for
`double(last_frame_duration) / (1000 * 1000)`; what comes out is a function of the
microseconds. -/
class RtpClock where
  elapsedTimestamp : UInt32 → UInt32

/-- Seconds to clock ticks, rounded exactly and kept modulo `2 ^ 32`. -/
def secondsToTimestamp (seconds : ℚ) : UInt32 :=
  UInt32.ofInt (round (seconds * defaultClockRate))

def durationSeconds (lastFrameDuration : UInt32) : ℚ := lastFrameDuration.toNat / (1000 * 1000)

/-- The conversion as exact arithmetic has it. -/
@[reducible] def RtpClock.exact : RtpClock where
  elapsedTimestamp lastFrameDuration := secondsToTimestamp (durationSeconds lastFrameDuration)

def timestampToSeconds (timestamp : UInt32) : ℚ := timestamp.toNat / defaultClockRate

structure RtcpSrReporter where
  rtpConfig : RtpPacketizationConfig
  lastReportedTimestamp : UInt32
  needsToReport : Bool
deriving DecidableEq, Repr

structure ClientTrackData where
  sender : RtcpSrReporter
deriving DecidableEq, Repr

inductive ClientState where
  | waiting | waitingForVideo | waitingForAudio | ready
deriving DecidableEq, Repr

/-- A client.  `handle` numbers the connections in the order they were created. -/
structure Client where
  handle : Nat
  state : ClientState
  video : Option ClientTrackData
deriving DecidableEq, Repr

def Client.receiver (client : Client) : Option ClientTrackData :=
  if client.state = .ready then client.video else none

/-- One message accepted by `Track::send`. -/
structure Sent where
  id : String
  handle : Nat
  timestamp : UInt32
  data : List UInt8
deriving DecidableEq, Repr

def ClientTrackData.timestamp (trackData : ClientTrackData) : UInt32 :=
  trackData.sender.rtpConfig.timestamp

def ClientTrackData.setTimestamp (trackData : ClientTrackData) (timestamp : UInt32) :
    ClientTrackData :=
  { trackData with
    sender.rtpConfig.timestamp := timestamp }

def ClientTrackData.setNeedsToReport (trackData : ClientTrackData) : ClientTrackData :=
  { trackData with
    sender.needsToReport := true }

/-- What `Track::send` does to the reporter in the media chain: a requested report is
made and its timestamp remembered. -/
def ClientTrackData.afterSend (trackData : ClientTrackData) : ClientTrackData :=
  if trackData.sender.needsToReport then
    { trackData with
      sender.needsToReport := false
      sender.lastReportedTimestamp := trackData.timestamp }
  else trackData

section Clocked

variable [RtpClock]

def ClientTrackData.stamp (trackData : ClientTrackData) (lastFrameDuration : UInt32) :
    ClientTrackData :=
  let elapsedTimestamp := RtpClock.elapsedTimestamp lastFrameDuration
  let trackData := trackData.setTimestamp
    (trackData.sender.rtpConfig.startTimestamp + elapsedTimestamp - 10)
  let reportElapsedTimestamp := trackData.timestamp - trackData.sender.lastReportedTimestamp
  if timestampToSeconds reportElapsedTimestamp > 1 then trackData.setNeedsToReport
  else trackData

/-- What the loop over `clients` leaves behind; `returned` is false if an exception left it. -/
structure FanOut where
  clients : List (String × Client)
  sent : List Sent
  returned : Bool

/-- The loop over `clients`.  `throws` tells for which clients `Track::send` throws;
nothing in the loop catches the exception. -/
def fanOut (throws : String → Bool) (lastFrameDuration : UInt32) (sample : List UInt8) :
    List (String × Client) → FanOut
  | [] => { clients := [], sent := [], returned := true }
  | (id, client) :: rest =>
      match client.receiver with
      | none =>
          let tail := fanOut throws lastFrameDuration sample rest
          { tail with clients := (id, client) :: tail.clients }
      | some trackData =>
          let trackData := trackData.stamp lastFrameDuration
          if throws id then
            { clients := (id, { client with video := some trackData }) :: rest
              sent := []
              returned := false }
          else
            let tail := fanOut throws lastFrameDuration sample rest
            { clients := (id, { client with video := some trackData.afterSend }) :: tail.clients
              sent := ⟨id, client.handle, trackData.timestamp, sample⟩ :: tail.sent
              returned := tail.returned }

theorem fanOut_keys (throws : String → Bool) (lastFrameDuration : UInt32) (sample : List UInt8)
    (entries : List (String × Client)) :
    (fanOut throws lastFrameDuration sample entries).clients.map Prod.fst =
      entries.map Prod.fst := by
  induction entries with
  | nil => rfl
  | cons entry rest ih =>
      obtain ⟨id, client⟩ := entry
      cases receiver : client.receiver with
      | none => simp only [fanOut, receiver, List.map_cons, ih]
      | some trackData =>
          cases thrown : throws id with
          | true => simp only [fanOut, receiver, thrown, if_true, List.map_cons]
          | false => simp [fanOut, receiver, thrown, ih]

structure Server where
  frame : Frame
  clients : Registry String Client
  created : Nat

structure Outcome where
  server : Server
  sent : List Sent
  returned : Bool

def onMmalcamBuffer (throws : String → Bool) (server : Server) (buffer : MmalBufferHeader) :
    Outcome :=
  let frame := acceptBuffer server.frame buffer
  if frame.pendingFrame then
    { server := { server with frame }, sent := [], returned := true }
  else
    let sample := frame.sBuf.read 0 frame.sBufLength
    let result := fanOut throws frame.lastFrameDuration sample server.clients.entries
    { server := { server with
        frame
        clients := server.clients.replace result.clients (fanOut_keys _ _ _ _) }
      sent := result.sent
      returned := result.returned }

def insertUnit (units : List UInt8) : Option (List UInt8) → List UInt8
  | some nalu => units ++ nalu
  | none => units

def initialNALUS (cache : KeyFrameCache) : List UInt8 :=
  insertUnit (insertUnit (insertUnit [] cache.previousUnitType7) cache.previousUnitType8)
    cache.previousUnitType5

/-- `sendInitialNalus`: the track afterwards, and the timestamp and data of each send. -/
def sendInitialNalus (frame : Frame) (video : ClientTrackData) :
    ClientTrackData × List (UInt32 × List UInt8) :=
  let initialNalus := initialNALUS frame.cache
  if initialNalus.isEmpty then
    (video, [])
  else
    let frameTimestampDuration := RtpClock.elapsedTimestamp frame.lastFrameDuration
    let first := video.setTimestamp
      (video.sender.rtpConfig.startTimestamp - frameTimestampDuration * 2)
    let second := first.afterSend.setTimestamp (first.afterSend.timestamp + frameTimestampDuration)
    (second.afterSend, [(first.timestamp, initialNalus), (second.timestamp, initialNalus)])

/-- `addToStream`, run for the client under `id` if it still exists. -/
def addToStream (server : Server) (id : String) : Server × List Sent :=
  match server.clients.find? id with
  | none => (server, [])
  | some client =>
      match client.video with
      | none =>
          -- `video.value()` throws after the state has been set.
          ({ server with clients := server.clients.update id ({ · with state := .ready }) }, [])
      | some video =>
          let (video', messages) := sendInitialNalus server.frame video
          ({ server with
              clients := server.clients.update id
                ({ · with state := .ready, video := some video' }) },
            messages.map fun (timestamp, data) => ⟨id, client.handle, timestamp, data⟩)

/-- The part of `createPeerConnection` that concerns the stream.  The library draws the
start timestamp of every new track. -/
def createPeerConnection (startTimestamp : Nat → UInt32) (server : Server) (id : String) : Server :=
  let rtpConfig : RtpPacketizationConfig :=
    { startTimestamp := startTimestamp server.created, timestamp := startTimestamp server.created }
  let video : ClientTrackData :=
    { sender := { rtpConfig, lastReportedTimestamp := 0, needsToReport := false } }
  let client : Client := { handle := server.created, state := .waiting, video := some video }
  { server with clients := server.clients.emplace id client, created := server.created + 1 }

inductive Event where
  | buffer (buffer : MmalBufferHeader)
  | createPeerConnection (id : String)
  | addToStream (id : String)
  | erase (id : String)

/-- Sending as the library does it on open tracks: no call of `Track::send` throws. -/
def noThrow : String → Bool := fun _ => false

def Server.next (startTimestamp : Nat → UInt32) (server : Server) : Event → Server
  | .buffer buffer => (onMmalcamBuffer noThrow server buffer).server
  | .createPeerConnection id => createPeerConnection startTimestamp server id
  | .addToStream id => (addToStream server id).1
  | .erase id => { server with clients := server.clients.erase id }

def Server.emit (server : Server) : Event → List Sent
  | .buffer buffer => (onMmalcamBuffer noThrow server buffer).sent
  | .addToStream id => (addToStream server id).2
  | .createPeerConnection _ | .erase _ => []

def streamServer (startTimestamp : Nat → UInt32) : Machine Server Event (List Sent) where
  next := Server.next startTimestamp
  emit := Server.emit

theorem fanOut_noThrow (lastFrameDuration : UInt32) (sample : List UInt8)
    (entries : List (String × Client)) :
    (fanOut noThrow lastFrameDuration sample entries).sent =
        entries.filterMap (fun (id, client) => client.receiver.map fun trackData =>
          ⟨id, client.handle, (trackData.stamp lastFrameDuration).timestamp, sample⟩) ∧
      (fanOut noThrow lastFrameDuration sample entries).returned = true := by
  induction entries with
  | nil => exact ⟨rfl, rfl⟩
  | cons entry entries ih =>
      obtain ⟨id, client⟩ := entry
      obtain ⟨sent, returned⟩ := ih
      cases receiver : client.receiver with
      | none => simp [fanOut, receiver, sent, returned]
      | some trackData => simp [fanOut, receiver, sent, returned, noThrow]

/-- A client after a call in which no send throws. -/
def Client.received (lastFrameDuration : UInt32) (client : Client) : Client :=
  match client.receiver with
  | none => client
  | some trackData => { client with video := some (trackData.stamp lastFrameDuration).afterSend }

theorem fanOut_clients (lastFrameDuration : UInt32) (sample : List UInt8)
    (entries : List (String × Client)) :
    (fanOut noThrow lastFrameDuration sample entries).clients =
      entries.map fun entry => (entry.1, entry.2.received lastFrameDuration) := by
  induction entries with
  | nil => rfl
  | cons entry entries ih =>
      obtain ⟨id, client⟩ := entry
      cases receiver : client.receiver <;>
        simp [fanOut, receiver, ih, noThrow, Client.received]

@[simp] theorem received_handle (lastFrameDuration : UInt32) (client : Client) :
    (client.received lastFrameDuration).handle = client.handle := by
  unfold Client.received
  split <;> rfl

@[simp] theorem received_state (lastFrameDuration : UInt32) (client : Client) :
    (client.received lastFrameDuration).state = client.state := by
  unfold Client.received
  split <;> rfl

@[simp] theorem received_receiver_isSome (lastFrameDuration : UInt32) (client : Client) :
    (client.received lastFrameDuration).receiver.isSome = client.receiver.isSome := by
  unfold Client.received
  cases receiver : client.receiver with
  | none => rw [receiver]
  | some trackData =>
      have ready : client.state = .ready := by
        by_contra waits
        rw [Client.receiver, if_neg waits] at receiver
        cases receiver
      simp only [Client.receiver, ready, if_true, Option.isSome_some]

@[simp] theorem stamp_timestamp (trackData : ClientTrackData) (lastFrameDuration : UInt32) :
    (trackData.stamp lastFrameDuration).timestamp =
      trackData.sender.rtpConfig.startTimestamp +
        RtpClock.elapsedTimestamp lastFrameDuration - 10 := by
  simp only [ClientTrackData.stamp]
  split <;> rfl

end Clocked

end RcControl.Stream
