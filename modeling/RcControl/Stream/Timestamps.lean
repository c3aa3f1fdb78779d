import RcControl.Data.Serial
import RcControl.Stream.RoundTrip

namespace RcControl.Stream

open RcControl.Data

/-! The timestamps a client's messages are sent with.

A live sample is stamped with the time since the buffer before it, not since the
start of the stream: its timestamp depends on the gap in presentation times alone. -/

/-- The presentation times of the last two buffers, zero where there was none. -/
structure Clock where
  previous : Int
  last : Int
deriving DecidableEq, Repr

namespace Clock

def start : Clock := ⟨0, 0⟩

def see (clock : Clock) (event : Event) : Clock :=
  match event.buffer? with
  | some buffer => ⟨clock.last, buffer.pts⟩
  | none => clock

def gap (clock : Clock) : Int := clock.last - clock.previous

end Clock

/-- A gap as 32-bit microseconds in ticks of the 90 kHz clock, rounded. -/
def ticks (gap : Int) : Int := (9 * (gap % 2 ^ 32) + 50) / 100

/-- What a message is about: a live sample or a join burst, and the gap when it was sent. -/
inductive Moment where
  | live (pts gap : Int)
  | burst (gap : Int)
deriving DecidableEq, Repr

def Moment.isLive : Moment → Bool
  | .live _ _ => true
  | .burst _ => false

structure Delivery where
  handle : Nat
  moment : Moment
  timestamps : List UInt32
deriving DecidableEq, Repr

def deliveriesOf (gap : Int) (event : Event) (sent : List Sent) : List Delivery :=
  match event.buffer? with
  | some buffer => sent.map fun message =>
      ⟨message.handle, .live buffer.pts gap, [message.timestamp]⟩
  | none =>
      match sent with
      | [] => []
      | first :: rest =>
          [⟨first.handle, .burst gap, (first :: rest).map (·.timestamp)⟩]

section Deliveries

variable [RtpClock]

def deliveries (startTimestamp : Nat → UInt32) (server : Server) (clock : Clock) :
    List Event → List Delivery
  | [] => []
  | event :: events =>
      deliveriesOf (clock.see event).gap event (server.emit event) ++
        deliveries startTimestamp (server.next startTimestamp event) (clock.see event) events

def Server.initial (cells : Nat → UInt8) : Server where
  frame := Frame.initial cells
  clients := Registry.empty
  created := 0

def deliveriesTo (startTimestamp : Nat → UInt32) (cells : Nat → UInt8) (handle : Nat)
    (events : List Event) : List Delivery :=
  (deliveries startTimestamp (Server.initial cells) Clock.start events).filter (·.handle = handle)

end Deliveries

/-- What is to hold of two consecutive live samples with known presentation times that
are not too far apart, in terms of their gaps and of the ticks between those times. -/
def Elapses (first second : Moment) (advance : Int → Int → ℚ → Prop) : Prop :=
  ∀ pts gap pts' gap', first = .live pts gap → second = .live pts' gap' →
    pts ≠ mmalTimeUnknown → pts' ≠ mmalTimeUnknown → pts < pts' →
    ((pts' - pts : Int) : ℚ) * 90000 / 10 ^ 6 < 2 ^ 31 →
      advance gap gap' (((pts' - pts : Int) : ℚ) * 90000 / 10 ^ 6)

/-- Consecutive live samples advance by the presentation time between them, and every
burst precedes all later live samples in serial order. -/
def TimestampsFollow (deliveries : List Delivery) : Prop :=
  (deliveries.filter (·.moment.isLive)).IsChain (fun first second =>
    Elapses first.moment second.moment fun _ _ elapsed =>
      ∀ before ∈ first.timestamps, ∀ after ∈ second.timestamps,
        Serial.Advances before after elapsed) ∧
  deliveries.Pairwise fun earlier later =>
    ∀ gap pts' gap', earlier.moment = .burst gap → later.moment = .live pts' gap' →
      ∀ before ∈ earlier.timestamps, ∀ after ∈ later.timestamps, Serial.Precedes before after

/-- The gap grows from one live sample to the next by the presentation time between
them, and the gaps at a burst and at a later live sample make up more than the ten ticks
taken off a live timestamp. -/
def GapsFollow (moments : List Moment) : Prop :=
  (moments.filter Moment.isLive).IsChain (fun first second =>
    Elapses first second fun gap gap' elapsed =>
      |((ticks gap' - ticks gap : Int) : ℚ) - elapsed| ≤ 1) ∧
  moments.Pairwise fun earlier later =>
    ∀ gap pts' gap', earlier = .burst gap → later = .live pts' gap' →
      10 < ticks gap + ticks gap'

def Moment.offsets : Moment → List Int
  | .live _ gap => [ticks gap - 10]
  | .burst gap => [-2 * ticks gap, -ticks gap]

theorem ticks_bounds (gap : Int) : 0 ≤ ticks gap ∧ ticks gap < 2 ^ 29 := by
  unfold ticks
  omega

theorem elapsedTimestamp_gap (gap : Int) :
    RtpClock.exact.elapsedTimestamp (UInt32.ofInt gap) = UInt32.ofInt (ticks gap) := by
  have nonneg := Int.emod_nonneg gap (show (2 ^ 32 : Int) ≠ 0 by decide)
  have micros : ((UInt32.ofInt gap).toNat : ℚ) = ((gap % 2 ^ 32 : Int) : ℚ) := by
    rw [Serial.toNat_ofInt, ← Int.cast_natCast, Int.toNat_of_nonneg nonneg]
  have half : durationSeconds (UInt32.ofInt gap) * defaultClockRate + 1 / 2 =
      ((9 * (gap % 2 ^ 32) + 50 : Int) : ℚ) / ((100 : Nat) : ℚ) := by
    rw [durationSeconds, micros, defaultClockRate]
    push_cast
    ring
  change secondsToTimestamp (durationSeconds _) = _
  rw [secondsToTimestamp, round_eq, half, Rat.floor_intCast_div_natCast]
  rfl

theorem live_offset (start : UInt32) (gap : Int) :
    start + UInt32.ofInt (ticks gap) - 10 = Serial.offset start (ticks gap - 10) := by
  rw [Serial.offset, sub_eq_add_neg (ticks gap), UInt32.ofInt_add, UInt32.ofInt_neg]
  change _ = start + (UInt32.ofInt (ticks gap) + -10)
  grind

theorem burst_offsets (start : UInt32) (gap : Int) :
    [start - UInt32.ofInt (ticks gap) * 2,
        start - UInt32.ofInt (ticks gap) * 2 + UInt32.ofInt (ticks gap)] =
      (Moment.burst gap).offsets.map (Serial.offset start) := by
  have double : UInt32.ofInt (-2 * ticks gap) = -2 * UInt32.ofInt (ticks gap) :=
    UInt32.ofInt_mul _ _
  simp only [Moment.offsets, List.map_cons, List.map_nil, Serial.offset, double, UInt32.ofInt_neg,
    List.cons.injEq, and_true]
  exact ⟨by grind, by grind⟩

def Delivery.Stamped (startTimestamp : Nat → UInt32) (delivery : Delivery) : Prop :=
  delivery.timestamps =
    delivery.moment.offsets.map (Serial.offset (startTimestamp delivery.handle))

def Client.Anchored (startTimestamp : Nat → UInt32) (client : Client) : Prop :=
  ∀ video, client.video = some video →
    video.sender.rtpConfig.startTimestamp = startTimestamp client.handle

structure Server.Clocked (startTimestamp : Nat → UInt32) (server : Server) (clock : Clock) :
    Prop where
  last : server.frame.lastFrameTimestamp = UInt32.ofInt clock.last
  duration : server.frame.lastFrameDuration = UInt32.ofInt clock.gap
  anchored : ∀ entry ∈ server.clients.entries, entry.2.Anchored startTimestamp

section Clients

variable [RtpClock]

variable (startTimestamp : Nat → UInt32)

@[simp] theorem stamp_startTimestamp (trackData : ClientTrackData) (lastFrameDuration : UInt32) :
    (trackData.stamp lastFrameDuration).sender.rtpConfig.startTimestamp =
      trackData.sender.rtpConfig.startTimestamp := by
  simp only [ClientTrackData.stamp]
  split <;> rfl

omit [RtpClock] in
@[simp] theorem afterSend_rtpConfig (trackData : ClientTrackData) :
    trackData.afterSend.sender.rtpConfig = trackData.sender.rtpConfig := by
  simp only [ClientTrackData.afterSend]
  split <;> rfl

omit [RtpClock] in
theorem Client.receiver_video {client : Client} {trackData : ClientTrackData}
    (receives : client.receiver = some trackData) : client.video = some trackData := by
  unfold Client.receiver at receives
  split at receives
  · exact receives
  · cases receives

theorem fanOut_anchored {throws : String → Bool} {lastFrameDuration : UInt32}
    {sample : List UInt8} {entries : List (String × Client)}
    (anchored : ∀ entry ∈ entries, entry.2.Anchored startTimestamp) :
    ∀ entry ∈ (fanOut throws lastFrameDuration sample entries).clients,
      entry.2.Anchored startTimestamp := by
  induction entries with
  | nil => exact anchored
  | cons entry rest ih =>
      obtain ⟨id, client⟩ := entry
      obtain ⟨own, others⟩ := List.forall_mem_cons.mp anchored
      cases receiver : client.receiver with
      | none =>
          simp only [fanOut, receiver]
          exact List.forall_mem_cons.mpr ⟨own, ih others⟩
      | some trackData =>
          have start := own trackData (Client.receiver_video receiver)
          cases thrown : throws id with
          | true =>
              simp only [fanOut, receiver, thrown, if_true]
              refine List.forall_mem_cons.mpr ⟨?_, others⟩
              intro video stored
              cases stored
              rw [stamp_startTimestamp, start]
          | false =>
              simp only [fanOut, receiver, thrown, Bool.false_eq_true, if_false]
              refine List.forall_mem_cons.mpr ⟨?_, ih others⟩
              intro video stored
              cases stored
              rw [afterSend_rtpConfig, stamp_startTimestamp, start]

theorem sendInitialNalus_startTimestamp (frame : Frame) (video : ClientTrackData) :
    (sendInitialNalus frame video).1.sender.rtpConfig.startTimestamp =
      video.sender.rtpConfig.startTimestamp := by
  simp only [sendInitialNalus]
  split
  · rfl
  · simp only [afterSend_rtpConfig, ClientTrackData.setTimestamp]

theorem sendInitialNalus_timestamps (frame : Frame) (video : ClientTrackData) :
    (sendInitialNalus frame video).2 = [] ∨
      (sendInitialNalus frame video).2.map Prod.fst =
        [video.sender.rtpConfig.startTimestamp -
            RtpClock.elapsedTimestamp frame.lastFrameDuration * 2,
          video.sender.rtpConfig.startTimestamp -
            RtpClock.elapsedTimestamp frame.lastFrameDuration * 2 +
            RtpClock.elapsedTimestamp frame.lastFrameDuration] := by
  simp only [sendInitialNalus]
  split
  · exact .inl rfl
  · right
    simp only [List.map_cons, List.map_nil, ClientTrackData.timestamp, ClientTrackData.setTimestamp,
      afterSend_rtpConfig]

end Clients

section Step

variable [RtpClock]

variable (startTimestamp : Nat → UInt32) {server : Server} {clock : Clock}

omit [RtpClock] in
theorem clocked_initial (cells : Nat → UInt8) :
    (Server.initial cells).Clocked startTimestamp Clock.start where
  last := rfl
  duration := rfl
  anchored := by simp [Server.initial, Registry.empty]

omit [RtpClock] in
theorem clocked_buffer (clocked : server.Clocked startTimestamp clock)
    (buffer : MmalBufferHeader) :
    (acceptBuffer server.frame buffer).lastFrameTimestamp = UInt32.ofInt buffer.pts ∧
      (acceptBuffer server.frame buffer).lastFrameDuration =
        UInt32.ofInt (clock.see (.buffer buffer)).gap := by
  obtain ⟨timestamp, duration⟩ := acceptBuffer_clock server.frame buffer
  rw [clocked.last, Serial.ofInt_sub_toNat] at duration
  exact ⟨timestamp, duration⟩

theorem addToStream_anchored (anchored : ∀ entry ∈ server.clients.entries,
    entry.2.Anchored startTimestamp) (id : String) :
    ∀ entry ∈ (addToStream server id).1.clients.entries, entry.2.Anchored startTimestamp := by
  unfold addToStream
  cases found : server.clients.find? id with
  | none => exact anchored
  | some client =>
      cases video : client.video with
      | none =>
          simp only [video]
          refine Registry.forall_update anchored fun value stored => ?_
          exact anchored (id, value) stored
      | some trackData =>
          simp only [video]
          refine Registry.forall_update anchored fun value stored => ?_
          have same := (Prod.mk.inj (Registry.eq_of_mem found stored rfl)).2
          intro video' replaced
          cases replaced
          rw [sendInitialNalus_startTimestamp]
          exact anchored (id, value) stored trackData (by rw [same, video])

theorem clocked_next (clocked : server.Clocked startTimestamp clock) (event : Event) :
    (server.next startTimestamp event).Clocked startTimestamp (clock.see event) := by
  cases kind : event.buffer? with
  | some buffer =>
      obtain rfl := Event.eq_buffer kind
      obtain ⟨timestamp, duration⟩ := clocked_buffer startTimestamp clocked buffer
      have frame : (server.next startTimestamp (.buffer buffer)).frame =
          acceptBuffer server.frame buffer := onMmalcamBuffer_frame server noThrow buffer
      refine ⟨by rw [frame, timestamp]; rfl, by rw [frame, duration], ?_⟩
      simp only [Server.next, onMmalcamBuffer]
      split
      · exact clocked.anchored
      · exact fanOut_anchored startTimestamp clocked.anchored
  | none =>
      have same : clock.see event = clock := by simp only [Clock.see, kind]
      have frame := next_frame_of_not_buffer startTimestamp server kind
      rw [same]
      refine ⟨by rw [frame, clocked.last], by rw [frame, clocked.duration], ?_⟩
      cases event with
      | buffer buffer => cases kind
      | createPeerConnection id =>
          refine Registry.forall_emplace clocked.anchored ?_
          intro video created
          cases created
          rfl
      | addToStream id => exact addToStream_anchored startTimestamp clocked.anchored id
      | erase id =>
          intro entry member
          exact clocked.anchored entry (List.mem_filter.mp member).1

end Step

section Stamped

variable (startTimestamp : Nat → UInt32) {server : Server} {clock : Clock}

attribute [local instance] RtpClock.exact

theorem buffer_stamped (clocked : server.Clocked startTimestamp clock)
    (buffer : MmalBufferHeader) :
    ∀ message ∈ server.emit (.buffer buffer),
      message.timestamp = Serial.offset (startTimestamp message.handle)
        (ticks (clock.see (.buffer buffer)).gap - 10) := by
  obtain ⟨-, duration⟩ := clocked_buffer startTimestamp clocked buffer
  simp only [Server.emit, onMmalcamBuffer]
  split
  · simp
  · intro message member
    rw [(fanOut_noThrow _ _ _).1] at member
    obtain ⟨⟨id, client⟩, stored, delivered⟩ := List.mem_filterMap.mp member
    obtain ⟨trackData, receives, rfl⟩ := Option.map_eq_some_iff.mp delivered
    rw [stamp_timestamp, duration, elapsedTimestamp_gap, live_offset,
      clocked.anchored _ stored trackData (Client.receiver_video receives)]

theorem burst_stamped (clocked : server.Clocked startTimestamp clock) (id : String) :
    ∀ delivery ∈ deliveriesOf clock.gap (.addToStream id) (server.emit (.addToStream id)),
      delivery.Stamped startTimestamp := by
  simp only [Server.emit, addToStream]
  cases found : server.clients.find? id with
  | none => simp [deliveriesOf, Event.buffer?]
  | some client =>
      cases video : client.video with
      | none => simp [deliveriesOf, Event.buffer?, video]
      | some trackData =>
          have start := clocked.anchored _ (Registry.mem_of_find? found) trackData video
          have stamps := sendInitialNalus_timestamps server.frame trackData
          simp only [video]
          cases messages : (sendInitialNalus server.frame trackData).2 with
          | nil => simp [deliveriesOf, Event.buffer?]
          | cons first rest =>
              rw [messages, start, clocked.duration, elapsedTimestamp_gap, burst_offsets] at stamps
              intro delivery member
              obtain rfl := List.mem_singleton.mp member
              refine Eq.trans ?_ (stamps.resolve_left (List.cons_ne_nil _ _))
              simp only [List.map_cons, List.map_map]
              rfl

theorem deliveriesOf_stamped (clocked : server.Clocked startTimestamp clock) (event : Event) :
    ∀ delivery ∈ deliveriesOf (clock.see event).gap event (server.emit event),
      delivery.Stamped startTimestamp := by
  cases event with
  | buffer buffer =>
      intro delivery member
      obtain ⟨message, sent, rfl⟩ := List.mem_map.mp member
      rw [Delivery.Stamped]
      simp only [Moment.offsets, List.map_cons, List.map_nil,
        buffer_stamped startTimestamp clocked buffer message sent]
  | addToStream id => exact burst_stamped startTimestamp clocked id
  | createPeerConnection id | erase id => simp [deliveriesOf, Event.buffer?, Server.emit]

theorem deliveries_stamped (clocked : server.Clocked startTimestamp clock) (events : List Event) :
    ∀ delivery ∈ deliveries startTimestamp server clock events,
      delivery.Stamped startTimestamp := by
  induction events generalizing server clock with
  | nil => simp [deliveries]
  | cons event events ih =>
      intro delivery member
      rcases List.mem_append.mp member with here | later
      · exact deliveriesOf_stamped startTimestamp clocked event delivery here
      · exact ih (clocked_next startTimestamp clocked event) delivery later

end Stamped

section Lists

variable {startTimestamp : Nat → UInt32}

theorem elapses_congr {first second : Moment} {advance advance' : Int → Int → ℚ → Prop}
    (agree : ∀ pts gap pts' gap', first = .live pts gap → second = .live pts' gap' →
      ∀ elapsed, 0 ≤ elapsed → elapsed < 2 ^ 31 → (advance gap gap' elapsed ↔ advance' gap gap' elapsed)) :
    Elapses first second advance ↔ Elapses first second advance' := by
  have forward {pts pts' : Int} (ordered : pts < pts') :
      (0 : ℚ) ≤ ((pts' - pts : Int) : ℚ) * 90000 / 10 ^ 6 := by
    have : (0 : ℚ) ≤ ((pts' - pts : Int) : ℚ) := by exact_mod_cast (by omega : 0 ≤ pts' - pts)
    positivity
  apply Iff.intro
  · intro follows pts gap pts' gap' live live' known known' ordered bound
    exact (agree pts gap pts' gap' live live' _ (forward ordered) bound).mp
      (follows pts gap pts' gap' live live' known known' ordered bound)
  · intro follows pts gap pts' gap' live live' known known' ordered bound
    exact (agree pts gap pts' gap' live live' _ (forward ordered) bound).mpr
      (follows pts gap pts' gap' live live' known known' ordered bound)

theorem elapses_iff {first second : Delivery} (stamped : first.Stamped startTimestamp)
    (stamped' : second.Stamped startTimestamp) (same : first.handle = second.handle) :
    (Elapses first.moment second.moment fun _ _ elapsed =>
      ∀ before ∈ first.timestamps, ∀ after ∈ second.timestamps,
        Serial.Advances before after elapsed) ↔
    Elapses first.moment second.moment fun gap gap' elapsed =>
      |((ticks gap' - ticks gap : Int) : ℚ) - elapsed| ≤ 1 := by
  refine elapses_congr fun pts gap pts' gap' live live' elapsed forward bound => ?_
  rw [stamped, stamped', same, live, live']
  simp only [Moment.offsets, List.map_cons, List.map_nil, List.mem_singleton, forall_eq]
  obtain ⟨nonneg, small⟩ := ticks_bounds gap
  obtain ⟨nonneg', small'⟩ := ticks_bounds gap'
  rw [Serial.advances_offset_iff _ (abs_lt.mpr (by omega)) forward bound,
    show ticks gap' - 10 - (ticks gap - 10) = ticks gap' - ticks gap by omega]

theorem burst_precedes_iff {first second : Delivery} (stamped : first.Stamped startTimestamp)
    (stamped' : second.Stamped startTimestamp) (same : first.handle = second.handle) {gap pts' gap' : Int}
    (burst : first.moment = .burst gap) (live : second.moment = .live pts' gap') :
    (∀ before ∈ first.timestamps, ∀ after ∈ second.timestamps, Serial.Precedes before after) ↔
      10 < ticks gap + ticks gap' := by
  rw [stamped, stamped', same, burst, live]
  obtain ⟨nonneg, small⟩ := ticks_bounds gap
  obtain ⟨nonneg', small'⟩ := ticks_bounds gap'
  simp only [Moment.offsets, List.map_cons, List.map_nil, List.mem_cons, List.not_mem_nil, or_false,
    forall_eq_or_imp, forall_eq]
  rw [Serial.precedes_offset_iff _ (abs_lt.mpr (by omega)),
    Serial.precedes_offset_iff _ (abs_lt.mpr (by omega))]
  omega

theorem timestampsFollow_iff {handle : Nat} {deliveries : List Delivery}
    (stamped : ∀ delivery ∈ deliveries, delivery.Stamped startTimestamp)
    (oneClient : ∀ delivery ∈ deliveries, delivery.handle = handle) :
    TimestampsFollow deliveries ↔ GapsFollow (deliveries.map (·.moment)) := by
  unfold TimestampsFollow GapsFollow
  rw [List.filter_map, List.isChain_map, List.pairwise_map]
  refine and_congr (List.IsChain.iff_of_mem_imp fun first second member member' => ?_)
    (List.Pairwise.iff_of_mem fun {first second} member member' => ?_)
  · replace member := (List.mem_filter.mp member).1
    replace member' := (List.mem_filter.mp member').1
    exact elapses_iff (stamped _ member) (stamped _ member')
      ((oneClient _ member).trans (oneClient _ member').symm)
  · have same := (oneClient _ member).trans (oneClient _ member').symm
    apply Iff.intro
    · intro precedes gap pts' gap' burst live
      exact (burst_precedes_iff (stamped _ member) (stamped _ member') same burst live).mp
        (precedes gap pts' gap' burst live)
    · intro wide gap pts' gap' burst live
      exact (burst_precedes_iff (stamped _ member) (stamped _ member') same burst live).mpr
        (wide gap pts' gap' burst live)

end Lists

attribute [local instance] RtpClock.exact

/-- In every run from process start, the timestamps sent to a client follow presentation
time exactly when the gaps at its samples and bursts do. -/
theorem timestamps_follow_iff (startTimestamp : Nat → UInt32) (cells : Nat → UInt8) (handle : Nat)
    (events : List Event) :
    TimestampsFollow (deliveriesTo startTimestamp cells handle events) ↔
      GapsFollow ((deliveriesTo startTimestamp cells handle events).map (·.moment)) := by
  have stamped : ∀ delivery ∈ deliveriesTo startTimestamp cells handle events,
      delivery.Stamped startTimestamp := fun delivery member =>
    deliveries_stamped startTimestamp (clocked_initial startTimestamp cells) events delivery
      (List.mem_filter.mp member).1
  have oneClient : ∀ delivery ∈ deliveriesTo startTimestamp cells handle events,
      delivery.handle = handle := fun delivery member =>
    of_decide_eq_true (List.mem_filter.mp member).2
  exact timestampsFollow_iff stamped oneClient

/-- Three slices a thirtieth of a second apart: the last two get the same timestamp. -/
theorem timestamps_not_follow :
    ¬ ∀ (startTimestamp : Nat → UInt32) (cells : Nat → UInt8) (handle : Nat) (events : List Event),
      TimestampsFollow (deliveriesTo startTimestamp cells handle events) := by
  intro follow
  let slice : List UInt8 := [0, 0, 0, 1, 0x41, 0x9A]
  let events : List Event :=
    [.createPeerConnection "a", .addToStream "a", .buffer (.holding slice 0 33333),
      .buffer (.holding slice 0 66666), .buffer (.holding slice 0 99999)]
  have sent : deliveriesTo (fun _ => 0) (fun _ => 0) 0 events =
      [⟨0, .live 33333 33333, [2990]⟩, ⟨0, .live 66666 33333, [2990]⟩,
        ⟨0, .live 99999 33333, [2990]⟩] := by
    decide +kernel
  have chain := (follow (fun _ => 0) (fun _ => 0) 0 events).1
  rw [sent] at chain
  have advances := (List.isChain_cons_cons.mp chain).1 33333 33333 66666 33333 rfl rfl
    (by decide) (by decide) (by decide) (by norm_num) 2990 (by simp) 2990 (by simp)
  have still : Serial.Advances (Serial.offset 2990 0) (Serial.offset 2990 0)
      (((66666 - 33333 : Int) : ℚ) * 90000 / 10 ^ 6) := advances
  rw [Serial.advances_offset_iff 2990 (by norm_num) (by norm_num) (by norm_num)] at still
  norm_num [abs_le] at still

end RcControl.Stream
