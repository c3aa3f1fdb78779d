import RcControl.Stream.Timestamps

namespace RcControl.Stream

open RcControl.Data

/-! When a client's sender reports are asked for.

The timestamp of a live sample depends on the gap before it alone, so what the callback
compares with one second is not the time since the last report but the difference of two
gaps, as an unsigned number. -/

/-- A live sample of a client.  `asked` tells whether a report was asked for at it. -/
structure LiveSample where
  handle : Nat
  pts : Int
  gap : Int
  asked : Bool
deriving DecidableEq, Repr

section Samples

variable [RtpClock]

/-- The samples the callback sends, with the report flag each one is sent with. -/
def liveSamplesOf (server : Server) (clock : Clock) (event : Event) : List LiveSample :=
  match event.buffer? with
  | none => []
  | some buffer =>
      let frame := acceptBuffer server.frame buffer
      if frame.pendingFrame then []
      else server.clients.entries.filterMap fun entry => entry.2.receiver.map fun trackData =>
        ⟨entry.2.handle, buffer.pts, (clock.see event).gap,
          (trackData.stamp frame.lastFrameDuration).sender.needsToReport⟩

def liveSamples (startTimestamp : Nat → UInt32) (server : Server) (clock : Clock) :
    List Event → List LiveSample
  | [] => []
  | event :: events =>
      liveSamplesOf server clock event ++
        liveSamples startTimestamp (server.next startTimestamp event) (clock.see event) events

def liveSamplesTo (startTimestamp : Nat → UInt32) (cells : Nat → UInt8) (handle : Nat)
    (events : List Event) : List LiveSample :=
  (liveSamples startTimestamp (Server.initial cells) Clock.start events).filter (·.handle = handle)

end Samples

/-- After a first report, one is asked for exactly when more than a second has passed since
the sample of the last one.  The argument is that sample's presentation time. -/
def Cadence : Option Int → List LiveSample → Prop
  | _, [] => True
  | none, sample :: rest => Cadence (if sample.asked then some sample.pts else none) rest
  | some reported, sample :: rest =>
      (sample.asked = true ↔ 10 ^ 6 < sample.pts - reported) ∧
        Cadence (if sample.asked then some sample.pts else some reported) rest

def IncreasingPts (events : List Event) : Prop :=
  (buffersOf events).IsChain fun first second => first.pts < second.pts

/-- `timestampToSeconds(after - before) > 1`, where the unsigned difference may wrap. -/
def OverASecond (before after : UInt32) : Prop := 90000 < (after - before).toNat

instance (before after : UInt32) : Decidable (OverASecond before after) :=
  inferInstanceAs (Decidable (_ < _))

theorem timestampToSeconds_gt (timestamp : UInt32) :
    timestampToSeconds timestamp > 1 ↔ 90000 < timestamp.toNat := by
  have positive : (0 : ℚ) < (defaultClockRate : ℚ) := by norm_num [defaultClockRate]
  rw [timestampToSeconds, gt_iff_lt, lt_div_iff₀ positive, one_mul, Nat.cast_lt]
  rfl

section Gaps

variable [RtpClock]

/-- What the library makes of a gap as 32-bit microseconds. -/
def gapTimestamp (gap : Int) : UInt32 := RtpClock.elapsedTimestamp (UInt32.ofInt gap)

/-- The reporter's last timestamp, by the gap before the sample of the last report. -/
def lastTimestamp (start : UInt32) : Option Int → UInt32
  | none => 0
  | some gap => start + gapTimestamp gap - 10

/-- Whether a report is asked for, by the gaps. -/
def Asks (start : UInt32) (reported : Option Int) (gap : Int) : Prop :=
  OverASecond (lastTimestamp start reported) (start + gapTimestamp gap - 10)

instance (start : UInt32) (reported : Option Int) (gap : Int) : Decidable (Asks start reported gap) :=
  inferInstanceAs (Decidable (OverASecond _ _))

/-- Presentation times and gaps that keep the cadence.  The last report is the one that is
due: from its sample up to the next one due the timestamp of the gap is at most a second
ahead, as an unsigned number, and at that one it is more. -/
def RegularGaps (start : UInt32) : Option (Int × Int) → List (Int × Int) → Prop
  | _, [] => True
  | none, sample :: rest =>
      RegularGaps start (if Asks start none sample.2 then some sample else none) rest
  | some reported, sample :: rest =>
      (OverASecond (gapTimestamp reported.2) (gapTimestamp sample.2) ↔
          10 ^ 6 < sample.1 - reported.1) ∧
        RegularGaps start (if 10 ^ 6 < sample.1 - reported.1 then some sample else some reported) rest

/-- What the code does: it asks where the difference of the gaps is a second or wraps. -/
def FollowsGaps (start : UInt32) : Option Int → List LiveSample → Prop
  | _, [] => True
  | reported, sample :: rest =>
      (sample.asked = true ↔ Asks start reported sample.gap) ∧
        FollowsGaps start (if sample.asked then some sample.gap else reported) rest

/-- The start and the ten ticks cancel out. -/
theorem asks_some_iff (start : UInt32) (reported gap : Int) :
    Asks start (some reported) gap ↔ OverASecond (gapTimestamp reported) (gapTimestamp gap) := by
  have cancelled : start + gapTimestamp gap - 10 - (start + gapTimestamp reported - 10) =
      gapTimestamp gap - gapTimestamp reported := by
    grind
  rw [Asks, lastTimestamp, OverASecond, cancelled, OverASecond]

theorem cadence_iff_of_follows {start : UInt32} (reported : Option (Int × Int))
    {samples : List LiveSample} (follows : FollowsGaps start (reported.map Prod.snd) samples) :
    Cadence (reported.map Prod.fst) samples ↔
      RegularGaps start reported (samples.map fun sample => (sample.pts, sample.gap)) := by
  induction samples generalizing reported with
  | nil => cases reported <;> exact Iff.rfl
  | cons sample rest ih =>
      obtain ⟨asked, later⟩ := follows
      cases reported with
      | none =>
          rw [List.map_cons, RegularGaps, Option.map_none, Cadence]
          by_cases asks : Asks start none sample.gap
          · rw [if_pos (asked.mpr asks)] at later ⊢
            rw [if_pos asks]
            exact ih (some (sample.pts, sample.gap)) later
          · rw [if_neg (mt asked.mp asks)] at later ⊢
            rw [if_neg asks]
            exact ih none later
      | some last =>
          rw [List.map_cons, RegularGaps, Option.map_some, Cadence, ← asks_some_iff start]
          rw [Option.map_some] at asked later
          refine (and_congr_left' (iff_congr asked Iff.rfl)).trans (and_congr_right fun due => ?_)
          by_cases asks : Asks start (some last.2) sample.gap
          · rw [if_pos (asked.mpr asks)] at later ⊢
            rw [if_pos (due.mp asks)]
            exact ih (some (sample.pts, sample.gap)) later
          · rw [if_neg (mt asked.mp asks)] at later ⊢
            rw [if_neg (mt due.mpr asks)]
            exact ih (some last) later

end Gaps

/-! What a client's reporter remembers. -/

section Reporter

variable [RtpClock]

structure ClientTrackData.Reports (start : UInt32) (reported : Option Int)
    (trackData : ClientTrackData) : Prop where
  anchored : trackData.sender.rtpConfig.startTimestamp = start
  settled : trackData.sender.needsToReport = false
  last : trackData.sender.lastReportedTimestamp = lastTimestamp start reported

/-- The entries of clients with a handle: there is at most one. -/
def Server.withHandle (server : Server) (handle : Nat) : List (String × Client) :=
  server.clients.entries.filter (·.2.handle = handle)

structure Server.Tracks (startTimestamp : Nat → UInt32) (handle : Nat) (reported : Option Int)
    (server : Server) : Prop where
  single : (server.withHandle handle).length ≤ 1
  unborn : server.created ≤ handle → server.withHandle handle = [] ∧ reported = none
  reports : ∀ entry ∈ server.withHandle handle, ∀ trackData, entry.2.video = some trackData →
    trackData.Reports (startTimestamp handle) reported

section Track

variable {start : UInt32} {reported : Option Int} {trackData : ClientTrackData}

theorem stamp_lastReportedTimestamp (lastFrameDuration : UInt32) :
    (trackData.stamp lastFrameDuration).sender.lastReportedTimestamp =
      trackData.sender.lastReportedTimestamp := by
  simp only [ClientTrackData.stamp]
  split <;> rfl

theorem stamp_needsToReport (lastFrameDuration : UInt32) :
    (trackData.stamp lastFrameDuration).sender.needsToReport = true ↔
      trackData.sender.needsToReport = true ∨
        90000 < ((trackData.stamp lastFrameDuration).timestamp -
          trackData.sender.lastReportedTimestamp).toNat := by
  rw [stamp_timestamp]
  simp only [ClientTrackData.stamp, ← timestampToSeconds_gt]
  split
  · rename_i late
    exact iff_of_true rfl (.inr late)
  · rename_i early
    exact (or_iff_left early).symm

/-- A sample asks as its gap and the one reported last say. -/
theorem stamp_asks (reports : trackData.Reports start reported) (gap : Int) :
    (trackData.stamp (UInt32.ofInt gap)).sender.needsToReport = true ↔ Asks start reported gap := by
  rw [stamp_needsToReport, reports.settled, or_iff_right Bool.false_ne_true, stamp_timestamp,
    reports.anchored, reports.last, Asks, OverASecond, gapTimestamp]

/-- After the send, the report that was asked for is the last one. -/
theorem afterSend_reports (reports : trackData.Reports start reported) (gap : Int) :
    (trackData.stamp (UInt32.ofInt gap)).afterSend.Reports start
      (if (trackData.stamp (UInt32.ofInt gap)).sender.needsToReport then some gap else reported) := by
  refine ⟨?_, ?_, ?_⟩
  · rw [afterSend_rtpConfig, stamp_startTimestamp, reports.anchored]
  · unfold ClientTrackData.afterSend
    split
    · rfl
    · rename_i unasked
      simpa using unasked
  · unfold ClientTrackData.afterSend
    split
    · change (trackData.stamp (UInt32.ofInt gap)).timestamp = _
      rw [stamp_timestamp, reports.anchored]
      rfl
    · rw [stamp_lastReportedTimestamp, reports.last]

theorem ClientTrackData.Reports.setTimestamp (reports : trackData.Reports start reported)
    (timestamp : UInt32) : (trackData.setTimestamp timestamp).Reports start reported :=
  ⟨reports.anchored, reports.settled, reports.last⟩

/-- A send without a request makes no report. -/
theorem ClientTrackData.Reports.afterSend (reports : trackData.Reports start reported) :
    trackData.afterSend.Reports start reported := by
  have idle : trackData.afterSend = trackData := by
    rw [ClientTrackData.afterSend, reports.settled, if_neg Bool.false_ne_true]
  rwa [idle]

/-- The join burst is sent without a report. -/
theorem sendInitialNalus_reports (frame : Frame) (reports : trackData.Reports start reported) :
    (sendInitialNalus frame trackData).1.Reports start reported := by
  unfold sendInitialNalus
  dsimp only
  split
  · exact reports
  · exact ((reports.setTimestamp _).afterSend.setTimestamp _).afterSend

end Track

section Step

variable {startTimestamp : Nat → UInt32} {server : Server} {clock : Clock} {handle : Nat}
variable {reported : Option Int}

theorem Client.received_video {client : Client} {trackData : ClientTrackData} {gap : Int}
    (receives : client.receiver = some trackData) :
    (client.received (UInt32.ofInt gap)).video =
      some (trackData.stamp (UInt32.ofInt gap)).afterSend := by
  simp only [Client.received, receives]

omit [RtpClock] in
theorem withHandle_of_map {after : Server} (change : String → Client → Client)
    (kept : ∀ id client, (change id client).handle = client.handle)
    (changed : after.clients.entries =
      server.clients.entries.map fun entry => (entry.1, change entry.1 entry.2)) :
    after.withHandle handle =
      (server.withHandle handle).map fun entry => (entry.1, change entry.1 entry.2) := by
  rw [Server.withHandle, changed, List.filter_map, Server.withHandle]
  congr 2
  funext entry
  simp only [Function.comp_apply, kept]

/-- Changing clients in place keeps what a reporter remembers, if it keeps it for each. -/
theorem tracks_of_map {after : Server} {next : Option Int} (change : String → Client → Client)
    (kept : ∀ id client, (change id client).handle = client.handle)
    (changed : after.clients.entries =
      server.clients.entries.map fun entry => (entry.1, change entry.1 entry.2))
    (created : after.created = server.created) (tracks : server.Tracks startTimestamp handle reported)
    (same : server.withHandle handle = [] → next = reported)
    (reports : ∀ entry ∈ server.withHandle handle, ∀ trackData,
      (change entry.1 entry.2).video = some trackData →
        trackData.Reports (startTimestamp handle) next) :
    after.Tracks startTimestamp handle next := by
  have withHandle : after.withHandle handle = _ := withHandle_of_map change kept changed
  refine ⟨?_, ?_, ?_⟩
  · rw [withHandle, List.length_map]
    exact tracks.single
  · intro unborn
    rw [created] at unborn
    obtain ⟨nothing, never⟩ := tracks.unborn unborn
    exact ⟨by rw [withHandle, nothing, List.map_nil], (same nothing).trans never⟩
  · intro entry member
    rw [withHandle] at member
    obtain ⟨older, stored, rfl⟩ := List.mem_map.mp member
    exact reports older stored

/-- The samples for a handle are those of its entries. -/
theorem liveSamplesOf_filter (buffer : MmalBufferHeader)
    (sends : (acceptBuffer server.frame buffer).pendingFrame = false) :
    (liveSamplesOf server clock (.buffer buffer)).filter (·.handle = handle) =
      (server.withHandle handle).filterMap fun entry => entry.2.receiver.map fun trackData =>
        ⟨handle, buffer.pts, (clock.see (.buffer buffer)).gap,
          (trackData.stamp (acceptBuffer server.frame buffer).lastFrameDuration).sender.needsToReport⟩ := by
  simp only [liveSamplesOf, Event.buffer?, sends, Bool.false_eq_true, if_false, Server.withHandle,
    List.filter_filterMap, List.filterMap_filter]
  apply List.filterMap_congr
  intro entry _
  by_cases own : entry.2.handle = handle
  · cases entry.2.receiver <;> simp [own]
  · cases entry.2.receiver <;> simp [own]

theorem next_entries_buffer (startTimestamp : Nat → UInt32) (server : Server)
    (buffer : MmalBufferHeader) :
    (server.next startTimestamp (.buffer buffer)).created = server.created ∧
    (server.next startTimestamp (.buffer buffer)).clients.entries =
      if (acceptBuffer server.frame buffer).pendingFrame then server.clients.entries
      else server.clients.entries.map fun entry =>
        (entry.1, entry.2.received (acceptBuffer server.frame buffer).lastFrameDuration) := by
  simp only [Server.next, onMmalcamBuffer]
  split
  · exact ⟨rfl, rfl⟩
  · exact ⟨rfl, fanOut_clients _ _ _⟩

/-- A buffer gives a client no sample, or one that asks as the gaps say. -/
theorem tracks_buffer (tracks : server.Tracks startTimestamp handle reported)
    (clocked : server.Clocked startTimestamp clock) (buffer : MmalBufferHeader) :
    ((liveSamplesOf server clock (.buffer buffer)).filter (·.handle = handle) = [] ∧
        (server.next startTimestamp (.buffer buffer)).Tracks startTimestamp handle reported) ∨
      ∃ sample, (liveSamplesOf server clock (.buffer buffer)).filter (·.handle = handle) = [sample] ∧
        (sample.asked = true ↔ Asks (startTimestamp handle) reported sample.gap) ∧
        (server.next startTimestamp (.buffer buffer)).Tracks startTimestamp handle
          (if sample.asked then some sample.gap else reported) := by
  obtain ⟨created, entries⟩ := next_entries_buffer startTimestamp server buffer
  obtain ⟨-, duration⟩ := clocked_buffer startTimestamp clocked buffer
  cases pending : (acceptBuffer server.frame buffer).pendingFrame with
  | true =>
      rw [if_pos pending] at entries
      left
      apply And.intro
      · simp [liveSamplesOf, Event.buffer?, pending]
      · exact tracks_of_map (fun _ client => client) (fun _ _ => rfl) (by simp [entries]) created
          tracks (fun _ => rfl) tracks.reports
  | false =>
      rw [if_neg (by rw [pending]; exact Bool.false_ne_true), duration] at entries
      have received (next : Option Int) := @tracks_of_map _ _ _ handle _ _ next
        (fun _ client => client.received (UInt32.ofInt (clock.see (.buffer buffer)).gap))
        (fun _ => received_handle _) entries created tracks
      rw [liveSamplesOf_filter buffer pending, duration]
      have single := tracks.single
      have reports := tracks.reports
      cases own : server.withHandle handle with
      | nil =>
          left
          rw [own] at reports received
          exact ⟨rfl, received reported (fun _ => rfl) (List.forall_mem_nil _)⟩
      | cons entry others =>
          rw [own, List.length_cons] at single
          obtain rfl := List.length_eq_zero_iff.mp (show others.length = 0 by omega)
          rw [own] at reports received
          have mine := reports entry (by simp)
          cases receiver : entry.2.receiver with
          | none =>
              left
              refine ⟨by simp [receiver], received reported (fun _ => rfl) ?_⟩
              intro other member trackData video
              obtain rfl := List.mem_singleton.mp member
              rw [Client.received, receiver] at video
              exact mine trackData video
          | some trackData =>
              right
              have before := mine trackData (Client.receiver_video receiver)
              refine ⟨_, by rw [List.filterMap_cons, receiver]; rfl, stamp_asks before _, ?_⟩
              refine received _ (fun nothing => absurd nothing (by simp)) ?_
              intro other member after video
              obtain rfl := List.mem_singleton.mp member
              rw [Client.received_video receiver] at video
              obtain rfl := Option.some.inj video
              exact afterSend_reports before _

def Client.fresh (startTimestamp : Nat → UInt32) (handle : Nat) : Client where
  handle := handle
  state := .waiting
  video := some
    { sender :=
      { rtpConfig := ⟨startTimestamp handle, startTimestamp handle⟩
        lastReportedTimestamp := 0
        needsToReport := false } }

omit [RtpClock] in
/-- A new connection adds at most its own client, under the next handle. -/
theorem withHandle_created (startTimestamp : Nat → UInt32) (server : Server) (handle : Nat)
    (id : String) :
    (createPeerConnection startTimestamp server id).withHandle handle = server.withHandle handle ∨
      server.created = handle ∧ (createPeerConnection startTimestamp server id).withHandle handle =
        server.withHandle handle ++ [(id, .fresh startTimestamp handle)] := by
  have entries := Registry.emplace_entries server.clients id
    (Client.fresh startTimestamp server.created)
  change (createPeerConnection startTimestamp server id).clients.entries = _ ∨
    (createPeerConnection startTimestamp server id).clients.entries = _ at entries
  rcases entries with same | added
  · left
    rw [Server.withHandle, same, Server.withHandle]
  · rw [Server.withHandle, added, List.filter_append, Server.withHandle]
    by_cases new : server.created = handle
    · right
      subst new
      exact ⟨rfl, congrArg _ (List.filter_cons_of_pos (decide_eq_true rfl))⟩
    · left
      refine (congrArg _ ?_).trans (List.append_nil _)
      exact List.filter_cons_of_neg fun own => new (of_decide_eq_true own)

/-- A new client has reported nothing. -/
theorem tracks_created (tracks : server.Tracks startTimestamp handle reported) (id : String) :
    (createPeerConnection startTimestamp server id).Tracks startTimestamp handle reported := by
  rcases withHandle_created startTimestamp server handle id with same | ⟨new, added⟩
  · refine ⟨by rw [same]; exact tracks.single, ?_, by rw [same]; exact tracks.reports⟩
    intro unborn
    rw [same]
    exact tracks.unborn (Nat.le_of_succ_le unborn)
  · obtain ⟨nothing, never⟩ := tracks.unborn (Nat.le_of_eq new)
    rw [nothing, List.nil_append] at added
    refine ⟨by rw [added]; exact Nat.le_refl 1, ?_, ?_⟩
    · exact fun unborn => absurd (new ▸ unborn) (Nat.not_succ_le_self _)
    · intro entry member trackData found
      rw [added] at member
      obtain rfl := List.mem_singleton.mp member
      obtain rfl := Option.some.inj found
      exact ⟨rfl, rfl, by rw [never]; rfl⟩

theorem tracks_updated (tracks : server.Tracks startTimestamp handle reported) (id : String)
    (change : Client → Client) (kept : ∀ client, (change client).handle = client.handle)
    (reports : ∀ client trackData, server.clients.find? id = some client → client.handle = handle →
      (change client).video = some trackData →
        trackData.Reports (startTimestamp handle) reported) :
    Server.Tracks startTimestamp handle reported
      { server with clients := server.clients.update id change } := by
  refine @tracks_of_map _ _ server _ _ _ _ (fun own client => if own = id then change client else client) ?_ ?_ rfl
    tracks (fun _ => rfl) ?_
  · intro own client
    split
    · exact kept client
    · rfl
  · simp only [Registry.update, Registry.replace]
    refine List.map_congr_left fun entry _ => ?_
    split <;> rfl
  · intro entry member trackData video
    obtain ⟨stored, own⟩ := List.mem_filter.mp member
    split at video
    · rename_i same
      have found : server.clients.find? id = some entry.2 := same ▸ Registry.find?_of_mem stored
      exact reports entry.2 trackData found (of_decide_eq_true own) video
    · exact tracks.reports entry member trackData video

theorem tracks_found (tracks : server.Tracks startTimestamp handle reported) {id : String}
    {client : Client} (found : server.clients.find? id = some client) (own : client.handle = handle)
    {trackData : ClientTrackData} (video : client.video = some trackData) :
    trackData.Reports (startTimestamp handle) reported :=
  tracks.reports (id, client)
    (List.mem_filter.mpr ⟨Registry.mem_of_find? found, decide_eq_true own⟩) trackData video

/-- The other events give no sample and leave a client's reporter alone. -/
theorem tracks_other (tracks : server.Tracks startTimestamp handle reported) {event : Event}
    (other : event.buffer? = none) :
    (server.next startTimestamp event).Tracks startTimestamp handle reported := by
  cases event with
  | buffer buffer => cases other
  | createPeerConnection id => exact tracks_created tracks id
  | addToStream id =>
      simp only [Server.next, addToStream]
      cases found : server.clients.find? id with
      | none => exact tracks
      | some client =>
          cases video : client.video with
          | none =>
              simp only [video]
              refine tracks_updated tracks id _ (fun _ => rfl) ?_
              intro same trackData stored own stays
              exact tracks_found tracks stored own stays
          | some trackData =>
              simp only [video]
              refine tracks_updated tracks id _ (fun _ => rfl) ?_
              intro same after stored own replaced
              rw [found, Option.some.injEq] at stored
              obtain rfl := Option.some.inj replaced
              subst stored
              exact sendInitialNalus_reports _ (tracks_found tracks found own video)
  | erase id =>
      have kept : List.Sublist ((server.next startTimestamp (.erase id)).withHandle handle)
          (server.withHandle handle) := List.filter_sublist.filter _
      refine ⟨kept.length_le.trans tracks.single, ?_, ?_⟩
      · intro unborn
        obtain ⟨nothing, never⟩ := tracks.unborn unborn
        rw [nothing] at kept
        exact ⟨List.sublist_nil.mp kept, never⟩
      · exact fun entry member => tracks.reports entry (kept.subset member)

theorem tracks_initial (startTimestamp : Nat → UInt32) (cells : Nat → UInt8) (handle : Nat) :
    (Server.initial cells).Tracks startTimestamp handle none where
  single := Nat.zero_le 1
  unborn _ := ⟨rfl, rfl⟩
  reports := List.forall_mem_nil _

/-- In every run, a client's samples ask as their gaps say. -/
theorem liveSamples_followGaps (tracks : server.Tracks startTimestamp handle reported)
    (clocked : server.Clocked startTimestamp clock) (events : List Event) :
    FollowsGaps (startTimestamp handle) reported
      ((liveSamples startTimestamp server clock events).filter (·.handle = handle)) := by
  induction events generalizing server clock reported with
  | nil => simp [liveSamples, FollowsGaps]
  | cons event events ih =>
      have clockedNext := clocked_next startTimestamp clocked event
      rw [liveSamples, List.filter_append]
      cases kind : event.buffer? with
      | none =>
          have nothing : liveSamplesOf server clock event = [] := by simp only [liveSamplesOf, kind]
          rw [nothing]
          exact ih (tracks_other tracks kind) clockedNext
      | some buffer =>
          obtain rfl := Event.eq_buffer kind
          rcases tracks_buffer tracks clocked buffer with ⟨nothing, next⟩ | ⟨sample, one, asked, next⟩
          · rw [nothing]
            exact ih next clockedNext
          · rw [one]
            exact ⟨asked, ih next clockedNext⟩

end Step

end Reporter

/-- In every run from process start, a client's reports keep the cadence exactly when the
gaps before its samples do. -/
theorem cadence_iff_regularGaps [RtpClock] (startTimestamp : Nat → UInt32) (cells : Nat → UInt8)
    (handle : Nat) (events : List Event) :
    Cadence none (liveSamplesTo startTimestamp cells handle events) ↔
      RegularGaps (startTimestamp handle) none
        ((liveSamplesTo startTimestamp cells handle events).map fun sample =>
          (sample.pts, sample.gap)) :=
  cadence_iff_of_follows none (liveSamples_followGaps (tracks_initial startTimestamp cells handle)
    (clocked_initial startTimestamp cells) events)

attribute [local instance] RtpClock.exact in
/-- Two slices a thirtieth of a second apart, the second one eleven microseconds early: it
asks for a report again. -/
theorem not_cadence :
    ¬ ∀ (startTimestamp : Nat → UInt32) (cells : Nat → UInt8) (handle : Nat) (events : List Event),
      IncreasingPts events → Cadence none (liveSamplesTo startTimestamp cells handle events) := by
  intro cadence
  let slice : List UInt8 := [0, 0, 0, 1, 0x41, 0x9A]
  let events : List Event :=
    [.createPeerConnection "a", .addToStream "a", .buffer (.holding slice 0 33344),
      .buffer (.holding slice 0 66677)]
  have sent : liveSamplesTo (fun _ => 1000000) (fun _ => 0) 0 events =
      [⟨0, 33344, 33344, true⟩, ⟨0, 66677, 33333, true⟩] := by
    decide +kernel
  have increasing : IncreasingPts events :=
    List.isChain_cons_cons.mpr ⟨by decide, List.isChain_singleton _⟩
  have kept := cadence (fun _ => 1000000) (fun _ => 0) 0 events increasing
  rw [sent] at kept
  have early := kept.1.mp rfl
  exact absurd early (by decide)

end RcControl.Stream
