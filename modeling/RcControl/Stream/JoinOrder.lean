import RcControl.Stream.RoundTrip

namespace RcControl.Stream

open RcControl.Data

/-! A client joining while the camera thread sends.

`addToStream` sets the state to `Ready` first, which is what the loop of
`on_mmalcam_buffer` goes by, and sends its two bursts afterwards.  It runs as a job of
`MainThread`, so no other join and no erase comes in between; calls of the camera thread
and of the signalling threads do. -/

/-- What `addToStream` does next. -/
inductive JoinStage where
  | initialNalus
  | firstSend (initialNalus : List UInt8)
  | secondSend (initialNalus : List UInt8) (frameTimestampDuration : UInt32)

structure Join where
  id : String
  handle : Nat
  stage : JoinStage

structure Message where
  burst : Bool
  sent : Sent

def Message.handle (message : Message) : Nat := message.sent.handle

/-- The server with the join in progress.  `log` lists all messages sent so far, and
`begun` the clients whose join began with something in the cache. -/
structure JoinServer where
  server : Server
  join : Option Join
  log : List Message
  begun : List Nat

inductive JoinEvent where
  | buffer (buffer : MmalBufferHeader)
  | createPeerConnection (id : String)
  | addToStream (id : String)
  | joinStep
  | erase (id : String)

namespace JoinServer

variable [RtpClock]

def initial (cells : Nat → UInt8) : JoinServer where
  server := { frame := Frame.initial cells, clients := Registry.empty, created := 0 }
  join := none
  log := []
  begun := []

def onMmalcamBuffer (state : JoinServer) (buffer : MmalBufferHeader) : JoinServer :=
  let outcome := Stream.onMmalcamBuffer noThrow state.server buffer
  { state with
    server := outcome.server
    log := state.log ++ outcome.sent.map fun sent => { burst := false, sent } }

/-- The job of a client's `onOpen`, which comes once in the life of a track, up to
`setState(Ready)`.  There is nothing to do for a client that is gone. -/
def addToStream (state : JoinServer) (id : String) : JoinServer :=
  match state.join, state.server.clients.find? id with
  | none, some client =>
      if client.state = .waiting then
        let server := { state.server with
          clients := state.server.clients.update id ({ · with state := .ready }) }
        if client.video.isSome then
          { state with
            server
            join := some { id, handle := client.handle, stage := .initialNalus }
            begun := if initialNALUS state.server.frame.cache = [] then state.begun
              else client.handle :: state.begun }
        -- `video.value()` throws.
        else { state with server }
      else state
  | _, _ => state

/-- One `track->send(initialNalus)`, with the timestamp set before it. -/
def burst (state : JoinServer) (join : Join) (stamp : ClientTrackData → ClientTrackData)
    (initialNalus : List UInt8) : JoinServer :=
  match state.server.clients.find? join.id with
  | some { video := some video, .. } =>
      let video := stamp video
      { state with
        server := { state.server with
          clients := state.server.clients.update join.id ({ · with video := some video.afterSend }) }
        log := state.log ++
          [{ burst := true, sent := ⟨join.id, join.handle, video.timestamp, initialNalus⟩ }] }
  | _ => state

/-- The next step of `sendInitialNalus`. -/
def joinStep (state : JoinServer) : JoinServer :=
  match state.join with
  | none => state
  | some join =>
      match join.stage with
      | .initialNalus =>
          let initialNalus := initialNALUS state.server.frame.cache
          if initialNalus = [] then { state with join := none }
          else { state with join := some { join with stage := .firstSend initialNalus } }
      | .firstSend initialNalus =>
          let frameTimestampDuration :=
            RtpClock.elapsedTimestamp state.server.frame.lastFrameDuration
          { state.burst join (fun video => video.setTimestamp
              (video.sender.rtpConfig.startTimestamp - frameTimestampDuration * 2)) initialNalus with
            join := some { join with stage := .secondSend initialNalus frameTimestampDuration } }
      | .secondSend initialNalus frameTimestampDuration =>
          { state.burst join (fun video => video.setTimestamp
              (video.timestamp + frameTimestampDuration)) initialNalus with
            join := none }

def erase (state : JoinServer) (id : String) : JoinServer :=
  if state.join.isSome then state
  else { state with server := { state.server with clients := state.server.clients.erase id } }

def next (startTimestamp : Nat → UInt32) (state : JoinServer) : JoinEvent → JoinServer
  | .buffer buffer => state.onMmalcamBuffer buffer
  | .createPeerConnection id =>
      { state with server := createPeerConnection startTimestamp state.server id }
  | .addToStream id => state.addToStream id
  | .joinStep => state.joinStep
  | .erase id => state.erase id

def messagesTo (state : JoinServer) (handle : Nat) : List Message :=
  state.log.filter (·.handle = handle)

end JoinServer

def joinServer [RtpClock] (startTimestamp : Nat → UInt32) : Machine JoinServer JoinEvent Unit where
  next := JoinServer.next startTimestamp
  emit _ _ := ()

/-- A join that nothing comes in between is the call of `addToStream` as a whole. -/
theorem join_uninterrupted [RtpClock] (startTimestamp : Nat → UInt32) {state : JoinServer} {id : String}
    {handle : Nat} {video : ClientTrackData} (idle : state.join = none)
    (found : state.server.clients.find? id = some ⟨handle, .waiting, some video⟩) :
    ((joinServer startTimestamp).run state [.addToStream id, .joinStep, .joinStep, .joinStep]).server =
        (addToStream state.server id).1 ∧
      ((joinServer startTimestamp).run state [.addToStream id, .joinStep, .joinStep, .joinStep]).log =
        state.log ++ (addToStream state.server id).2.map (Message.mk true) := by
  have begins : state.addToStream id = { state with
      server := { state.server with
        clients := state.server.clients.update id ({ · with state := .ready }) }
      join := some { id, handle, stage := .initialNalus }
      begun := if initialNALUS state.server.frame.cache = [] then state.begun
        else handle :: state.begun } := by
    simp only [JoinServer.addToStream, idle, found, if_true, Option.isSome_some]
  simp only [Machine.run_cons, Machine.run_nil, joinServer, JoinServer.next, begins]
  simp only [JoinServer.joinStep, addToStream, found, sendInitialNalus, List.isEmpty_iff]
  by_cases empty : initialNALUS state.server.frame.cache = []
  · simp only [empty, if_true, List.map_nil, List.append_nil, and_true]
    congr 1
    exact Registry.update_congr found rfl
  · simp only [empty, if_false, JoinServer.burst, Registry.find?_update, if_true, found,
      Option.map_some, List.map_cons, List.map_nil, Registry.update_update, List.append_assoc]
    exact ⟨trivial, rfl⟩

/-- The first two messages to a client whose join began with something in the cache are
the bursts, and both have been sent once its join is over. -/
def JoinServer.BurstsFirst (state : JoinServer) : Prop :=
  ∀ handle ∈ state.begun,
    (∀ message ∈ (state.messagesTo handle).take 2, message.burst = true) ∧
      ((∀ join ∈ state.join, join.handle ≠ handle) → 2 ≤ (state.messagesTo handle).length)

/-- While such a join is in progress, calls of the camera thread hold their buffer back as
configuration, and the cache is not empty when the burst is made from it. -/
def Undisturbed (state : JoinServer) (event : JoinEvent) : Prop :=
  ∀ join ∈ state.join, join.handle ∈ state.begun →
    match event with
    | .buffer buffer => state.server.frame.pendingFrame = false ∧ buffer.config = true
    | .joinStep => join.stage = .initialNalus → initialNALUS state.server.frame.cache ≠ []
    | .createPeerConnection _ | .addToStream _ | .erase _ => True

/-- The bursts sent so far. -/
def JoinStage.sent : JoinStage → Nat
  | .initialNalus | .firstSend _ => 0
  | .secondSend _ _ => 1

/-- What is known of the clients and the log in every state. -/
structure JoinServer.Tracked (state : JoinServer) : Prop where
  distinct : (state.server.clients.entries.map (·.2.handle)).Nodup
  fresh : ∀ handle ∈ state.server.clients.entries.map (·.2.handle), handle < state.server.created
  logged : ∀ message ∈ state.log, message.handle < state.server.created
  silent : ∀ entry ∈ state.server.clients.entries, entry.2.state ≠ .ready →
    state.messagesTo entry.2.handle = []
  joining : ∀ join ∈ state.join, ∃ client,
    state.server.clients.find? join.id = some client ∧ client.handle = join.handle ∧
      client.receiver.isSome = true ∧
      ((state.messagesTo join.handle).filter (·.burst)).length = join.stage.sent

section Log

variable {state : JoinServer}

theorem messagesTo_append {log more : List Message} (appended : state.log = log ++ more)
    (handle : Nat) : state.messagesTo handle =
      log.filter (·.handle = handle) ++ more.filter (·.handle = handle) := by
  rw [JoinServer.messagesTo, appended, List.filter_append]

theorem messagesTo_fresh (tracked : state.Tracked) {handle : Nat}
    (fresh : state.server.created ≤ handle) : state.messagesTo handle = [] := by
  apply List.filter_eq_nil_iff.mpr
  intro message member same
  have bound := tracked.logged message member
  have equal : message.handle = handle := of_decide_eq_true same
  omega

/-- A client is told from the others by its handle. -/
theorem entry_of_handle (tracked : state.Tracked) {first second : String × Client}
    (firstIn : first ∈ state.server.clients.entries)
    (secondIn : second ∈ state.server.clients.entries)
    (same : first.2.handle = second.2.handle) : first = second :=
  List.inj_on_of_nodup_map tracked.distinct firstIn secondIn same

/-- During a join that begins the list of messages, these are the bursts sent so far. -/
theorem joining_messages (tracked : state.Tracked) (bursts : state.BurstsFirst) {join : Join}
    (inProgress : join ∈ state.join) (begun : join.handle ∈ state.begun) :
    (state.messagesTo join.handle).length = join.stage.sent ∧
      ∀ message ∈ state.messagesTo join.handle, message.burst = true := by
  obtain ⟨leading, -⟩ := bursts join.handle begun
  obtain ⟨_, _, _, _, count⟩ := tracked.joining join inProgress
  have few : join.stage.sent ≤ 1 := by
    cases join.stage <;> simp [JoinStage.sent]
  have kept : ((state.messagesTo join.handle).take 2).filter (·.burst) =
      (state.messagesTo join.handle).take 2 := List.filter_eq_self.mpr leading
  have size := ((List.take_sublist 2 (state.messagesTo join.handle)).filter (·.burst)).length_le
  rw [kept, List.length_take] at size
  have short : (state.messagesTo join.handle).length ≤ 2 := by omega
  rw [List.take_of_length_le short] at leading kept
  rw [kept] at count
  exact ⟨count, leading⟩

end Log

section Camera

variable [RtpClock]

variable {state : JoinServer} (buffer : MmalBufferHeader)

/-- A call that does not hold its buffer back sends to the clients that are `Ready`. -/
theorem mem_onMmalcamBuffer_sent (server : Server) (handle : Nat) :
    (∃ sent ∈ (onMmalcamBuffer noThrow server buffer).sent, sent.handle = handle) ↔
      (acceptBuffer server.frame buffer).pendingFrame = false ∧
        ∃ entry ∈ server.clients.entries, entry.2.receiver.isSome = true ∧
          entry.2.handle = handle := by
  simp only [onMmalcamBuffer]
  split
  · rename_i held
    simp [held]
  · rename_i notHeld
    rw [(fanOut_noThrow _ _ _).1]
    simp only [Bool.not_eq_true] at notHeld
    rw [and_iff_right notHeld]
    apply Iff.intro
    · intro found
      obtain ⟨sent, member, same⟩ := found
      obtain ⟨entry, stored, made⟩ := List.mem_filterMap.mp member
      obtain ⟨trackData, receiver, rfl⟩ := Option.map_eq_some_iff.mp made
      exact ⟨entry, stored, by rw [receiver]; rfl, same⟩
    · intro found
      obtain ⟨⟨id, client⟩, stored, receives, same⟩ := found
      obtain ⟨trackData, receiver⟩ := Option.isSome_iff_exists.mp receives
      exact ⟨_, List.mem_filterMap.mpr ⟨_, stored, Option.map_eq_some_iff.mpr ⟨_, receiver, rfl⟩⟩, same⟩

omit [RtpClock] in
theorem Client.ready_of_receiver {client : Client} (receives : client.receiver.isSome = true) :
    client.state = .ready := by
  by_contra waits
  rw [Client.receiver, if_neg waits] at receives
  cases receives

/-- A call of the camera thread keeps the clients, but for their tracks. -/
theorem onMmalcamBuffer_clients (server : Server) :
    ∃ change : Client → Client, (∀ client, (change client).handle = client.handle ∧
        (change client).state = client.state ∧
        (change client).receiver.isSome = client.receiver.isSome) ∧
      (onMmalcamBuffer noThrow server buffer).server.clients.entries =
        server.clients.entries.map fun entry => (entry.1, change entry.2) := by
  have entries := onMmalcamBuffer_entries server buffer
  split at entries
  · exact ⟨id, fun _ => ⟨rfl, rfl, rfl⟩, by rw [entries]; simp⟩
  · exact ⟨Client.received _, fun _ => by simp, entries⟩

theorem onMmalcamBuffer_created (server : Server) :
    (onMmalcamBuffer noThrow server buffer).server.created = server.created := by
  simp only [onMmalcamBuffer]
  split <;> rfl

theorem onMmalcamBuffer_messagesTo (state : JoinServer) (handle : Nat) :
    ∃ live, (state.onMmalcamBuffer buffer).messagesTo handle = state.messagesTo handle ++ live ∧
      (∀ message ∈ live, message.burst = false) ∧
      (live ≠ [] ↔ (acceptBuffer state.server.frame buffer).pendingFrame = false ∧
        ∃ entry ∈ state.server.clients.entries, entry.2.receiver.isSome = true ∧
          entry.2.handle = handle) := by
  refine ⟨_, messagesTo_append rfl handle, ?_, ?_⟩
  · intro message member
    obtain ⟨sent, _, rfl⟩ := List.mem_map.mp (List.mem_filter.mp member).1
    rfl
  · rw [← mem_onMmalcamBuffer_sent, ne_eq, List.filter_eq_nil_iff]
    simp only [List.mem_map, forall_exists_index, and_imp, forall_apply_eq_imp_iff₂,
      decide_eq_true_eq, not_forall, not_not, exists_prop]
    exact Iff.rfl

theorem onMmalcamBuffer_tracked (tracked : state.Tracked) : (state.onMmalcamBuffer buffer).Tracked := by
  obtain ⟨change, kept, entries⟩ := onMmalcamBuffer_clients buffer state.server
  have stored : (state.onMmalcamBuffer buffer).server.clients.entries =
      state.server.clients.entries.map fun entry => (entry.1, change entry.2) := entries
  have created : (state.onMmalcamBuffer buffer).server.created = state.server.created :=
    onMmalcamBuffer_created buffer state.server
  have handles : (state.onMmalcamBuffer buffer).server.clients.entries.map (·.2.handle) =
      state.server.clients.entries.map (·.2.handle) := by
    rw [stored, List.map_map]
    exact List.map_congr_left fun entry _ => (kept entry.2).1
  constructor
  · rw [handles]
    exact tracked.distinct
  · rw [handles, created]
    exact tracked.fresh
  · intro message member
    rw [created]
    rcases List.mem_append.mp member with older | live
    · exact tracked.logged message older
    · obtain ⟨sent, isSent, rfl⟩ := List.mem_map.mp live
      obtain ⟨-, entry, isEntry, -, same⟩ :=
        (mem_onMmalcamBuffer_sent buffer state.server sent.handle).mp ⟨sent, isSent, rfl⟩
      exact tracked.fresh _ (List.mem_map.mpr ⟨entry, isEntry, same⟩)
  · intro after member waits
    rw [stored] at member
    obtain ⟨entry, isEntry, rfl⟩ := List.mem_map.mp member
    obtain ⟨sameHandle, sameState, -⟩ := kept entry.2
    dsimp only at waits ⊢
    rw [sameState] at waits
    obtain ⟨live, messages, -, someLive⟩ := onMmalcamBuffer_messagesTo buffer state entry.2.handle
    rw [sameHandle, messages, tracked.silent entry isEntry waits, List.nil_append]
    by_contra sends
    obtain ⟨-, other, isOther, receives, same⟩ := someLive.mp sends
    obtain rfl := entry_of_handle tracked isOther isEntry same
    exact waits (Client.ready_of_receiver receives)
  · intro join inProgress
    obtain ⟨client, found, same, receives, count⟩ := tracked.joining join inProgress
    obtain ⟨sameHandle, -, sameReceiver⟩ := kept client
    refine ⟨change client, Registry.find?_of_mem ?_, sameHandle.trans same,
      sameReceiver.trans receives, ?_⟩
    · rw [stored]
      exact List.mem_map.mpr ⟨_, Registry.mem_of_find? found, rfl⟩
    · obtain ⟨live, messages, notBurst, -⟩ := onMmalcamBuffer_messagesTo buffer state join.handle
      have none_burst : live.filter (·.burst) = [] :=
        List.filter_eq_nil_iff.mpr fun message member => by simp [notBurst message member]
      rw [messages, List.filter_append, none_burst, List.append_nil, count]

omit [RtpClock] in
/-- Messages behind the first two leave them in place. -/
theorem leading_append {messages more : List Message} (enough : 2 ≤ messages.length) :
    (messages ++ more).take 2 = messages.take 2 :=
  List.take_append_of_le_length enough

omit [RtpClock] in
theorem mem_take_two {messages rest : List Message} {next : Message} (few : messages.length ≤ 1) :
    next ∈ (messages ++ next :: rest).take 2 := by
  obtain ⟨count, size⟩ := Nat.exists_eq_add_of_le' (show 1 ≤ 2 - messages.length by omega)
  rw [List.take_append, size, List.take_succ_cons]
  simp

theorem onMmalcamBuffer_burstsFirst_iff (tracked : state.Tracked) (bursts : state.BurstsFirst) :
    Undisturbed state (.buffer buffer) ↔ (state.onMmalcamBuffer buffer).BurstsFirst := by
  have held : (acceptBuffer state.server.frame buffer).pendingFrame = true ↔
      state.server.frame.pendingFrame = false ∧ buffer.config = true := by
    rw [acceptBuffer_pendingFrame, Bool.and_eq_true, Bool.not_eq_true']
  apply Iff.intro
  · intro undisturbed handle begun
    obtain ⟨leading, enough⟩ := bursts handle begun
    obtain ⟨live, messages, -, someLive⟩ := onMmalcamBuffer_messagesTo buffer state handle
    by_cases joining : ∃ join ∈ state.join, join.handle = handle
    · obtain ⟨join, inProgress, rfl⟩ := joining
      have kept := held.mpr (undisturbed join inProgress begun)
      have silent : live = [] := by
        by_contra sends
        have notHeld := (someLive.mp sends).1
        rw [kept] at notHeld
        cases notHeld
      rw [messages, silent, List.append_nil]
      exact ⟨leading, enough⟩
    · have both := enough fun join inProgress same => joining ⟨join, inProgress, same⟩
      rw [messages, leading_append both, List.length_append]
      exact ⟨leading, fun _ => by omega⟩
  · intro burstsNext join inProgress begun
    by_contra sends
    have notHeld := Bool.not_eq_true _ |>.mp (mt held.mp sends)
    obtain ⟨client, found, same, receives, -⟩ := tracked.joining join inProgress
    obtain ⟨count, -⟩ := joining_messages tracked bursts inProgress begun
    obtain ⟨live, messages, notBurst, someLive⟩ :=
      onMmalcamBuffer_messagesTo buffer state join.handle
    have sent := someLive.mpr ⟨notHeld, _, Registry.mem_of_find? found, receives, same⟩
    obtain ⟨first, rest, rfl⟩ := List.exists_cons_of_ne_nil sent
    have leading := (burstsNext join.handle begun).1
    rw [messages] at leading
    have few : join.stage.sent ≤ 1 := by
      cases join.stage <;> simp [JoinStage.sent]
    have isBurst := leading first (mem_take_two (by omega))
    rw [notBurst first (by simp)] at isBurst
    cases isBurst

end Camera

section MainThread

variable {state : JoinServer}

theorem createPeerConnection_tracked (startTimestamp : Nat → UInt32) (tracked : state.Tracked)
    (id : String) :
    JoinServer.Tracked
      { state with server := createPeerConnection startTimestamp state.server id } := by
  have older : ∀ handle ∈ state.server.clients.entries.map (·.2.handle),
      handle < state.server.created + 1 := fun handle member =>
    Nat.lt_succ_of_lt (tracked.fresh handle member)
  have added := state.server.clients.emplace_entries id
    { handle := state.server.created, state := .waiting, video := some { sender :=
      { rtpConfig := { startTimestamp := startTimestamp state.server.created
                       timestamp := startTimestamp state.server.created }
        lastReportedTimestamp := 0
        needsToReport := false } } }
  constructor
  · simp only [createPeerConnection]
    rcases added with kept | more
    · rw [kept]
      exact tracked.distinct
    · rw [more, List.map_append, List.map_singleton, ← List.concat_eq_append]
      exact tracked.distinct.concat fun member => absurd (tracked.fresh _ member) (Nat.lt_irrefl _)
  · simp only [createPeerConnection]
    rcases added with kept | more
    · rw [kept]
      exact older
    · rw [more, List.map_append, List.map_singleton, List.forall_mem_append]
      exact ⟨older, by simp⟩
  · exact fun message member => Nat.lt_succ_of_lt (tracked.logged message member)
  · intro entry member waits
    simp only [createPeerConnection] at member
    rcases added with kept | more
    · rw [kept] at member
      exact tracked.silent entry member waits
    · rw [more, List.mem_append, List.mem_singleton] at member
      rcases member with earlier | rfl
      · exact tracked.silent entry earlier waits
      · exact messagesTo_fresh tracked (Nat.le_refl _)
  · intro join inProgress
    obtain ⟨client, found, rest⟩ := tracked.joining join inProgress
    have still : (createPeerConnection startTimestamp state.server id).clients.find? join.id =
        some client := by
      simp only [createPeerConnection]
      rw [Registry.find?_emplace]
      split
      · rename_i same
        rw [← same, found, Option.getD_some]
      · exact found
    exact ⟨client, still, rest⟩

theorem update_handles (registry : Registry String Client) (id : String) (change : Client → Client)
    (kept : ∀ client, (change client).handle = client.handle) :
    (registry.update id change).entries.map (·.2.handle) = registry.entries.map (·.2.handle) := by
  rw [Registry.update, Registry.replace, List.map_map]
  apply List.map_congr_left
  intro entry _
  simp only [Function.comp_apply]
  split
  · exact kept entry.2
  · rfl

/-- One send of the burst: a message to the joining client, whose track alone changes. -/
theorem burst_spec (tracked : state.Tracked) {join : Join} (inProgress : join ∈ state.join)
    (stamp : ClientTrackData → ClientTrackData) (initialNalus : List UInt8) :
    ∃ video sent, sent.handle = join.handle ∧
      state.burst join stamp initialNalus =
        { state with
          server := { state.server with
            clients := state.server.clients.update join.id ({ · with video := some video }) }
          log := state.log ++ [{ burst := true, sent }] } := by
  obtain ⟨client, found, -, receives, -⟩ := tracked.joining join inProgress
  obtain ⟨handle, clientState, video⟩ := client
  cases video with
  | none => simp [Client.receiver] at receives
  | some video =>
      refine ⟨(stamp video).afterSend, ⟨join.id, join.handle, (stamp video).timestamp, initialNalus⟩,
        rfl, ?_⟩
      simp only [JoinServer.burst, found]

theorem messagesTo_burst {sent : Sent} {log : List Message} {join : Join}
    (own : sent.handle = join.handle) (handle : Nat) :
    (log ++ [Message.mk true sent]).filter (·.handle = handle) =
      log.filter (·.handle = handle) ++
        if join.handle = handle then [Message.mk true sent] else [] := by
  rw [List.filter_append, ← own]
  congr 1
  by_cases same : sent.handle = handle
  · rw [if_pos same]
    exact List.filter_cons_of_pos (decide_eq_true same)
  · rw [if_neg same]
    exact List.filter_cons_of_neg fun equal => same (of_decide_eq_true equal)

theorem burst_tracked (tracked : state.Tracked) {join : Join} (inProgress : join ∈ state.join)
    (stamp : ClientTrackData → ClientTrackData) (initialNalus : List UInt8) {after : Option Join}
    (advanced : ∀ next ∈ after, next.id = join.id ∧ next.handle = join.handle ∧
      next.stage.sent = join.stage.sent + 1) :
    JoinServer.Tracked { state.burst join stamp initialNalus with join := after } := by
  obtain ⟨video, sent, own, equal⟩ := burst_spec tracked inProgress stamp initialNalus
  obtain ⟨client, found, same, receives, count⟩ := tracked.joining join inProgress
  have ready := Client.ready_of_receiver receives
  have handles := update_handles state.server.clients join.id ({ · with video := some video })
    fun _ => rfl
  rw [equal]
  constructor
  · rw [handles]
    exact tracked.distinct
  · rw [handles]
    exact tracked.fresh
  · refine List.forall_mem_append.mpr ⟨tracked.logged, ?_⟩
    simp only [List.mem_singleton, forall_eq, Message.handle, own, ← same]
    exact tracked.fresh _ (List.mem_map_of_mem (f := (·.2.handle)) (Registry.mem_of_find? found))
  · refine Registry.forall_update (fun entry member waits => ?_) fun value member waits => ?_
    · have other : join.handle ≠ entry.2.handle := by
        intro equal
        have only := entry_of_handle tracked (Registry.mem_of_find? found) member (same.trans equal)
        rw [← only] at waits
        exact waits ready
      rw [JoinServer.messagesTo, messagesTo_burst own, if_neg other, List.append_nil]
      exact tracked.silent entry member waits
    · obtain rfl := (Prod.mk.inj (Registry.eq_of_mem found member rfl)).2
      exact absurd ready waits
  · intro next isNext
    obtain ⟨sameId, sameHandle, sentNext⟩ := advanced next isNext
    refine ⟨{ client with video := some video }, ?_, by rw [sameHandle]; exact same, ?_, ?_⟩
    · simp only [sameId, Registry.find?_update, if_true, found, Option.map_some]
    · simp [Client.receiver, ready]
    · rw [JoinServer.messagesTo, sameHandle, messagesTo_burst own, if_pos rfl, List.filter_append,
        List.length_append, sentNext, ← count]
      rfl

/-- A send of the burst keeps what has been sent first, and counts as one of the two. -/
theorem burst_burstsFirst (tracked : state.Tracked) (bursts : state.BurstsFirst) {join : Join}
    (inProgress : join ∈ state.join) (stamp : ClientTrackData → ClientTrackData)
    (initialNalus : List UInt8) {after : Option Join}
    (ended : (∀ next ∈ after, next.handle ≠ join.handle) → join.stage.sent = 1) :
    JoinServer.BurstsFirst { state.burst join stamp initialNalus with join := after } := by
  obtain ⟨video, sent, own, equal⟩ := burst_spec tracked inProgress stamp initialNalus
  rw [equal]
  intro handle begun
  have messages : (state.log ++ [(⟨true, sent⟩ : Message)]).filter (·.handle = handle) = _ :=
    messagesTo_burst own handle
  simp only [JoinServer.messagesTo]
  rw [messages]
  split
  · rename_i same
    subst same
    obtain ⟨count, every⟩ := joining_messages tracked bursts inProgress begun
    refine ⟨fun message member => ?_, fun finished => ?_⟩
    · rcases List.mem_append.mp (List.mem_of_mem_take member) with older | new
      · exact every message older
      · rw [List.mem_singleton.mp new]
    · rw [List.length_append]
      have one := ended finished
      change 2 ≤ (state.messagesTo join.handle).length + 1
      omega
  · rename_i other
    rw [List.append_nil]
    obtain ⟨leading, enough⟩ := bursts handle begun
    refine ⟨leading, fun _ => enough fun running isRunning => ?_⟩
    rw [Option.mem_unique isRunning inProgress]
    exact other

theorem joinStep_tracked [RtpClock] (tracked : state.Tracked) : state.joinStep.Tracked := by
  unfold JoinServer.joinStep
  split
  · exact tracked
  · rename_i join inProgress
    split
    · rename_i stage
      dsimp only
      split
      · exact { tracked with joining := fun _ running => by cases running }
      · refine { tracked with joining := fun next isNext => ?_ }
        obtain ⟨client, found, same, receives, count⟩ := tracked.joining join inProgress
        cases isNext
        rw [stage] at count
        exact ⟨client, found, same, receives, count⟩
    · rename_i initialNalus stage
      refine burst_tracked tracked inProgress _ _ fun next isNext => ?_
      cases isNext
      rw [stage]
      exact ⟨rfl, rfl, rfl⟩
    · exact burst_tracked tracked inProgress _ _ fun next isNext => by cases isNext

theorem joinStep_burstsFirst_iff [RtpClock] (tracked : state.Tracked) (bursts : state.BurstsFirst) :
    Undisturbed state .joinStep ↔ state.joinStep.BurstsFirst := by
  unfold JoinServer.joinStep
  split
  · rename_i idle
    exact iff_of_true (fun join isJoin => by rw [idle] at isJoin; cases isJoin) bursts
  · rename_i join inProgress
    have only : ∀ other ∈ state.join, other = join := fun other isOther =>
      Option.mem_unique isOther inProgress
    split
    · rename_i stage
      dsimp only
      split
      · rename_i empty
        apply Iff.intro
        · intro undisturbed handle begun
          obtain ⟨leading, enough⟩ := bursts handle begun
          refine ⟨leading, fun _ => enough fun running isRunning => ?_⟩
          rw [only running isRunning]
          intro same
          exact undisturbed join inProgress (same ▸ begun) stage empty
        · intro burstsNext other isOther begun
          rw [only other isOther] at begun
          obtain ⟨count, -⟩ := joining_messages tracked bursts inProgress begun
          have two := (burstsNext join.handle begun).2 fun _ running => by cases running
          rw [stage] at count
          change 2 ≤ (state.messagesTo join.handle).length at two
          rw [count] at two
          cases two
      · rename_i some_byte
        refine iff_of_true (fun _ _ _ _ => some_byte) fun handle begun => ?_
        obtain ⟨leading, enough⟩ := bursts handle begun
        refine ⟨leading, fun other => enough fun running isRunning => ?_⟩
        rw [only running isRunning]
        exact other { join with stage := .firstSend _ } rfl
    · rename_i stage
      refine iff_of_true (fun other isOther _ early => ?_)
        (burst_burstsFirst tracked bursts inProgress _ _ fun finished =>
          absurd rfl (finished { join with stage := .secondSend _ _ } rfl))
      rw [only other isOther, stage] at early
      cases early
    · rename_i stage
      refine iff_of_true (fun other isOther _ early => ?_)
        (burst_burstsFirst tracked bursts inProgress _ _ fun _ => by rw [stage]; rfl)
      rw [only other isOther, stage] at early
      cases early

/-- `setState(Ready)` for a client that waits, with or without a join that begins there. -/
theorem setReady_tracked (tracked : state.Tracked) {id : String} {client : Client}
    (found : state.server.clients.find? id = some client) (waits : client.state = .waiting)
    {join : Option Join} {begun : List Nat}
    (begins : ∀ next ∈ join, next.id = id ∧ next.handle = client.handle ∧
      next.stage.sent = 0 ∧ client.video.isSome = true) :
    JoinServer.Tracked
      { state with
        server := { state.server with
          clients := state.server.clients.update id ({ · with state := .ready }) }
        join
        begun } := by
  have handles := update_handles state.server.clients id ({ · with state := .ready }) fun _ => rfl
  refine ⟨?_, ?_, tracked.logged, ?_, ?_⟩
  · rw [handles]
    exact tracked.distinct
  · rw [handles]
    exact tracked.fresh
  · exact Registry.forall_update tracked.silent fun _ _ waitsNext => absurd rfl waitsNext
  · intro next isNext
    obtain ⟨sameId, sameHandle, none_sent, hasVideo⟩ := begins next isNext
    refine ⟨{ client with state := .ready }, ?_, sameHandle.symm, ?_, ?_⟩
    · simp only [sameId, Registry.find?_update, if_true, found, Option.map_some]
    · simpa [Client.receiver] using hasVideo
    · have silent := tracked.silent _ (Registry.mem_of_find? found) (by rw [waits]; decide)
      rw [sameHandle, none_sent]
      change ((state.messagesTo client.handle).filter (·.burst)).length = 0
      rw [silent]
      rfl

theorem addToStream_tracked (tracked : state.Tracked) (id : String) : (state.addToStream id).Tracked := by
  unfold JoinServer.addToStream
  split
  · rename_i client idle found
    split
    · rename_i waits
      dsimp only
      split
      · rename_i hasVideo
        refine setReady_tracked tracked found waits fun next isNext => ?_
        cases isNext
        exact ⟨rfl, rfl, rfl, hasVideo⟩
      · exact setReady_tracked tracked found waits fun next isNext => by rw [idle] at isNext; cases isNext
    · exact tracked
  · exact tracked

theorem addToStream_burstsFirst (tracked : state.Tracked) (bursts : state.BurstsFirst) (id : String) :
    (state.addToStream id).BurstsFirst := by
  unfold JoinServer.addToStream
  split
  · rename_i client idle found
    have ended : ∀ handle ∈ state.begun, (∀ message ∈ (state.messagesTo handle).take 2,
        message.burst = true) ∧ 2 ≤ (state.messagesTo handle).length := by
      intro handle begun
      obtain ⟨leading, enough⟩ := bursts handle begun
      exact ⟨leading, enough fun join running => by rw [idle] at running; cases running⟩
    split
    · rename_i waits
      have silent := tracked.silent _ (Registry.mem_of_find? found) (by rw [waits]; decide)
      dsimp only
      split
      · intro handle begun
        dsimp only at begun
        by_cases older : handle ∈ state.begun
        · exact ⟨(ended handle older).1, fun _ => (ended handle older).2⟩
        · -- The client whose join begins here has been sent nothing yet.
          have own : handle = client.handle := by
            split at begun
            · exact absurd begun older
            · exact (List.mem_cons.mp begun).resolve_right older
          subst own
          change (∀ message ∈ (state.messagesTo client.handle).take 2, message.burst = true) ∧ _
          rw [silent]
          refine ⟨by simp, fun finished => ?_⟩
          exact absurd rfl (finished { id, handle := client.handle, stage := .initialNalus } rfl)
      · exact bursts
    · exact bursts
  · exact bursts

theorem erase_tracked (tracked : state.Tracked) (id : String) : (state.erase id).Tracked := by
  unfold JoinServer.erase
  split
  · exact tracked
  · rename_i idle
    have fewer := List.filter_sublist (l := state.server.clients.entries) (p := (·.1 ≠ id))
    refine ⟨tracked.distinct.sublist (fewer.map _), ?_, tracked.logged, ?_, ?_⟩
    · exact fun handle member => tracked.fresh handle ((fewer.map _).subset member)
    · exact fun entry member => tracked.silent entry (fewer.subset member)
    · intro join running
      rw [Option.mem_def] at running
      exact absurd (by rw [running]; rfl) idle

theorem erase_burstsFirst (bursts : state.BurstsFirst) (id : String) : (state.erase id).BurstsFirst := by
  unfold JoinServer.erase
  split <;> exact bursts

end MainThread

section Run

variable [RtpClock]

variable (startTimestamp : Nat → UInt32)

theorem next_tracked (state : JoinServer) (event : JoinEvent) (tracked : state.Tracked) :
    (state.next startTimestamp event).Tracked := by
  cases event with
  | buffer buffer => exact onMmalcamBuffer_tracked buffer tracked
  | createPeerConnection id => exact createPeerConnection_tracked startTimestamp tracked id
  | addToStream id => exact addToStream_tracked tracked id
  | joinStep => exact joinStep_tracked tracked
  | erase id => exact erase_tracked tracked id

theorem next_burstsFirst_iff (state : JoinServer) (event : JoinEvent) (tracked : state.Tracked)
    (bursts : state.BurstsFirst) :
    Undisturbed state event ↔ (state.next startTimestamp event).BurstsFirst := by
  cases event with
  | buffer buffer => exact onMmalcamBuffer_burstsFirst_iff buffer tracked bursts
  | createPeerConnection id => exact iff_of_true (fun _ _ _ => trivial) bursts
  | addToStream id => exact iff_of_true (fun _ _ _ => trivial) (addToStream_burstsFirst tracked bursts id)
  | joinStep => exact joinStep_burstsFirst_iff tracked bursts
  | erase id => exact iff_of_true (fun _ _ _ => trivial) (erase_burstsFirst bursts id)

/-- In every interleaving, clients whose join begins with something in the cache are sent
the bursts first exactly when no sample is sent during such a join and the cache is still
not empty when the burst is made from it. -/
theorem bursts_first_iff (cells : Nat → UInt8) (events : List JoinEvent) :
    (joinServer startTimestamp).Always JoinServer.BurstsFirst (JoinServer.initial cells) events ↔
      (joinServer startTimestamp).Along Undisturbed (JoinServer.initial cells) events := by
  have tracked : (JoinServer.initial cells).Tracked := by
    refine ⟨List.nodup_nil, ?_, ?_, ?_, ?_⟩ <;>
      simp [JoinServer.initial, Registry.empty]
  have bursts : (JoinServer.initial cells).BurstsFirst := fun handle begun => by cases begun
  have guarded := (joinServer startTimestamp).along_of_invariant (next_tracked startTimestamp)
    tracked events
  exact ((joinServer startTimestamp).along_iff_always (fun state event now invariant =>
    next_burstsFirst_iff startTimestamp state event now invariant) guarded bursts).symm

end Run

attribute [local instance] RtpClock.exact in
/-- A slice is sent between `setState(Ready)` and the first burst. -/
theorem not_bursts_first :
    ¬ ∀ (startTimestamp : Nat → UInt32) (cells : Nat → UInt8) (events : List JoinEvent),
      (joinServer startTimestamp).Always JoinServer.BurstsFirst (JoinServer.initial cells) events := by
  intro first
  let key : MmalBufferHeader := .holding [0, 0, 0, 1, 0x65, 0x88] 0 33333
  let slice : MmalBufferHeader := .holding [0, 0, 0, 1, 0x41, 0x9A] 0 66666
  have last := (joinServer fun _ => 0).always_run (first (fun _ => 0) (fun _ => 0)
    [.buffer key, .createPeerConnection "a", .addToStream "a", .buffer slice])
  have leading := (last 0 (by decide +kernel)).1
  have all := List.all_eq_true.mpr leading
  exact absurd all (by decide +kernel)

end RcControl.Stream
