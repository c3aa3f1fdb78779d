import RcControl.Stream.RoundTrip

namespace RcControl.Stream

open RcControl.Data

/-! Clients whose `Track::send` throws, and the others.

A closed client stays `Ready` until its erase runs.  The loop over `clients` does
not catch what `send` throws, so the first failing client ends the call for all
clients behind it and for the camera loop that made the call. -/

def Server.without (server : Server) (throws : String → Bool) : Server :=
  { server with clients := server.clients.restrict (!throws ·) }

/-- The call returns, and each other `Ready` client is sent what it would be sent if
the failing clients were absent. -/
def Isolated [RtpClock] (throws : String → Bool) (server : Server) (buffer : MmalBufferHeader) : Prop :=
  (onMmalcamBuffer throws server buffer).returned = true ∧
    ∀ id, server.Ready id → throws id = false →
      (onMmalcamBuffer throws server buffer).sent.filter (·.id = id) =
        (onMmalcamBuffer throws (server.without throws) buffer).sent.filter (·.id = id)

def NoneFail (throws : String → Bool) (entries : List (String × Client)) : Prop :=
  ∀ entry ∈ entries, entry.2.receiver.isSome → throws entry.1 = false

section FanOut

variable [RtpClock]

variable {throws : String → Bool} (lastFrameDuration : UInt32) (sample : List UInt8)
  {entries : List (String × Client)}

theorem fanOut_of_noneFail (fine : NoneFail throws entries) :
    fanOut throws lastFrameDuration sample entries =
      fanOut noThrow lastFrameDuration sample entries := by
  induction entries with
  | nil => rfl
  | cons entry rest ih =>
      obtain ⟨id, client⟩ := entry
      obtain ⟨own, others⟩ := List.forall_mem_cons.mp fine
      cases receiver : client.receiver with
      | none => simp only [fanOut, receiver, ih others]
      | some trackData =>
          have caught : throws id = noThrow id := own (by rw [receiver]; rfl)
          simp only [fanOut, receiver, caught, ih others]

theorem fanOut_returned_iff :
    (fanOut throws lastFrameDuration sample entries).returned = true ↔ NoneFail throws entries := by
  apply Iff.intro
  · intro returned
    induction entries with
    | nil => simp [NoneFail]
    | cons entry rest ih =>
        obtain ⟨id, client⟩ := entry
        refine List.forall_mem_cons.mpr ?_
        cases receiver : client.receiver with
        | none =>
            simp only [fanOut, receiver] at returned
            exact ⟨by simp, ih returned⟩
        | some trackData =>
            cases thrown : throws id with
            | true => simp [fanOut, receiver, thrown] at returned
            | false =>
                simp only [fanOut, receiver, thrown, Bool.false_eq_true, if_false] at returned
                exact ⟨fun _ => rfl, ih returned⟩
  · intro fine
    rw [fanOut_of_noneFail _ _ fine]
    exact (fanOut_noThrow _ _ _).2

end FanOut

section Call

variable [RtpClock]

variable (throws : String → Bool) (server : Server)

variable {throws server} in
omit [RtpClock] in
theorem noneFail_iff :
    NoneFail throws server.clients.entries ↔ ∀ id, server.Ready id → throws id = false := by
  apply Iff.intro
  · intro fine id ready
    obtain ⟨client, found, receives⟩ := ready
    exact fine _ (Registry.mem_of_find? found) receives
  · intro fine entry member receives
    obtain ⟨id, client⟩ := entry
    exact fine id ⟨client, Registry.find?_of_mem member, receives⟩

omit [RtpClock] in
theorem noneFail_without : NoneFail throws (server.without throws).clients.entries := by
  intro entry member _
  simpa using (List.mem_filter.mp member).2

theorem onMmalcamBuffer_held {buffer : MmalBufferHeader}
    (held : (acceptBuffer server.frame buffer).pendingFrame = true) :
    (onMmalcamBuffer throws server buffer).sent = [] ∧
      (onMmalcamBuffer throws server buffer).returned = true := by
  simp only [onMmalcamBuffer, held, if_true, and_self]

variable {throws server} in
theorem sent_filter_without (fine : NoneFail throws server.clients.entries) {id : String}
    (ready : server.Ready id) (caught : throws id = false) (buffer : MmalBufferHeader) :
    (onMmalcamBuffer throws server buffer).sent.filter (·.id = id) =
      (onMmalcamBuffer throws (server.without throws) buffer).sent.filter (·.id = id) := by
  obtain ⟨client, found, -⟩ := ready
  have found' : (server.without throws).clients.find? id = some client :=
    Registry.find?_restrict found (by simp [caught])
  have sameFrame : (server.without throws).frame = server.frame := rfl
  simp only [onMmalcamBuffer, sameFrame]
  split
  · rfl
  · simp only [fanOut_of_noneFail _ _ fine, fanOut_of_noneFail _ _ (noneFail_without throws server)]
    rw [fanOut_sent_filter found, fanOut_sent_filter found']

end Call

/-- A call is isolated exactly when it holds its buffer back as configuration or no
`Ready` client's `Track::send` throws. -/
theorem isolated_iff [RtpClock] (throws : String → Bool) (server : Server) (buffer : MmalBufferHeader) :
    Isolated throws server buffer ↔
      server.frame.pendingFrame = false ∧ buffer.config = true ∨
        ∀ id, server.Ready id → throws id = false := by
  have pending := acceptBuffer_pendingFrame server.frame buffer
  by_cases held : server.frame.pendingFrame = false ∧ buffer.config = true
  · rw [held.1, held.2] at pending
    obtain ⟨silent, returned⟩ := onMmalcamBuffer_held throws server pending
    refine iff_of_true ⟨returned, fun id _ _ => ?_⟩ (.inl held)
    rw [silent, (onMmalcamBuffer_held throws (server.without throws) pending).1]
  · have sends : (acceptBuffer server.frame buffer).pendingFrame = false := by
      rw [pending]
      cases own : server.frame.pendingFrame with
      | true => rfl
      | false => simpa [own] using held
    have returned : (onMmalcamBuffer throws server buffer).returned = true ↔
        NoneFail throws server.clients.entries := by
      simp only [onMmalcamBuffer, sends, Bool.false_eq_true, if_false]
      exact fanOut_returned_iff _ _
    rw [Isolated, returned, ← noneFail_iff]
    apply Iff.intro
    · intro isolated
      exact .inr isolated.1
    · intro met
      have fine := met.resolve_left held
      exact ⟨fine, fun id ready caught => sent_filter_without fine ready caught buffer⟩

attribute [local instance] RtpClock.exact in
/-- The first of two clients throws: the second is sent nothing and the call does not return. -/
theorem not_isolated :
    ¬ ∀ (throws : String → Bool) (server : Server) (buffer : MmalBufferHeader),
      Isolated throws server buffer := by
  intro isolated
  have returned := (isolated (· = "a")
    { oneReadyClient with
      clients := oneReadyClient.clients.emplace "b"
        { handle := 1
          state := .ready
          video := some { sender :=
            { rtpConfig := { startTimestamp := 7, timestamp := 7 }
              lastReportedTimestamp := 0
              needsToReport := false } } } }
    (.holding [0, 0, 0, 1, 0x41, 0x9A] 0 33333)).1
  exact absurd returned (by decide +kernel)

end RcControl.Stream
