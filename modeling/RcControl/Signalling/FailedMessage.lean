import RcControl.Signalling.Handler

namespace RcControl.Signalling

open RcControl.Data RcControl.Control

/-! What a signalling message leaves behind when its handler throws.

The id and the type are checked before anything is created, the description of an offer
only after the new peer connection has been started and stored. -/

/-- What the calls on a peer connection do: they return or throw. -/
abbrev PcCalls := Nat → RemoteCall → Except String Unit

def Effect.raised (calls : PcCalls) : Effect → Option String
  | .threw text => some text
  | .remote (some pc) call =>
      match calls pc call with
      | .error text => some text
      | .ok () => none
  | .remote none _ | .handled _ | .send _ _ => none

/-- One handler from its first step to its last, with no other thread in between. -/
def Server.uninterrupted (server : Server) (socket : Nat) (document : Except String Json) :
    List Event :=
  [.message socket (.text document), .handler server.handlers.length,
    .handler server.handlers.length]

section Failure

variable (rtc : Rtc) (calls : PcCalls) (server : Server) (socket : Nat)
variable (document : Except String Json)

/-- The exception the handler exits by. -/
def exception : Option String :=
  ((signalling rtc).outputs server (server.uninterrupted socket document)).flatten.findSome?
    (Effect.raised calls)

def LeavesIntact : Prop :=
  exception rtc calls server socket document ≠ none →
    ((signalling rtc).run server (server.uninterrupted socket document)).clients = server.clients ∧
      ((signalling rtc).run server (server.uninterrupted socket document)).connections =
        server.connections

/-- The `sdp` of an offer is missing or no string, or it does not make a description that
the peer connection takes. -/
def SdpRejected (pc : Nat) (message : Json) : Prop :=
  ∀ sdp, getString (member "sdp" message) = .ok sdp → rtc.description sdp "offer" = .ok () →
    ∃ text, calls pc (.setRemoteDescription sdp "offer") = .error text

/-- An offer that is rejected, from a client that is not known yet. -/
def RejectedOffer : Prop :=
  ∃ message id, document = .ok message ∧ findString "id" message = .ok (some id) ∧
    server.clients.find? id = none ∧ findString "type" message = .ok (some "offer") ∧
    SdpRejected rtc calls server.connections.length message

variable {rtc calls server socket document}

/-- The lookup leaves nothing to do but return, or there is a peer connection to create. -/
theorem onMessage_stage (rtc : Rtc) (server : Server) (document : Except String Json) :
    (server.onMessage rtc (.text document)).1.2 = .returning ∨
      ∃ message id type, document = .ok message ∧ findString "id" message = .ok (some id) ∧
        server.clients.find? id = none ∧ findString "type" message = .ok (some type) ∧
        (type = "offer" ∨ type = "request") ∧
        server.onMessage rtc (.text document) = ((none, .create id type message), []) := by
  cases document with
  | error text => exact .inl rfl
  | ok message =>
      cases hasId : findString "id" message with
      | error text => simp [Server.onMessage, hasId]
      | ok found =>
          cases found with
          | none => simp [Server.onMessage, hasId]
          | some id =>
              cases hasType : findString "type" message with
              | error text => simp [Server.onMessage, hasId, hasType]
              | ok found =>
                  cases found with
                  | none => simp [Server.onMessage, hasId, hasType]
                  | some type =>
                      cases known : server.clients.find? id with
                      | some pc => simp [Server.onMessage, hasId, hasType, known]
                      | none =>
                          by_cases creates : type = "offer" ∨ type = "request"
                          · right
                            refine ⟨message, id, type, rfl, hasId, known, hasType, creates, ?_⟩
                            simp [Server.onMessage, hasId, hasType, known, creates]
                          · left
                            simp [Server.onMessage, hasId, hasType, known, creates]

theorem eraseIdx_concat (handlers : List Handler) (handler : Handler) :
    (handlers ++ [handler]).eraseIdx handlers.length = handlers := by
  rw [List.eraseIdx_append_of_length_le (Nat.le_refl _), Nat.sub_self]
  exact List.append_nil handlers

/-- A handler that creates nothing changes neither the clients nor the connections. -/
theorem run_returning (returns : (server.onMessage rtc (.text document)).1.2 = .returning) :
    ((signalling rtc).run server (server.uninterrupted socket document)).clients = server.clients ∧
      ((signalling rtc).run server (server.uninterrupted socket document)).connections =
        server.connections := by
  by_cases locked : server.lock socket = true
  · simp [Server.uninterrupted, signalling, Server.step, Server.message, locked, Server.handler,
      returns, eraseIdx_concat]
  · simp [Server.uninterrupted, signalling, Server.step, Server.message, locked, Server.handler]

theorem run_unlocked (unlocked : ¬ server.lock socket = true) :
    exception rtc calls server socket document = none := by
  simp [exception, Server.uninterrupted, signalling, Server.step, Server.message, unlocked,
    Server.handler]

section Create

variable {message : Json} {id type : String}
variable (locked : server.lock socket = true)
variable (creates : server.onMessage rtc (.text document) = ((none, .create id type message), []))
include locked creates

/-- A handler that creates a peer connection keeps it, however it ends. -/
theorem run_create :
    ((signalling rtc).run server (server.uninterrupted socket document)).connections =
      server.connections ++ [{ id, socket, terminated := false }] := by
  simp [Server.uninterrupted, signalling, Server.step, Server.message, locked, Server.handler,
    creates, Server.createPeerConnection]

theorem exception_create :
    exception rtc calls server socket document =
      (Server.remoteEffects rtc (some server.connections.length) type message).findSome?
        (Effect.raised calls) := by
  simp [exception, Server.uninterrupted, signalling, Server.step, Server.message, locked,
    Server.handler, creates]
  rfl

end Create

theorem remoteEffects_request (pc : Option Nat) (message : Json) :
    Server.remoteEffects rtc pc "request" message = [] := rfl

theorem raised_offer_iff (pc : Nat) (message : Json) :
    (Server.remoteEffects rtc (some pc) "offer" message).findSome? (Effect.raised calls) ≠ none ↔
      SdpRejected rtc calls pc message := by
  cases converted : getString (member "sdp" message) with
  | error text =>
      have effects : Server.remoteEffects rtc (some pc) "offer" message = [.threw text] := by
        simp [Server.remoteEffects, remoteCall, converted, bind, Except.bind]
      simp [effects, Effect.raised, SdpRejected, converted]
  | ok sdp =>
      cases built : rtc.description sdp "offer" with
      | error text =>
          have effects : Server.remoteEffects rtc (some pc) "offer" message = [.threw text] := by
            simp [Server.remoteEffects, remoteCall, converted, built, bind, Except.bind]
          simp [effects, Effect.raised, SdpRejected, converted, built]
      | ok _ =>
          have effects : Server.remoteEffects rtc (some pc) "offer" message =
              [.remote (some pc) (.setRemoteDescription sdp "offer")] := by
            simp [Server.remoteEffects, remoteCall, converted, built, bind, Except.bind, pure,
              Except.pure]
          cases called : calls pc (.setRemoteDescription sdp "offer") <;>
            simp [effects, Effect.raised, SdpRejected, converted, built, called]

theorem RejectedOffer.creates (rejected : RejectedOffer rtc calls server document) :
    (server.onMessage rtc (.text document)).1.2 ≠ .returning := by
  obtain ⟨message, id, rfl, hasId, unknown, hasType, _⟩ := rejected
  simp [Server.onMessage, hasId, hasType, unknown]

theorem leavesIntact_create {message : Json} {id type : String} (locked : server.lock socket = true)
    (creates : server.onMessage rtc (.text document) = ((none, .create id type message), [])) :
    LeavesIntact rtc calls server socket document ↔
      ¬ (Server.remoteEffects rtc (some server.connections.length) type message).findSome?
        (Effect.raised calls) ≠ none := by
  rw [LeavesIntact, run_create locked creates, exception_create locked creates]
  apply Iff.intro
  · intro intact raised
    have same := congrArg List.length (intact raised).2
    rw [List.length_append] at same
    exact absurd same (by simp)
  · exact fun returned raised => absurd raised returned

/-- A handler that throws leaves clients and connections as they were, unless the message is
an offer that is rejected, from a client that was not known. -/
theorem leavesIntact_iff :
    LeavesIntact rtc calls server socket document ↔
      ¬ (server.lock socket = true ∧ RejectedOffer rtc calls server document) := by
  by_cases locked : server.lock socket = true
  · rw [and_iff_right locked]
    rcases onMessage_stage rtc server document with
      returns | ⟨message, id, type, rfl, hasId, unknown, hasType, offerOrRequest, creates⟩
    · exact iff_of_true (fun _ => run_returning returns) fun rejected => rejected.creates returns
    · rw [leavesIntact_create locked creates]
      rcases offerOrRequest with rfl | rfl
      · rw [raised_offer_iff]
        apply not_congr
        apply Iff.intro
        · exact fun rejected => ⟨message, id, rfl, hasId, unknown, hasType, rejected⟩
        · intro offer
          obtain ⟨other, _, same, _, _, _, rejected⟩ := offer
          obtain rfl := Except.ok.inj same
          exact rejected
      · rw [remoteEffects_request]
        apply iff_of_true (by simp)
        intro offer
        obtain ⟨other, _, same, _, _, offers, _⟩ := offer
        obtain rfl := Except.ok.inj same
        rw [hasType] at offers
        simp at offers
  · have returned : exception rtc calls server socket document = none := run_unlocked locked
    exact iff_of_true (fun raised => absurd returned raised) fun both => locked both.1

end Failure

/-- An offer without `sdp` throws, and leaves a client behind. -/
theorem not_leavesIntact :
    ¬ ∀ (rtc : Rtc) (calls : PcCalls) (server : Server) (socket : Nat)
      (document : Except String Json), LeavesIntact rtc calls server socket document := by
  intro intact
  have left := intact ⟨fun _ _ => .ok (), fun _ _ => .ok ()⟩ (fun _ _ => .ok ())
    Server.initial.onClient 0 (.ok (.object [("id", .string "a"), ("type", .string "offer")]))
  have after := (left (by decide)).2
  exact absurd after (by decide)

end RcControl.Signalling
