import RcControl.Signalling.Handler

namespace RcControl.Signalling

open RcControl.Data RcControl.Control

/-! Messages for peer connections that do not exist.

The handler sets `pc` for a known id, an offer and a request, but it goes by the type
alone when it comes to use `pc`. -/

/-- A call on a peer connection is made on one that is there. -/
def Effect.reachesPc : Effect → Bool
  | .remote pc _ => pc.isSome
  | .handled _ | .threw _ | .send _ _ => true

def NoMissingPeer (rtc : Rtc) (events : List Event) : Prop :=
  (signalling rtc).Along (fun server event =>
    ∀ effect ∈ (server.step rtc event).2, effect.reachesPc = true) Server.initial events

/-- A message that gets as far as a call on `pc`, and is not an offer, is for a client. -/
def ForClient (rtc : Rtc) (server : Server) (event : Event) : Prop :=
  ∀ socket message id type call, event = .message socket (.text (.ok message)) →
    server.lock socket = true →
    findString "id" message = .ok (some id) → findString "type" message = .ok (some type) →
    remoteCall rtc type message = .ok (some call) →
      type = "offer" ∨ (server.clients.find? id).isSome = true

section Step

variable (rtc : Rtc) (server : Server)

theorem remoteEffects_reachesPc_iff (pc : Option Nat) (type : String) (message : Json) :
    (∀ effect ∈ Server.remoteEffects rtc pc type message, effect.reachesPc = true) ↔
      ∀ call, remoteCall rtc type message = .ok (some call) → pc.isSome = true := by
  unfold Server.remoteEffects
  split
  · rename_i found
    simp [found, Effect.reachesPc]
  · rename_i found
    simp [found]
  · rename_i found
    simp [found, Effect.reachesPc]

theorem remoteCall_request {type : String} (request : type = "request") (message : Json) :
    remoteCall rtc type message = .ok none := by
  subst request
  rfl

/-- The body of the handler, from the id and the type on. -/
theorem onMessage_found {message : Json} {id type : String}
    (hasId : findString "id" message = .ok (some id))
    (hasType : findString "type" message = .ok (some type)) :
    (∀ effect ∈ (server.onMessage rtc (.text (.ok message))).2, effect.reachesPc = true) ↔
      ∀ call, remoteCall rtc type message = .ok (some call) →
        type = "offer" ∨ (server.clients.find? id).isSome = true := by
  simp only [Server.onMessage, hasId, hasType]
  cases known : server.clients.find? id with
  | some pc => simp [remoteEffects_reachesPc_iff]
  | none =>
      dsimp only
      by_cases offer : type = "offer"
      · simp [offer]
      by_cases request : type = "request"
      · simp [request, remoteCall_request]
      · simp [offer, request, remoteEffects_reachesPc_iff]

/-- A handler that ends before it has an id and a type makes no call. -/
theorem onMessage_unfound {message : Json}
    (unfound : ∀ id type, findString "id" message = .ok (some id) →
      findString "type" message ≠ .ok (some type)) :
    ∀ effect ∈ (server.onMessage rtc (.text (.ok message))).2, effect.reachesPc = true := by
  simp only [Server.onMessage]
  cases hasId : findString "id" message with
  | error text => simp [Effect.reachesPc]
  | ok id =>
      cases id with
      | none => simp
      | some id =>
          cases hasType : findString "type" message with
          | error text => simp [Effect.reachesPc]
          | ok type =>
              cases type with
              | none => simp
              | some type => exact absurd hasType (unfound id type hasId)

theorem message_reachesPc_iff (socket : Nat) (data : SocketData) :
    (∀ effect ∈ (server.message rtc socket data).2, effect.reachesPc = true) ↔
      ForClient rtc server (.message socket data) := by
  unfold Server.message
  split
  · rename_i locked
    rw [List.forall_mem_cons]
    refine (and_iff_right rfl).trans ?_
    cases data with
    | binary =>
        refine iff_of_true (by simp [Server.onMessage]) ?_
        intro _ _ _ _ _ same
        cases same
    | text document =>
        cases document with
        | error text =>
            refine iff_of_true (by simp [Server.onMessage, Effect.reachesPc]) ?_
            intro _ _ _ _ _ same
            cases same
        | ok message =>
            apply Iff.intro
            · intro reaches _ _ id type call same _ hasId hasType called
              cases same
              exact (onMessage_found rtc server hasId hasType).mp reaches call called
            · intro forClient
              by_cases found : ∃ id type, findString "id" message = .ok (some id) ∧
                  findString "type" message = .ok (some type)
              · obtain ⟨id, type, hasId, hasType⟩ := found
                refine (onMessage_found rtc server hasId hasType).mpr fun call called => ?_
                exact forClient socket message id type call rfl locked hasId hasType called
              · refine onMessage_unfound rtc server fun id type hasId hasType => ?_
                exact found ⟨id, type, hasId, hasType⟩
  · rename_i unlocked
    refine iff_of_true (by simp) ?_
    intro _ _ _ _ _ same locked
    cases same
    exact absurd locked unlocked

theorem handler_reachesPc (index : Nat) :
    ∀ effect ∈ (server.handler rtc index).2, effect.reachesPc = true := by
  unfold Server.handler
  split
  · simp
  · simp
  · rename_i id type message
    exact (remoteEffects_reachesPc_iff rtc _ _ _).mpr fun _ _ => rfl

theorem gatheringComplete_reachesPc (pc : Nat) (type sdp : String) :
    ∀ effect ∈ server.gatheringComplete pc type sdp, effect.reachesPc = true := by
  unfold Server.gatheringComplete
  split
  · simp
  · split <;> simp [Effect.reachesPc]

theorem step_reachesPc_iff (event : Event) :
    (∀ effect ∈ (server.step rtc event).2, effect.reachesPc = true) ↔
      ForClient rtc server event := by
  cases event with
  | message socket data => exact message_reachesPc_iff rtc server socket data
  | handler index =>
      exact iff_of_true (handler_reachesPc rtc server index) fun _ _ _ _ _ same => by cases same
  | gatheringComplete pc type sdp =>
      exact iff_of_true (gatheringComplete_reachesPc server pc type sdp)
        fun _ _ _ _ _ same => by cases same
  | connect | close _ | stateChange _ _ | runDispatched =>
      exact iff_of_true (by simp [Server.step]) fun _ _ _ _ _ same => by cases same

end Step

/-- In every interleaving, no call is made on a missing peer connection exactly when each
message that reaches a call, but for an offer, carries the id of a client. -/
theorem no_missing_peer_iff (rtc : Rtc) (events : List Event) :
    NoMissingPeer rtc events ↔ (signalling rtc).Along (ForClient rtc) Server.initial events :=
  (signalling rtc).along_congr (fun _ => True) (fun server event _ => step_reachesPc_iff rtc server event)
    (fun _ _ _ _ => trivial) trivial events

def lateCandidate : Json :=
  .object [("id", .string "b"), ("type", .string "candidate"),
    ("candidate", .string "candidate:1 1 UDP 2122252543 192.168.1.2 50000 typ host"),
    ("mid", .string "0")]

/-- A candidate for an id that never made a request. -/
theorem not_no_missing_peer :
    ¬ ∀ (rtc : Rtc) (events : List Event), NoMissingPeer rtc events := by
  intro none_missing
  let rtc : Rtc := { description := fun _ _ => .ok (), candidate := fun _ _ => .ok () }
  obtain ⟨-, reaches, -⟩ := none_missing rtc [.connect, .message 0 (.text (.ok lateCandidate))]
  have all : (((Server.initial.onClient).message rtc 0 (.text (.ok lateCandidate))).2.all
      (·.reachesPc)) = true := List.all_eq_true.mpr reaches
  exact absurd all (by decide +kernel)

end RcControl.Signalling
