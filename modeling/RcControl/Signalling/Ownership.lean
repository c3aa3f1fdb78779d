import RcControl.Data.Slots
import RcControl.Signalling.Handler

namespace RcControl.Signalling

open RcControl.Data RcControl.Data.Slots RcControl.Control

/-! Which client is stored under an id.

An erase job carries only the id.  It is queued by the state callback of one peer
connection and erases whatever is stored under the id when it runs.  `emplace` comes
after a lookup, with steps of other threads in between. -/

/-- Every peer connection that has not handled a terminal state is the one stored under
its id. -/
def Server.Owned (server : Server) : Prop :=
  ∀ pc connection, server.connections[pc]? = some connection → connection.terminated = false →
    server.clients.find? connection.id = some pc

/-- What is stored under an id is a peer connection created for that id. -/
def Server.WellKeyed (server : Server) : Prop :=
  ∀ id pc, server.clients.find? id = some pc →
    ∃ connection, server.connections[pc]? = some connection ∧ connection.id = id

/-- `emplace` finds the id free, and an erase job finds nothing under its id or a client
whose own peer connection has handled a terminal state. -/
def OwnEntry (server : Server) : Event → Prop
  | .handler index =>
      ∀ socket pc id type message,
        server.handlers[index]? = some ⟨socket, pc, .create id type message⟩ →
          server.clients.find? id = none
  | .runDispatched =>
      ∀ id queue pc connection, server.queue = id :: queue → server.clients.find? id = some pc →
        server.connections[pc]? = some connection → connection.terminated = true
  | .connect | .close _ | .message _ _ | .stateChange _ _ | .gatheringComplete _ _ _ => True

section Step

variable {server : Server}

theorem createPeerConnection_wellKeyed (keyed : server.WellKeyed) (socket : Nat) (id : String) :
    (server.createPeerConnection socket id).WellKeyed := by
  intro other pc found
  simp only [Server.createPeerConnection] at found ⊢
  have older : ∀ pc, server.clients.find? other = some pc →
      ∃ connection, (server.connections ++ [⟨id, socket, false⟩])[pc]? = some connection ∧
        connection.id = other := by
    intro pc stored
    obtain ⟨connection, here, same⟩ := keyed other pc stored
    refine ⟨connection, ?_, same⟩
    rw [List.getElem?_append_left (List.getElem?_eq_some_iff.mp here).1, here]
  rw [Registry.find?_emplace] at found
  split at found
  · rename_i same
    cases stored : server.clients.find? id with
    | some older_pc =>
        rw [stored] at found
        cases found
        exact older _ (same ▸ stored)
    | none =>
        rw [stored] at found
        cases found
        exact ⟨_, List.getElem?_concat_length, same.symm⟩
  · exact older pc found

theorem createPeerConnection_owned_iff (keyed : server.WellKeyed) (owned : server.Owned)
    (socket : Nat) (id : String) :
    server.clients.find? id = none ↔ (server.createPeerConnection socket id).Owned := by
  apply Iff.intro
  · intro free pc connection here alive
    simp only [Server.createPeerConnection] at here ⊢
    rw [Registry.find?_emplace, free, Option.getD_none]
    rcases getElem?_concat_eq_some.mp here with older | ⟨rfl, rfl⟩
    · have stored := owned pc connection older alive
      rw [if_neg, stored]
      intro same
      rw [same, free] at stored
      cases stored
    · exact if_pos rfl
  · intro ownedNext
    have stored := ownedNext server.connections.length ⟨id, socket, false⟩
      List.getElem?_concat_length rfl
    simp only [Server.createPeerConnection] at stored
    rw [Registry.find?_emplace, if_pos rfl] at stored
    cases found : server.clients.find? id with
    | none => rfl
    | some pc =>
        -- The older entry stayed, so the number stored is that of an older connection.
        obtain ⟨connection, here, -⟩ := keyed id pc found
        have bound := (List.getElem?_eq_some_iff.mp here).1
        rw [found] at stored
        cases stored
        omega

theorem stateChange_clients (pc : Nat) (state : PeerState) :
    (server.stateChange pc state).clients = server.clients := by
  unfold Server.stateChange
  split
  · rfl
  · split <;> rfl

/-- A state change marks the connection it is about, if the state is terminal. -/
theorem stateChange_connections (server : Server) (pc : Nat) (state : PeerState) (index : Nat) :
    (server.stateChange pc state).connections[index]? =
      server.connections[index]?.map fun connection =>
        { connection with
          terminated := connection.terminated || (decide (pc = index) && state.terminal) } := by
  unfold Server.stateChange
  split
  · rename_i missing
    by_cases same : pc = index
    · rw [← same, missing]
      rfl
    · simp [same]
  · split
    · rename_i terminal
      rw [List.getElem?_modify]
      congr 1
      funext connection
      split
      · rename_i same
        simp [same, terminal]
      · rename_i other
        simp [other]
    · rename_i notTerminal
      simp [notTerminal]

theorem stateChange_wellKeyed (keyed : server.WellKeyed) (pc : Nat) (state : PeerState) :
    (server.stateChange pc state).WellKeyed := by
  intro id stored found
  rw [stateChange_clients] at found
  obtain ⟨connection, here, same⟩ := keyed id stored found
  have changed := stateChange_connections server pc state stored
  rw [here, Option.map_some] at changed
  exact ⟨_, changed, same⟩

theorem stateChange_owned (owned : server.Owned) (pc : Nat) (state : PeerState) :
    (server.stateChange pc state).Owned := by
  intro index after here alive
  rw [stateChange_connections] at here
  obtain ⟨before, found, rfl⟩ := Option.map_eq_some_iff.mp here
  rw [stateChange_clients]
  exact owned index before found (Bool.or_eq_false_iff.mp alive).1

theorem runDispatched_wellKeyed (keyed : server.WellKeyed) : server.runDispatched.WellKeyed := by
  unfold Server.runDispatched
  split
  · exact keyed
  · intro id pc found
    rw [Registry.find?_erase] at found
    split at found
    · cases found
    · exact keyed id pc found

theorem runDispatched_owned_iff (keyed : server.WellKeyed) (owned : server.Owned) :
    OwnEntry server .runDispatched ↔ server.runDispatched.Owned := by
  unfold Server.runDispatched
  split
  · rename_i empty
    exact iff_of_true (fun _ _ _ _ queued => by rw [empty] at queued; cases queued) owned
  · rename_i id queue queued
    apply Iff.intro
    · intro ownEntry pc connection here alive
      have stored := owned pc connection here alive
      rw [Registry.find?_erase, if_neg, stored]
      intro same
      have terminated := ownEntry id queue pc connection queued (same ▸ stored) here
      rw [alive] at terminated
      cases terminated
    · intro ownedNext other rest pc connection sameQueue stored here
      rw [queued] at sameQueue
      cases sameQueue
      by_contra alive
      have kept := ownedNext pc connection here (Bool.eq_false_iff.mpr alive)
      obtain ⟨own, ownHere, ownId⟩ := keyed id pc stored
      rw [here] at ownHere
      cases ownHere
      rw [Registry.find?_erase, if_pos ownId] at kept
      cases kept

theorem handler_wellKeyed (rtc : Rtc) (keyed : server.WellKeyed) (index : Nat) :
    (server.handler rtc index).1.WellKeyed := by
  unfold Server.handler
  split
  · exact keyed
  · exact keyed
  · exact createPeerConnection_wellKeyed keyed _ _

theorem handler_owned_iff (rtc : Rtc) (keyed : server.WellKeyed) (owned : server.Owned) (index : Nat) :
    OwnEntry server (.handler index) ↔ (server.handler rtc index).1.Owned := by
  change (∀ socket pc id type message, server.handlers[index]? =
    some ⟨socket, pc, .create id type message⟩ → server.clients.find? id = none) ↔ _
  unfold Server.handler
  split
  · rename_i missing
    exact iff_of_true (fun _ _ _ _ _ here => by rw [missing] at here; cases here) owned
  · rename_i socket pc here
    exact iff_of_true (fun _ _ _ _ _ other => by rw [here] at other; cases other) owned
  · rename_i socket pc id type message here
    refine Iff.trans ?_ (createPeerConnection_owned_iff keyed owned socket id)
    apply Iff.intro
    · intro free
      exact free socket pc id type message here
    · intro free _ _ _ _ _ other
      rw [here] at other
      cases other
      exact free

theorem next_wellKeyed (rtc : Rtc) (server : Server) (event : Event) (keyed : server.WellKeyed) :
    (server.step rtc event).1.WellKeyed := by
  cases event with
  | connect | close socket | gatheringComplete pc type sdp => exact keyed
  | message socket data =>
      simp only [Server.step, Server.message]
      split <;> exact keyed
  | handler index => exact handler_wellKeyed rtc keyed index
  | stateChange pc state => exact stateChange_wellKeyed keyed pc state
  | runDispatched => exact runDispatched_wellKeyed keyed

theorem next_owned_iff (rtc : Rtc) (server : Server) (event : Event) (keyed : server.WellKeyed)
    (owned : server.Owned) : OwnEntry server event ↔ (server.step rtc event).1.Owned := by
  cases event with
  | connect | close socket | gatheringComplete pc type sdp => exact iff_of_true trivial owned
  | message socket data =>
      refine iff_of_true trivial ?_
      simp only [Server.step, Server.message]
      split <;> exact owned
  | handler index => exact handler_owned_iff rtc keyed owned index
  | stateChange pc state => exact iff_of_true trivial (stateChange_owned owned pc state)
  | runDispatched => exact runDispatched_owned_iff keyed owned

end Step

/-- In every interleaving, clients stay stored until they have terminated exactly when each
`emplace` finds its id free and no erase job finds a client that has not terminated. -/
theorem always_owned_iff (rtc : Rtc) (events : List Event) :
    (signalling rtc).Always Server.Owned Server.initial events ↔
      (signalling rtc).Along OwnEntry Server.initial events := by
  have keyed : Server.initial.WellKeyed := fun id pc found => by cases found
  have owned : Server.initial.Owned := fun pc connection here => by cases here
  have guarded := (signalling rtc).along_of_invariant (next_wellKeyed rtc) keyed events
  exact ((signalling rtc).along_iff_always (fun server event now invariant =>
    next_owned_iff rtc server event now invariant) guarded owned).symm

def request (id : String) : SocketData :=
  .text (.ok (.object [("id", .string id), ("type", .string "request")]))

/-- A peer disconnects and its erase job runs; the connection it destroys closes, and the
job of that erases the client of the browser that has come back meanwhile. -/
theorem not_always_owned :
    ¬ ∀ (rtc : Rtc) (events : List Event),
      (signalling rtc).Always Server.Owned Server.initial events := by
  intro owned
  let rtc : Rtc := { description := fun _ _ => .ok (), candidate := fun _ _ => .ok () }
  let events : List Event := [.connect, .message 0 (request "a"), .handler 0, .handler 0,
    .stateChange 0 .disconnected, .runDispatched, .stateChange 0 .closed,
    .message 0 (request "a"), .handler 0, .handler 0, .runDispatched]
  have last := (signalling rtc).always_run (owned rtc events)
  have stored := last 1 ⟨"a", 0, false⟩ (by decide +kernel) rfl
  exact absurd stored (by decide +kernel)

end RcControl.Signalling
