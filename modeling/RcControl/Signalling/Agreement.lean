import RcControl.Signalling.Negotiation

namespace RcControl.Signalling

open RcControl.Data RcControl.Control

/-! What the server and the browsers make of each other's messages. -/

variable {rtc : Rtc} {session : Session} {socket : Nat} {browser : Browser}

section Agreement

/-- The messages are understood. -/
structure Agrees (session : Session) (effects : List Effect) : Prop where
  offers : OffersMatch session effects
  answers : AnswersMatch session effects
  missing : MissesTerminated session effects

theorem agrees_nil (session : Session) : Agrees session [] where
  offers socket message member := by cases member
  answers pc call member := by cases member
  missing call member := by cases member

theorem Negotiating.handler_effects (negotiating : Negotiating session) (rtc : Rtc) (index : Nat) :
    (session.server.handler rtc index).2 = [] := by
  cases found : session.server.handlers[index]? with
  | none => simp only [Server.handler, found]
  | some handler =>
      obtain ⟨socket, pc, stage⟩ := handler
      cases stage with
      | returning => simp only [Server.handler, found]
      | create id type message =>
          obtain ⟨-, rfl⟩ := negotiating.creating _ (List.mem_of_getElem? found) id type message rfl
          simp only [Server.handler, found]
          rfl

theorem Negotiating.gatheringComplete_agrees (negotiating : Negotiating session) (pc : Nat) (sdp : String) :
    Agrees (session.step rtc (.gatheringComplete pc sdp)).1
      (session.step rtc (.gatheringComplete pc sdp)).2 := by
  have after : Negotiating (session.step rtc (.gatheringComplete pc sdp)).1 :=
    negotiating.gatheringComplete pc sdp
  by_cases made : pc < session.server.connections.length
  case neg =>
    simp only [Session.step, if_neg made]
    exact agrees_nil _
  simp only [Session.step, if_pos made, Session.serve, Server.step] at after ⊢
  rcases gathering_effects session.server pc "offer" sdp with none | ⟨connection, found, sent⟩
  · rw [none]
    exact agrees_nil _
  · rw [sent] at after ⊢
    refine ⟨?_, fun _ _ member => by simp at member, fun _ member => by simp at member⟩
    intro socket message member
    obtain ⟨rfl, rfl⟩ := Effect.send.inj (List.mem_singleton.mp member)
    obtain ⟨browser, here, same⟩ := browser_of_id (after.forOwn pc connection found)
    refine ⟨browser, pc, sdp, here, ⟨connection, found, rfl, same.symm⟩, ?_, by rw [same]⟩
    exact List.mem_append_right _ List.mem_cons_self

theorem onMessage_silent (server : Server) (data : SocketData) (socket : Nat) (text : Json) :
    .send socket text ∉ (server.onMessage rtc data).2 := by
  unfold Server.onMessage
  split
  · simp
  · simp
  · split
    · simp
    · simp
    · split
      · simp
      · simp
      · split
        · exact remoteEffects_silent _ _ _ _ _
        · split
          · simp
          · exact remoteEffects_silent _ _ _ _ _

theorem message_silent (server : Server) (index : Nat) (data : SocketData) (socket : Nat) (text : Json) :
    .send socket text ∉ (server.message rtc index data).2 := by
  unfold Server.message
  split
  · intro member
    rcases List.mem_cons.mp member with same | later
    · cases same
    · exact onMessage_silent server data socket text later
  · simp

theorem message_remote (server : Server) (index : Nat) (data : SocketData) {pc : Option Nat}
    {call : RemoteCall} (member : .remote pc call ∈ (server.message rtc index data).2) :
    .remote pc call ∈ (server.onMessage rtc data).2 := by
  unfold Server.message at member
  split at member
  · exact (List.mem_cons.mp member).resolve_left (by simp)
  · cases member

theorem message_connections (server : Server) (index : Nat) (data : SocketData) :
    (server.message rtc index data).1.connections = server.connections := by
  unfold Server.message
  split <;> rfl

/-- A delivery hands the next message of a browser to the server. -/
theorem deliver_cases (rtc : Rtc) (session : Session) (index : Nat) :
    session.deliver rtc index = (session, []) ∨
      ∃ browser message outbox, session.browsers[index]? = some browser ∧
        browser.outbox = message :: outbox ∧
        session.deliver rtc index =
          ({ session with
              server := (session.server.message rtc index (.text (.ok message))).1
              browsers := session.browsers.modify index fun browser => { browser with outbox } },
            (session.server.message rtc index (.text (.ok message))).2) := by
  unfold Session.deliver
  split
  · rename_i message outbox answers found
    refine .inr ⟨_, message, outbox, found, rfl, ?_⟩
    simp only [Session.serve, Server.step, Session.change, post_silent (message_silent _ _ _)]
  · exact .inl rfl

/-- What the server does with the next message of a browser. -/
theorem Negotiating.delivered (negotiating : Negotiating session) (rtc : Rtc) (index : Nat) {pc : Option Nat}
    {call : RemoteCall} (member : .remote pc call ∈ (session.deliver rtc index).2) :
    ∃ browser offer sdp, session.browsers[index]? = some browser ∧ (offer, sdp) ∈ browser.answers ∧
      pc = session.server.clients.find? browser.clientId ∧ call = .setRemoteDescription sdp "answer" := by
  rcases deliver_cases rtc session index with same | ⟨browser, message, outbox, found, head, delivered⟩
  · rw [same] at member
    cases member
  · rw [delivered] at member
    have later := message_remote session.server index _ member
    rcases (negotiating.own index browser found).next head with ⟨rfl, -⟩ | ⟨offer, sdp, answered, rfl⟩
    · rw [onMessage_request] at later
      split at later <;> simp at later
    · rw [onMessage_answer, remoteEffects_answer] at later
      split at later
      · simp at later
      · obtain ⟨rfl, rfl⟩ := Effect.remote.inj (List.mem_singleton.mp later)
        exact ⟨browser, offer, sdp, found, answered, rfl, rfl⟩

theorem deliver_silent (rtc : Rtc) (session : Session) (index socket : Nat) (text : Json) :
    .send socket text ∉ (session.deliver rtc index).2 := by
  rcases deliver_cases rtc session index with same | ⟨browser, message, outbox, -, -, delivered⟩
  · simp [same]
  · rw [delivered]
    exact message_silent _ _ _ _ _

/-- A delivery leaves connections and descriptions, and what the browsers have answered. -/
theorem deliver_frame (rtc : Rtc) (session : Session) (index : Nat) :
    (session.deliver rtc index).1.server.connections = session.server.connections ∧
      (session.deliver rtc index).1.described = session.described ∧
      ∀ browser, session.browsers[index]? = some browser →
        ∃ later, (session.deliver rtc index).1.browsers[index]? = some later ∧
          later.clientId = browser.clientId ∧ later.answers = browser.answers := by
  rcases deliver_cases rtc session index with same | ⟨browser, message, outbox, found, -, delivered⟩
  · rw [same]
    exact ⟨rfl, rfl, fun browser here => ⟨browser, here, rfl, rfl⟩⟩
  · rw [delivered]
    refine ⟨message_connections _ _ _, rfl, fun browser here => ⟨{ browser with outbox }, ?_, rfl, rfl⟩⟩
    simp only [List.getElem?_modify, if_pos, here]
    rfl

theorem Negotiating.deliver_agrees (negotiating : Negotiating session) (rtc : Rtc) (index : Nat) :
    Agrees (session.deliver rtc index).1 (session.deliver rtc index).2 := by
  obtain ⟨connections, described, browsers⟩ := deliver_frame rtc session index
  refine ⟨fun socket message member => absurd member (deliver_silent rtc session index socket message), ?_, ?_⟩
  · intro pc call member
    obtain ⟨browser, offer, sdp, here, answered, stored, rfl⟩ := negotiating.delivered rtc index member
    obtain ⟨later, hereLater, sameId, sameAnswers⟩ := browsers browser here
    obtain ⟨connection, found, sameKey⟩ := negotiating.keyed browser.clientId pc stored.symm
    obtain ⟨own, connection', found', onSocket, offered⟩ :=
      (negotiating.own index browser here).answers (offer, sdp) answered
    have sameSocket := negotiating.same_socket
      (sameKey ▸ negotiating.forOwn pc connection found) (ids_found here)
    obtain rfl := negotiating.one_each found found' (sameSocket.trans onSocket.symm)
    refine ⟨index, later, offer, sdp, hereLater, ⟨connection, connections ▸ found, sameSocket, ?_⟩, ?_, ?_, rfl⟩
    · rw [sameKey, sameId]
    · rw [described]
      exact offered
    · rw [sameAnswers]
      exact answered
  · intro call member
    obtain ⟨browser, offer, sdp, here, answered, stored, rfl⟩ := negotiating.delivered rtc index member
    obtain ⟨later, hereLater, sameId, sameAnswers⟩ := browsers browser here
    obtain ⟨pc, connection, found, onSocket, offered⟩ :=
      (negotiating.own index browser here).answers (offer, sdp) answered
    have own := negotiating.forOwn pc connection found
    rw [onSocket, ids_found here] at own
    have sameKey := Option.some.inj own
    refine ⟨index, later, pc, connection, offer, sdp, hereLater, connections ▸ found, onSocket, ?_, ?_, ?_,
      ?_, rfl⟩
    · rw [sameId, sameKey]
    · -- Otherwise it would be the one stored under the id.
      by_contra alive
      have kept := negotiating.owned pc connection found (Bool.eq_false_iff.mpr alive)
      rw [← sameKey, ← stored] at kept
      cases kept
    · rw [described]
      exact offered
    · rw [sameAnswers]
      exact answered

theorem Negotiating.agrees (rtc : Rtc) (negotiating : Negotiating session) (move : Move) :
    Agrees (session.step rtc move).1 (session.step rtc move).2 := by
  cases move with
  | deliver index => exact negotiating.deliver_agrees rtc index
  | gatheringComplete pc sdp => exact negotiating.gatheringComplete_agrees pc sdp
  | handler index =>
      have none : (session.step rtc (.handler index)).2 = [] := negotiating.handler_effects rtc index
      rw [none]
      exact agrees_nil _
  | connect _ | start _ | receive _ | sendAnswer _ _ _ | stateChange _ _ | runDispatched | close _ =>
      exact agrees_nil _

theorem Negotiating.oneEach (negotiating : Negotiating session) : OneEach session := by
  rintro first second socket clientId clientId' ⟨connection, found, here, -⟩ ⟨connection', found', here', -⟩
  exact negotiating.one_each found found' (here.trans here'.symm)

end Agreement

/-- In every interleaving in which no two browsers draw the same id, each browser gets at most one
connection and the offers of that one, a connection is given the answers of its browser to its
own offers, and an answer finds no connection only when that one has terminated. -/
theorem negotiation_agrees (rtc : Rtc) (moves : List Move)
    (fresh : (negotiation rtc).Along FreshId Session.initial moves) :
    (negotiation rtc).Along (fun session move =>
        Agrees (session.step rtc move).1 (session.step rtc move).2) Session.initial moves ∧
      (negotiation rtc).Always OneEach Session.initial moves := by
  have always := (negotiation rtc).always_of_along (Negotiating.next rtc) fresh initial_negotiating
  apply And.intro
  · exact (negotiation rtc).along_mono (fun session move negotiating => negotiating.agrees rtc move)
      ((negotiation rtc).along_of_always_before always)
  · exact (negotiation rtc).always_mono (fun session => Negotiating.oneEach) always

/-- A library that takes every description. -/
def anyDescription : Rtc where
  description _ _ := .ok ()
  candidate _ _ := .ok ()

/-- The second of two browsers gets its offer and answers it. -/
def secondBrowserAnswers : List Move :=
  [.connect "a", .connect "b", .start 1, .deliver 1, .handler 0, .handler 0, .gatheringComplete 0 "offer",
    .receive 1, .sendAnswer 1 0 "answer", .deliver 1]

theorem secondBrowserAnswers_fresh :
    (negotiation anyDescription).Along FreshId Session.initial secondBrowserAnswers := by
  refine ⟨?_, ?_, ?_, ?_, ?_, ?_, ?_, ?_, ?_, ?_, trivial⟩
  all_goals rintro clientId ⟨⟩
  all_goals decide

theorem negotiation_agrees_second_browser :
    (negotiation anyDescription).Along (fun session move =>
        Agrees (session.step anyDescription move).1 (session.step anyDescription move).2)
        Session.initial secondBrowserAnswers ∧
      (negotiation anyDescription).Always OneEach Session.initial secondBrowserAnswers :=
  negotiation_agrees anyDescription secondBrowserAnswers secondBrowserAnswers_fresh

example : ((negotiation anyDescription).outputs Session.initial secondBrowserAnswers).getLast? =
    some [.handled 1, .remote (some 0) (.setRemoteDescription "answer" "answer")] := rfl

/-- For browsers with different ids the server's registry is right: a client stays stored under
its id until its own connection has terminated. -/
theorem negotiation_keeps_clients (rtc : Rtc) (moves : List Move)
    (fresh : (negotiation rtc).Along FreshId Session.initial moves) :
    (negotiation rtc).Always (fun session => session.server.Owned) Session.initial moves := by
  have always := (negotiation rtc).always_of_along (Negotiating.next rtc) fresh initial_negotiating
  exact (negotiation rtc).always_mono (fun session negotiating => negotiating.owned) always

theorem negotiation_keeps_clients_second_browser :
    (negotiation anyDescription).Always (fun session => session.server.Owned) Session.initial
      secondBrowserAnswers :=
  negotiation_keeps_clients anyDescription secondBrowserAnswers secondBrowserAnswers_fresh

end RcControl.Signalling
