import RcControl.Data.Slots
import RcControl.Signalling.Browsers
import RcControl.Signalling.Ownership

namespace RcControl.Signalling

open RcControl.Data RcControl.Data.Slots RcControl.Control

/-! Browsers with different ids get their own connections, and what is negotiated on them.

The invariant counts what a browser's one request can be: still on its way, in the hands
of a handler that is about to create a connection, or that connection. -/

variable {rtc : Rtc} {session after : Session} {socket : Nat} {browser : Browser}

def Handler.creates (handler : Handler) : List Nat :=
  match handler.stage with
  | .create _ _ _ => [handler.socket]
  | .returning => []

/-- The sockets whose request has become a connection, or is about to. -/
def Server.spent (server : Server) : Multiset Nat :=
  server.connections.map Connection.socket + held Handler.creates server.handlers

def Session.ids (session : Session) : List String := session.browsers.map Browser.clientId

def isRequest (message : Json) : Bool :=
  match message.find "type" with
  | some (.string "request") => true
  | _ => false

/-- A description of the connection made for this socket. -/
def Session.Offered (session : Session) (socket : Nat) (sdp : String) : Prop :=
  ∃ (pc : Nat) (connection : Connection), session.server.connections[pc]? = some connection ∧
    connection.socket = socket ∧ (pc, sdp) ∈ session.described

structure Own (session : Session) (socket : Nat) (browser : Browser) : Prop where
  inbox : ∀ message ∈ browser.inbox, ∃ sdp,
    message = Server.localDescription browser.clientId "offer" sdp ∧ session.Offered socket sdp
  answering : ∀ sdp ∈ browser.answering, session.Offered socket sdp
  answers : ∀ answer ∈ browser.answers, session.Offered socket answer.1
  outbox : ∀ message ∈ browser.outbox, message = requestMessage browser.clientId ∨
    ∃ offer sdp, (offer, sdp) ∈ browser.answers ∧ message = answerMessage browser.clientId sdp
  budget : browser.outbox.countP isRequest + session.server.spent.count socket ≤
    if browser.started then 1 else 0

structure Negotiating (session : Session) : Prop where
  numbered : session.server.sockets = session.browsers.length
  distinct : session.ids.Nodup
  keyed : session.server.WellKeyed
  owned : session.server.Owned
  forOwn : ∀ (pc : Nat) (connection : Connection), session.server.connections[pc]? = some connection →
    session.ids[connection.socket]? = some connection.id
  creating : ∀ handler ∈ session.server.handlers, ∀ (id type : String) (message : Json),
    handler.stage = .create id type message →
      session.ids[handler.socket]? = some id ∧ type = "request"
  queued : ∀ id ∈ session.server.queue, ∃ (pc : Nat) (connection : Connection),
    session.server.connections[pc]? = some connection ∧ connection.id = id ∧
      connection.terminated = true
  own : ∀ (socket : Nat) (browser : Browser), session.browsers[socket]? = some browser → Own session socket browser

section Facts

theorem ids_found (found : session.browsers[socket]? = some browser) :
    session.ids[socket]? = some browser.clientId := by
  rw [Session.ids, List.getElem?_map, found]
  rfl

theorem browser_of_id {id : String} (found : session.ids[socket]? = some id) :
    ∃ browser, session.browsers[socket]? = some browser ∧ browser.clientId = id := by
  rw [Session.ids, List.getElem?_map] at found
  exact Option.map_eq_some_iff.mp found

/-- A socket that was spent is that of a browser. -/
theorem Negotiating.spent_inside (negotiating : Negotiating session)
    (spent : socket ∈ session.server.spent) : ∃ id, session.ids[socket]? = some id := by
  rcases Multiset.mem_add.mp spent with connected | creating
  · obtain ⟨connection, member, rfl⟩ := List.mem_map.mp (Multiset.mem_coe.mp connected)
    obtain ⟨pc, found⟩ := List.mem_iff_getElem?.mp member
    exact ⟨_, negotiating.forOwn pc connection found⟩
  · obtain ⟨handler, member, here⟩ := mem_held.mp creating
    cases stage : handler.stage with
    | create id type message =>
        rw [Handler.creates, stage] at here
        obtain rfl := List.mem_singleton.mp here
        exact ⟨_, (negotiating.creating handler member id type message stage).1⟩
    | returning =>
        rw [Handler.creates, stage] at here
        cases here

theorem Negotiating.spent_nodup (negotiating : Negotiating session) :
    session.server.spent.Nodup := by
  rw [Multiset.nodup_iff_count_le_one]
  intro socket
  by_cases spent : socket ∈ session.server.spent
  · obtain ⟨id, found⟩ := negotiating.spent_inside spent
    obtain ⟨browser, here, -⟩ := browser_of_id found
    have budget := (negotiating.own socket browser here).budget
    split at budget <;> omega
  · rw [Multiset.count_eq_zero_of_notMem spent]
    exact Nat.zero_le 1

/-- One connection for a socket. -/
theorem Negotiating.one_each (negotiating : Negotiating session) {first second : Nat}
    {connection connection' : Connection}
    (found : session.server.connections[first]? = some connection)
    (found' : session.server.connections[second]? = some connection')
    (same : connection.socket = connection'.socket) : first = second := by
  have nodup := (Multiset.nodup_add.mp negotiating.spent_nodup).1
  rw [Multiset.coe_nodup] at nodup
  refine (List.getElem?_inj ?_ nodup).mp ?_
  · rw [List.length_map]
    exact (List.getElem?_eq_some_iff.mp found).1
  · rw [List.getElem?_map, List.getElem?_map, found, found', Option.map_some, Option.map_some, same]

theorem Negotiating.same_socket (negotiating : Negotiating session) {first second : Nat} {id : String}
    (found : session.ids[first]? = some id) (found' : session.ids[second]? = some id) :
    first = second := by
  refine (List.getElem?_inj ?_ negotiating.distinct).mp (found.trans found'.symm)
  exact (List.getElem?_eq_some_iff.mp found).1

/-- One connection for an id. -/
theorem Negotiating.one_id (negotiating : Negotiating session) {first second : Nat}
    {connection connection' : Connection}
    (found : session.server.connections[first]? = some connection)
    (found' : session.server.connections[second]? = some connection')
    (same : connection.id = connection'.id) : first = second := by
  have here := negotiating.forOwn first connection found
  have there := negotiating.forOwn second connection' found'
  rw [same] at here
  exact negotiating.one_each found found' (negotiating.same_socket here there)

theorem Negotiating.ownEntry (negotiating : Negotiating session) (event : Event) :
    OwnEntry session.server event := by
  cases event with
  | handler index =>
      intro socket pc id type message here
      cases stored : session.server.clients.find? id with
      | none => rfl
      | some other =>
          -- The connection stored under the id and the handler would both be the browser's.
          obtain ⟨connection, found, same⟩ := negotiating.keyed id other stored
          have member := List.mem_of_getElem? here
          obtain ⟨own, -⟩ := negotiating.creating _ member id type message rfl
          have own' := negotiating.forOwn other connection found
          rw [same] at own'
          have twice := negotiating.same_socket own own'
          have apart := (Multiset.nodup_add.mp negotiating.spent_nodup).2.2
          refine absurd ?_ (Multiset.disjoint_left.mp apart
            (Multiset.mem_coe.mpr (List.mem_map_of_mem (List.mem_of_getElem? found))))
          exact mem_held.mpr ⟨_, member, List.mem_singleton.mpr twice.symm⟩
  | runDispatched =>
      intro id queue pc connection queued stored found
      obtain ⟨other, connection', found', same, terminated⟩ :=
        negotiating.queued id (queued ▸ List.mem_cons_self)
      obtain ⟨connection'', found'', same''⟩ := negotiating.keyed id pc stored
      obtain rfl := Option.some.inj (found.symm.trans found'')
      obtain rfl := negotiating.one_id found' found (same.trans same''.symm)
      obtain rfl := Option.some.inj (found.symm.trans found')
      exact terminated
  | connect | close _ | message _ _ | stateChange _ _ | gatheringComplete _ _ _ => trivial

end Facts

section Browsers

/-- Connections keep their sockets, and descriptions stay. -/
structure Grows (session after : Session) : Prop where
  connections : ∀ (pc : Nat) (connection : Connection),
    session.server.connections[pc]? = some connection →
      ∃ later, after.server.connections[pc]? = some later ∧ later.socket = connection.socket
  described : ∀ pair ∈ session.described, pair ∈ after.described

theorem Grows.offered (grows : Grows session after) {sdp : String}
    (offered : session.Offered socket sdp) : after.Offered socket sdp := by
  obtain ⟨pc, connection, found, here, described⟩ := offered
  obtain ⟨later, foundLater, same⟩ := grows.connections pc connection found
  exact ⟨pc, later, foundLater, same.trans here, grows.described _ described⟩

theorem Own.grows (own : Own session socket browser) (grows : Grows session after)
    (spent : after.server.spent.count socket ≤ session.server.spent.count socket) :
    Own after socket browser where
  inbox message member := by
    obtain ⟨sdp, same, offered⟩ := own.inbox message member
    exact ⟨sdp, same, grows.offered offered⟩
  answering sdp member := grows.offered (own.answering sdp member)
  answers answer member := grows.offered (own.answers answer member)
  outbox := own.outbox
  budget := (Nat.add_le_add_left spent _).trans own.budget

theorem grows_same (server : session.server = after.server) (described : session.described = after.described) :
    Grows session after where
  connections _ connection found := ⟨connection, server ▸ found, rfl⟩
  described _ member := described ▸ member

theorem ids_change {step : Browser → Browser}
    (kept : ∀ browser, (step browser).clientId = browser.clientId) (index : Nat) :
    (session.change index step).ids = session.ids := by
  apply List.ext_getElem?
  intro position
  simp only [Session.ids, Session.change, List.getElem?_map, List.getElem?_modify]
  split <;> simp [Option.map_map, Function.comp_def, kept]

/-- A browser does something on its own. -/
theorem Negotiating.change (negotiating : Negotiating session) {step : Browser → Browser}
    (kept : ∀ browser, (step browser).clientId = browser.clientId) {index : Nat}
    (own : ∀ browser, session.browsers[index]? = some browser → Own session index browser →
      Own session index (step browser)) :
    Negotiating (session.change index step) where
  numbered := negotiating.numbered.trans (List.length_modify ..).symm
  distinct := by
    rw [ids_change kept]
    exact negotiating.distinct
  keyed := negotiating.keyed
  owned := negotiating.owned
  forOwn := by
    rw [ids_change kept]
    exact negotiating.forOwn
  creating := by
    rw [ids_change kept]
    exact negotiating.creating
  queued := negotiating.queued
  own position browser found := by
    have same : Grows session (session.change index step) := grows_same rfl rfl
    simp only [Session.change, List.getElem?_modify] at found
    obtain ⟨before, here, rfl⟩ := Option.map_eq_some_iff.mp found
    have ownBefore := negotiating.own position before here
    split
    · rename_i changed
      subst changed
      exact (own before here ownBefore).grows same le_rfl
    · exact ownBefore.grows same le_rfl

theorem Own.start (own : Own session socket browser) : Own session socket browser.start := by
  unfold Browser.start
  split
  · rename_i fresh
    have unstarted : browser.started = false := by simpa using (Bool.and_eq_true_iff.mp fresh).2
    have budget := own.budget
    rw [unstarted] at budget
    refine { own with outbox := ?_, budget := ?_ }
    · intro message member
      rcases List.mem_append.mp member with older | new
      · exact own.outbox message older
      · exact .inl (List.mem_singleton.mp new)
    · have one : [requestMessage browser.clientId].countP isRequest = 1 := rfl
      simp only [Browser.sendRequest, List.countP_append, one, if_true]
      simp only [Bool.false_eq_true, if_false] at budget
      omega
  · exact own

theorem Own.receive (own : Own session socket browser) : Own session socket browser.receive := by
  unfold Browser.receive
  split
  · exact own
  · rename_i message inbox head
    obtain ⟨sdp, same, offered⟩ := own.inbox message (head ▸ List.mem_cons_self)
    have handled : browser.onmessage message =
        { browser with answering := browser.answering ++ [sdp] } := by
      rw [same]
      rfl
    rw [handled]
    refine { own with inbox := ?_, answering := ?_ }
    · intro later member
      exact own.inbox later (head ▸ List.mem_cons_of_mem _ member)
    · intro offer member
      rcases List.mem_append.mp member with older | new
      · exact own.answering offer older
      · rw [List.mem_singleton.mp new]
        exact offered

theorem Own.sendAnswer (own : Own session socket browser) (index : Nat) (sdp : String) :
    Own session socket (browser.sendAnswer index sdp) := by
  unfold Browser.sendAnswer
  split
  · exact own
  · rename_i offer found
    have offered := own.answering offer (List.mem_of_getElem? found)
    constructor
    · exact own.inbox
    · intro other member
      exact own.answering other (List.mem_of_mem_eraseIdx member)
    · intro answer member
      rcases List.mem_append.mp member with older | new
      · exact own.answers answer older
      · rw [List.mem_singleton.mp new]
        exact offered
    · intro message member
      rcases List.mem_append.mp member with older | new
      · rcases own.outbox message older with request | ⟨offer', sdp', answered, same⟩
        · exact .inl request
        · exact .inr ⟨offer', sdp', List.mem_append_left _ answered, same⟩
      · exact .inr ⟨offer, sdp, List.mem_append_right _ List.mem_cons_self, List.mem_singleton.mp new⟩
    · have none : [answerMessage browser.clientId sdp].countP isRequest = 0 := rfl
      simp only [List.countP_append, none]
      exact own.budget

theorem Own.close (own : Own session socket browser) : Own session socket browser.close where
  inbox message member := by cases member
  answering sdp member := by cases member
  answers := own.answers
  outbox message member := by cases member
  budget := (Nat.add_le_add_right (Nat.zero_le _) _).trans own.budget

theorem Own.arrive (own : Own session socket browser) {sdp : String} (offered : session.Offered socket sdp) :
    Own session socket (browser.arrive (Server.localDescription browser.clientId "offer" sdp)) := by
  unfold Browser.arrive
  split
  · refine { own with inbox := ?_ }
    intro message member
    rcases List.mem_append.mp member with older | new
    · exact own.inbox message older
    · exact ⟨sdp, List.mem_singleton.mp new, offered⟩
  · exact own

theorem onmessage_clientId (browser : Browser) (message : Json) :
    (browser.onmessage message).clientId = browser.clientId := by
  unfold Browser.onmessage
  split <;> rfl

theorem clientId_kept (browser : Browser) (index : Nat) (sdp : String) (message : Json) :
    browser.start.clientId = browser.clientId ∧ browser.receive.clientId = browser.clientId ∧
      (browser.sendAnswer index sdp).clientId = browser.clientId ∧
      (browser.arrive message).clientId = browser.clientId := by
  refine ⟨?_, ?_, ?_, ?_⟩
  · unfold Browser.start
    split <;> rfl
  · unfold Browser.receive
    split
    · rfl
    · exact onmessage_clientId browser _
  · unfold Browser.sendAnswer
    split <;> rfl
  · unfold Browser.arrive
    split <;> rfl

end Browsers

section Served

theorem post_silent {effects : List Effect} (silent : ∀ socket message, .send socket message ∉ effects)
    (browsers : List Browser) : effects.foldl Session.post browsers = browsers := by
  induction effects with
  | nil => rfl
  | cons effect effects ih =>
      rw [List.foldl_cons]
      have same : Session.post browsers effect = browsers := by
        cases effect with
        | send socket message => exact absurd List.mem_cons_self (silent socket message)
        | handled socket | threw text | remote pc call => rfl
      rw [same]
      exact ih fun socket message member => silent socket message (List.mem_cons_of_mem _ member)

theorem remoteEffects_silent (pc : Option Nat) (type : String) (message : Json) (socket : Nat) (text : Json) :
    .send socket text ∉ Server.remoteEffects rtc pc type message := by
  unfold Server.remoteEffects
  split <;> simp

/-- What a server step leaves to be shown, when the server says nothing to a browser. -/
theorem Negotiating.serve (negotiating : Negotiating session) {event : Event}
    (silent : ∀ socket message, .send socket message ∉ (session.server.step rtc event).2)
    (numbered : (session.server.step rtc event).1.sockets = session.server.sockets)
    (forOwn : ∀ (pc : Nat) (connection : Connection),
      (session.server.step rtc event).1.connections[pc]? = some connection →
        session.ids[connection.socket]? = some connection.id)
    (creating : ∀ handler ∈ (session.server.step rtc event).1.handlers,
      ∀ (id type : String) (message : Json), handler.stage = .create id type message →
        session.ids[handler.socket]? = some id ∧ type = "request")
    (queued : ∀ id ∈ (session.server.step rtc event).1.queue, ∃ (pc : Nat) (connection : Connection),
      (session.server.step rtc event).1.connections[pc]? = some connection ∧ connection.id = id ∧
        connection.terminated = true)
    (own : ∀ (socket : Nat) (browser : Browser), session.browsers[socket]? = some browser →
      Own session socket browser → Own (session.serve rtc event).1 socket browser) :
    Negotiating (session.serve rtc event).1 := by
  have browsers : (session.serve rtc event).1.browsers = session.browsers := post_silent silent _
  have ids : (session.serve rtc event).1.ids = session.ids := by rw [Session.ids, browsers, Session.ids]
  constructor
  · exact (numbered.trans negotiating.numbered).trans (congrArg List.length browsers).symm
  · rw [ids]
    exact negotiating.distinct
  · exact next_wellKeyed rtc session.server event negotiating.keyed
  · exact (next_owned_iff rtc session.server event negotiating.keyed negotiating.owned).mp
      (negotiating.ownEntry event)
  · rw [ids]
    exact forOwn
  · rw [ids]
    exact creating
  · exact queued
  · intro socket browser found
    rw [browsers] at found
    exact own socket browser found (negotiating.own socket browser found)

/-- A step that leaves connections and handlers alone. -/
theorem Negotiating.serve_apart (negotiating : Negotiating session) {event : Event}
    (silent : ∀ socket message, .send socket message ∉ (session.server.step rtc event).2)
    (numbered : (session.server.step rtc event).1.sockets = session.server.sockets)
    (connections : (session.server.step rtc event).1.connections = session.server.connections)
    (handlers : (session.server.step rtc event).1.handlers = session.server.handlers)
    (queue : (session.server.step rtc event).1.queue ⊆ session.server.queue) :
    Negotiating (session.serve rtc event).1 := by
  apply negotiating.serve silent numbered
  · rw [connections]
    exact negotiating.forOwn
  · rw [handlers]
    exact negotiating.creating
  · intro id member
    rw [connections]
    exact negotiating.queued id (queue member)
  · intro socket browser found own
    refine own.grows ⟨fun pc connection found => ⟨connection, ?_, rfl⟩, fun _ member => member⟩ (le_of_eq ?_)
    · exact (congrArg (·[pc]?) connections).trans found
    · change Multiset.count socket (session.server.step rtc event).1.spent = _
      rw [Server.spent, connections, handlers, Server.spent]

theorem Negotiating.runDispatched (negotiating : Negotiating session) :
    Negotiating (session.serve rtc .runDispatched).1 := by
  have step : (session.server.step rtc .runDispatched).1 = session.server.runDispatched := rfl
  apply negotiating.serve_apart
  · simp [Server.step]
  all_goals
    rw [step, Server.runDispatched]
    split
  · rfl
  · rfl
  · rfl
  · rfl
  · rfl
  · rfl
  · exact List.Subset.refl _
  · rename_i id queue head
    rw [head]
    exact List.subset_cons_self _ _

theorem Negotiating.closed (negotiating : Negotiating session) (socket : Nat) :
    Negotiating (session.serve rtc (.close socket)).1 := by
  apply negotiating.serve_apart
  · simp [Server.step]
  · rfl
  · rfl
  · rfl
  · exact List.Subset.refl _

theorem stateChange_frame (server : Server) (pc : Nat) (state : PeerState) :
    (server.stateChange pc state).sockets = server.sockets ∧
      (server.stateChange pc state).handlers = server.handlers ∧
      ∀ id ∈ (server.stateChange pc state).queue, id ∈ server.queue ∨
        state.terminal = true ∧ ∃ connection, server.connections[pc]? = some connection ∧
          connection.id = id := by
  unfold Server.stateChange
  split
  · exact ⟨rfl, rfl, fun id member => .inl member⟩
  · rename_i found
    split
    · rename_i terminal
      refine ⟨rfl, rfl, fun id member => ?_⟩
      rcases List.mem_append.mp member with older | new
      · exact .inl older
      · exact .inr ⟨terminal, _, found, (List.mem_singleton.mp new).symm⟩
    · exact ⟨rfl, rfl, fun id member => .inl member⟩

theorem stateChange_spent (server : Server) (pc : Nat) (state : PeerState) :
    (server.stateChange pc state).spent = server.spent := by
  have sockets : (server.stateChange pc state).connections.map Connection.socket =
      server.connections.map Connection.socket := by
    apply List.ext_getElem?
    intro index
    rw [List.getElem?_map, List.getElem?_map, stateChange_connections, Option.map_map]
    rfl
  rw [Server.spent, sockets, (stateChange_frame server pc state).2.1, Server.spent]

theorem Negotiating.stateChange (negotiating : Negotiating session) (pc : Nat) (state : PeerState) :
    Negotiating (session.serve rtc (.stateChange pc state)).1 := by
  obtain ⟨sockets, handlers, queue⟩ := stateChange_frame session.server pc state
  have connections := stateChange_connections session.server pc state
  have step : (session.server.step rtc (.stateChange pc state)).1 = session.server.stateChange pc state := rfl
  apply negotiating.serve
  · simp [Server.step]
  · exact sockets
  · intro index later found
    rw [step, connections] at found
    obtain ⟨before, here, rfl⟩ := Option.map_eq_some_iff.mp found
    exact negotiating.forOwn index before here
  · rw [step, handlers]
    exact negotiating.creating
  · intro id member
    rcases queue id member with older | ⟨terminal, connection, here, same⟩
    · obtain ⟨index, connection, here, same, terminated⟩ := negotiating.queued id older
      refine ⟨index, _, (connections index).trans (congrArg _ here), same, ?_⟩
      simp [terminated]
    · refine ⟨pc, _, (connections pc).trans (congrArg _ here), same, ?_⟩
      simp [terminal]
  · intro socket browser _ own
    refine own.grows ⟨fun index connection here => ?_, fun _ member => member⟩ (le_of_eq ?_)
    · exact ⟨_, (connections index).trans (congrArg _ here), rfl⟩
    · exact congrArg (Multiset.count socket) (stateChange_spent session.server pc state)

/-- A handler that returns is forgotten. -/
theorem Negotiating.handlerReturns (negotiating : Negotiating session) {index : Nat} {pc : Option Nat}
    (found : session.server.handlers[index]? = some ⟨socket, pc, .returning⟩) :
    Negotiating (session.serve rtc (.handler index)).1 := by
  have step : session.server.step rtc (.handler index) =
      ({ session.server with handlers := session.server.handlers.eraseIdx index }, []) := by
    simp only [Server.step, Server.handler, found]
  have spent : ({ session.server with handlers := session.server.handlers.eraseIdx index } : Server).spent =
      session.server.spent := by
    rw [Server.spent, Server.spent, ← held_eraseIdx found, Handler.creates, Multiset.coe_nil, add_zero]
  apply negotiating.serve
  · simp [step]
  · rw [step]
  · rw [step]
    exact negotiating.forOwn
  · rw [step]
    exact fun handler member => negotiating.creating handler (List.mem_of_mem_eraseIdx member)
  · rw [step]
    exact negotiating.queued
  · intro position browser _ own
    refine own.grows ⟨fun pc connection here => ⟨connection, ?_, rfl⟩, fun _ member => member⟩ (le_of_eq ?_)
    · rw [Session.serve, step]
      exact here
    · rw [Session.serve, step, spent]

/-- A handler creates the connection that its browser asked for. -/
theorem Negotiating.handlerCreates (negotiating : Negotiating session) {index : Nat} {pc : Option Nat}
    {id : String} {message : Json}
    (found : session.server.handlers[index]? = some ⟨socket, pc, .create id "request" message⟩) :
    Negotiating (session.serve rtc (.handler index)).1 := by
  have step : session.server.step rtc (.handler index) =
      ({ session.server.createPeerConnection socket id with
          handlers := session.server.handlers.set index
            ⟨socket, some session.server.connections.length, .returning⟩ }, []) := by
    simp only [Server.step, Server.handler, found]
    rfl
  obtain ⟨own, -⟩ := negotiating.creating _ (List.mem_of_getElem? found) id "request" message rfl
  have older {pc : Nat} {connection : Connection}
      (here : session.server.connections[pc]? = some connection) :
      (session.server.connections ++ [⟨id, socket, false⟩])[pc]? = some connection :=
    getElem?_concat_eq_some.mpr (.inl here)
  have spent : ({ session.server.createPeerConnection socket id with
      handlers := session.server.handlers.set index
        ⟨socket, some session.server.connections.length, .returning⟩ } : Server).spent =
      session.server.spent := by
    have moved : held Handler.creates (session.server.handlers.set index _) + [socket] =
        held Handler.creates session.server.handlers + 0 :=
      held_set found ⟨socket, some session.server.connections.length, .returning⟩
    rw [add_zero] at moved
    simp only [Server.spent, Server.createPeerConnection, List.map_append, ← Multiset.coe_add, ← moved]
    change _ + ([socket] : Multiset Nat) + _ = _
    abel
  apply negotiating.serve
  · simp [step]
  · rw [step]
    rfl
  · rw [step]
    intro pc connection here
    rcases getElem?_concat_eq_some.mp here with before | ⟨-, rfl⟩
    · exact negotiating.forOwn pc connection before
    · exact own
  · rw [step]
    intro handler member id' type message' stage
    rcases List.mem_or_eq_of_mem_set member with before | rfl
    · exact negotiating.creating handler before id' type message' stage
    · cases stage
  · rw [step]
    intro queued member
    obtain ⟨pc, connection, here, rest⟩ := negotiating.queued queued member
    exact ⟨pc, connection, older here, rest⟩
  · intro position browser _ own
    refine own.grows ⟨fun pc connection here => ⟨connection, ?_, rfl⟩, fun _ member => member⟩ (le_of_eq ?_)
    · rw [Session.serve, step]
      exact older here
    · rw [Session.serve, step, spent]

theorem Negotiating.handler (negotiating : Negotiating session) (index : Nat) :
    Negotiating (session.serve rtc (.handler index)).1 := by
  cases found : session.server.handlers[index]? with
  | none =>
      have same : session.server.handler rtc index = (session.server, []) := by
        rw [Server.handler, found]
      apply negotiating.serve_apart
      all_goals rw [Server.step, same]
      · simp
      · exact List.Subset.refl _
  | some handler =>
      obtain ⟨socket, pc, stage⟩ := handler
      cases stage with
      | returning => exact negotiating.handlerReturns found
      | create id type message =>
          obtain ⟨-, rfl⟩ := negotiating.creating _ (List.mem_of_getElem? found) id type message rfl
          exact negotiating.handlerCreates found

/-- The message of a browser starts a handler. -/
theorem Negotiating.handlerStarts (negotiating : Negotiating session) {event : Event} {handler : Handler}
    {effects : List Effect} (step : session.server.step rtc event =
      ({ session.server with handlers := session.server.handlers ++ [handler] }, effects))
    (silent : ∀ socket message, .send socket message ∉ effects)
    (creating : ∀ (id type : String) (message : Json), handler.stage = .create id type message →
      session.ids[handler.socket]? = some id ∧ type = "request")
    (room : ∀ browser, session.browsers[handler.socket]? = some browser →
      browser.outbox.countP isRequest + session.server.spent.count handler.socket +
        handler.creates.length ≤ if browser.started then 1 else 0) :
    Negotiating (session.serve rtc event).1 := by
  have spent : ({ session.server with handlers := session.server.handlers ++ [handler] } : Server).spent =
      session.server.spent + handler.creates := by
    rw [Server.spent, Server.spent, held_append, held_cons, held_nil, add_zero, add_assoc]
  apply negotiating.serve
  · rw [step]
    exact silent
  · rw [step]
  · rw [step]
    exact negotiating.forOwn
  · rw [step]
    intro other member
    rcases List.mem_append.mp member with older | new
    · exact negotiating.creating other older
    · rw [List.mem_singleton.mp new]
      exact creating
  · rw [step]
    exact negotiating.queued
  · intro position browser found own
    have budget : browser.outbox.countP isRequest +
        (session.server.spent + handler.creates).count position ≤ if browser.started then 1 else 0 := by
      rw [Multiset.count_add, ← Nat.add_assoc]
      by_cases here : position = handler.socket
      · subst here
        have most := Multiset.count_le_card handler.socket (handler.creates : Multiset Nat)
        rw [Multiset.coe_card] at most
        exact (Nat.add_le_add_left most _).trans (room browser found)
      · have elsewhere : (handler.creates : Multiset Nat).count position = 0 := by
          apply Multiset.count_eq_zero_of_notMem
          unfold Handler.creates
          split <;> simp [here]
        rw [elsewhere, Nat.add_zero]
        exact own.budget
    have grows : Grows session (session.serve rtc event).1 := by
      refine ⟨fun pc connection here => ⟨connection, ?_, rfl⟩, fun _ member => member⟩
      rw [Session.serve, step]
      exact here
    refine ⟨?_, ?_, ?_, own.outbox, ?_⟩
    · intro message member
      obtain ⟨sdp, same, offered⟩ := own.inbox message member
      exact ⟨sdp, same, grows.offered offered⟩
    · exact fun sdp member => grows.offered (own.answering sdp member)
    · exact fun answer member => grows.offered (own.answers answer member)
    · rw [Session.serve, step]
      exact spent.symm ▸ budget

theorem onMessage_request (rtc : Rtc) (server : Server) (id : String) :
    server.onMessage rtc (.text (.ok (requestMessage id))) =
      match server.clients.find? id with
      | some pc => ((some pc, .returning), [])
      | none => ((none, .create id "request" (requestMessage id)), []) := by
  have hasId : findString "id" (requestMessage id) = .ok (some id) := rfl
  have hasType : findString "type" (requestMessage id) = .ok (some "request") := rfl
  simp only [Server.onMessage, hasId, hasType]
  cases server.clients.find? id with
  | some pc => rfl
  | none => exact if_pos (.inr trivial)

theorem remoteEffects_answer (pc : Option Nat) (id sdp : String) :
    Server.remoteEffects rtc pc "answer" (answerMessage id sdp) =
      match rtc.description sdp "answer" with
      | .error text => [.threw text]
      | .ok () => [.remote pc (.setRemoteDescription sdp "answer")] := by
  have called : remoteCall rtc "answer" (answerMessage id sdp) =
      (rtc.description sdp "answer").bind fun _ => .ok (some (.setRemoteDescription sdp "answer")) := rfl
  rw [Server.remoteEffects, called]
  cases rtc.description sdp "answer" <;> rfl

theorem onMessage_answer (server : Server) (id sdp : String) :
    server.onMessage rtc (.text (.ok (answerMessage id sdp))) =
      ((server.clients.find? id, .returning),
        Server.remoteEffects rtc (server.clients.find? id) "answer" (answerMessage id sdp)) := by
  have hasId : findString "id" (answerMessage id sdp) = .ok (some id) := rfl
  have hasType : findString "type" (answerMessage id sdp) = .ok (some "answer") := rfl
  simp only [Server.onMessage, hasId, hasType]
  cases server.clients.find? id with
  | some pc => rfl
  | none => exact if_neg (by decide)

/-- The handler that a message of a browser starts. -/
theorem Negotiating.message (negotiating : Negotiating session) {message : Json}
    (found : session.browsers[socket]? = some browser)
    (own : message = requestMessage browser.clientId ∧
        browser.outbox.countP isRequest + session.server.spent.count socket + 1 ≤
          (if browser.started then 1 else 0) ∨
      ∃ sdp, message = answerMessage browser.clientId sdp) :
    Negotiating (session.serve rtc (.message socket (.text (.ok message)))).1 := by
  have budget := (negotiating.own socket browser found).budget
  by_cases locked : session.server.lock socket = true
  · have step {pc : Option Nat} {stage : Stage} {effects : List Effect}
        (result : session.server.onMessage rtc (.text (.ok message)) = ((pc, stage), effects)) :
        session.server.step rtc (.message socket (.text (.ok message))) =
          ({ session.server with handlers := session.server.handlers ++ [⟨socket, pc, stage⟩] },
            .handled socket :: effects) := by
      simp only [Server.step, Server.message, if_pos locked, result]
    have room {handler : Handler} (here : handler.socket = socket)
        (fits : browser.outbox.countP isRequest + session.server.spent.count socket +
          handler.creates.length ≤ if browser.started then 1 else 0) :
        ∀ other, session.browsers[handler.socket]? = some other →
          other.outbox.countP isRequest + session.server.spent.count handler.socket +
            handler.creates.length ≤ if other.started then 1 else 0 := by
      intro other foundOther
      rw [here] at foundOther ⊢
      obtain rfl := Option.some.inj (found.symm.trans foundOther)
      exact fits
    rcases own with ⟨rfl, fits⟩ | ⟨sdp, rfl⟩
    · have result := onMessage_request rtc session.server browser.clientId
      cases stored : session.server.clients.find? browser.clientId with
      | some pc =>
          rw [stored] at result
          exact negotiating.handlerStarts (step result) (by simp) (by rintro _ _ _ ⟨⟩) (room rfl budget)
      | none =>
          rw [stored] at result
          refine negotiating.handlerStarts (step result) (by simp) ?_ (room rfl fits)
          rintro _ _ _ ⟨⟩
          exact ⟨ids_found found, rfl⟩
    · refine negotiating.handlerStarts (step (onMessage_answer session.server browser.clientId sdp)) ?_
        (by rintro _ _ _ ⟨⟩) (room rfl budget)
      intro socket text member
      rcases List.mem_cons.mp member with same | later
      · cases same
      · exact remoteEffects_silent _ _ _ socket text later
  · have same : session.server.message rtc socket (.text (.ok message)) = (session.server, []) :=
      if_neg locked
    apply negotiating.serve_apart
    all_goals rw [Server.step, same]
    · simp
    · exact List.Subset.refl _

end Served

section Run

theorem Own.delivered (own : Own session socket browser) {message : Json} {outbox : List Json}
    (head : browser.outbox = message :: outbox) : Own session socket { browser with outbox } where
  inbox := own.inbox
  answering := own.answering
  answers := own.answers
  outbox later member := own.outbox later (head ▸ List.mem_cons_of_mem _ member)
  budget := by
    have fewer : outbox.countP isRequest ≤ browser.outbox.countP isRequest := by
      rw [head]
      exact (List.sublist_cons_self message outbox).countP_le
    exact (Nat.add_le_add_right fewer _).trans own.budget

/-- What the next message of a browser is, and what is left of the budget when it arrives. -/
theorem Own.next (own : Own session socket browser) {message : Json} {outbox : List Json}
    (head : browser.outbox = message :: outbox) :
    message = requestMessage browser.clientId ∧
        outbox.countP isRequest + session.server.spent.count socket + 1 ≤
          (if browser.started then 1 else 0) ∨
      ∃ offer sdp, (offer, sdp) ∈ browser.answers ∧ message = answerMessage browser.clientId sdp := by
  rcases own.outbox message (head ▸ List.mem_cons_self) with rfl | answer
  · refine .inl ⟨rfl, ?_⟩
    have budget := own.budget
    have one : isRequest (requestMessage browser.clientId) = true := rfl
    rw [head, List.countP_cons_of_pos one] at budget
    omega
  · exact .inr answer

theorem Negotiating.deliver (negotiating : Negotiating session) (index : Nat) :
    Negotiating (session.deliver rtc index).1 := by
  unfold Session.deliver
  split
  · rename_i clientId isOpen started inbox answering message outbox answers found
    have own := negotiating.own index _ found
    have popped : Negotiating (session.change index fun browser => { browser with outbox }) := by
      apply negotiating.change
      · exact fun browser => rfl
      · intro browser here ownBrowser
        obtain rfl := Option.some.inj (found.symm.trans here)
        exact ownBrowser.delivered rfl
    have foundPopped : (session.change index fun browser => { browser with outbox }).browsers[index]? =
        some ⟨clientId, isOpen, started, inbox, answering, outbox, answers⟩ := by
      simp only [Session.change, List.getElem?_modify, if_pos, found]
      rfl
    apply popped.message foundPopped
    rcases own.next rfl with request | ⟨offer, sdp, -, answer⟩
    · exact .inl request
    · exact .inr ⟨sdp, answer⟩
  · exact negotiating

theorem gathering_effects (server : Server) (pc : Nat) (type sdp : String) :
    server.gatheringComplete pc type sdp = [] ∨
      ∃ connection, server.connections[pc]? = some connection ∧
        server.gatheringComplete pc type sdp =
          [.send connection.socket (Server.localDescription connection.id type sdp)] := by
  unfold Server.gatheringComplete
  split
  · exact .inl rfl
  · rename_i found
    split
    · exact .inr ⟨_, found, rfl⟩
    · exact .inl rfl

/-- A connection has one more description. -/
theorem Negotiating.described (negotiating : Negotiating session) (description : Nat × String) :
    Negotiating { session with described := session.described ++ [description] } :=
  { negotiating with
    own := fun socket browser found => by
      refine (negotiating.own socket browser found).grows ⟨?_, ?_⟩ le_rfl
      · exact fun pc connection here => ⟨connection, here, rfl⟩
      · exact fun pair member => List.mem_append_left _ member }

theorem Negotiating.gatheringComplete (negotiating : Negotiating session) (pc : Nat) (sdp : String) :
    Negotiating (session.step rtc (.gatheringComplete pc sdp)).1 := by
  have described := negotiating.described (pc, sdp)
  by_cases made : pc < session.server.connections.length
  case neg =>
    simp only [Session.step, if_neg made]
    exact negotiating
  rcases gathering_effects session.server pc "offer" sdp with none | ⟨connection, found, sent⟩
  · simp only [Session.step, if_pos made, Session.serve, Server.step, none, List.foldl_nil]
    exact described
  · simp only [Session.step, if_pos made, Session.serve, Server.step, sent, List.foldl_cons,
      List.foldl_nil, Session.post]
    refine described.change (fun browser => (clientId_kept browser 0 "" _).2.2.2) ?_
    intro browser here own
    have same := (ids_found here).symm.trans (described.forOwn pc connection found)
    rw [← Option.some.inj same]
    exact own.arrive ⟨pc, connection, found, rfl, List.mem_append_right _ List.mem_cons_self⟩

theorem Negotiating.connect (negotiating : Negotiating session) {clientId : String}
    (fresh : clientId ∉ session.ids) : Negotiating (session.step rtc (.connect clientId)).1 := by
  have ids : (session.step rtc (.connect clientId)).1.ids = session.ids ++ [clientId] := by
    simp only [Session.step, Session.serve, Server.step, Session.ids, List.foldl_nil, List.map_append]
    rfl
  have older {index : Nat} {id : String} (found : session.ids[index]? = some id) :
      (session.step rtc (.connect clientId)).1.ids[index]? = some id := by
    rw [ids]
    exact getElem?_concat_eq_some.mpr (.inl found)
  have grows : Grows session (session.step rtc (.connect clientId)).1 :=
    ⟨fun _ connection found => ⟨connection, found, rfl⟩, fun _ member => member⟩
  constructor
  · simp only [Session.step, Session.serve, Server.step, Server.onClient, List.foldl_nil,
      List.length_append, List.length_cons, List.length_nil, negotiating.numbered]
  · rw [ids, ← List.concat_eq_append]
    exact negotiating.distinct.concat fresh
  · exact negotiating.keyed
  · exact negotiating.owned
  · exact fun pc connection found => older (negotiating.forOwn pc connection found)
  · intro handler member id type message stage
    obtain ⟨own, request⟩ := negotiating.creating handler member id type message stage
    exact ⟨older own, request⟩
  · exact negotiating.queued
  · intro socket browser found
    rcases getElem?_concat_eq_some.mp found with before | ⟨rfl, rfl⟩
    · exact (negotiating.own socket browser before).grows grows le_rfl
    · have unspent : session.browsers.length ∉ session.server.spent := by
        intro spent
        obtain ⟨id, inside⟩ := negotiating.spent_inside spent
        have bound := (List.getElem?_eq_some_iff.mp inside).1
        rw [Session.ids, List.length_map] at bound
        exact absurd bound (Nat.lt_irrefl _)
      refine ⟨?_, ?_, ?_, ?_, ?_⟩
      · exact fun message member => by cases member
      · exact fun sdp member => by cases member
      · exact fun answer member => by cases member
      · exact fun message member => by cases member
      · rw [Session.step, Session.serve]
        exact (Nat.zero_add _).trans_le (Multiset.count_eq_zero_of_notMem unspent).le

/-- The step lemma. -/
theorem Negotiating.next (rtc : Rtc) (session : Session) (move : Move) (fresh : FreshId session move)
    (negotiating : Negotiating session) : Negotiating (session.step rtc move).1 := by
  cases move with
  | connect clientId => exact negotiating.connect (fresh clientId rfl)
  | start index =>
      exact negotiating.change (fun browser => (clientId_kept browser 0 "" .null).1) fun _ _ own => own.start
  | deliver index => exact negotiating.deliver index
  | handler index => exact negotiating.handler index
  | gatheringComplete pc sdp => exact negotiating.gatheringComplete pc sdp
  | receive index =>
      exact negotiating.change (fun browser => (clientId_kept browser 0 "" .null).2.1) fun _ _ own => own.receive
  | sendAnswer index answer sdp =>
      exact negotiating.change (fun browser => (clientId_kept browser answer sdp .null).2.2.1)
        fun _ _ own => own.sendAnswer answer sdp
  | stateChange pc state =>
      change Negotiating (session.serve rtc (.stateChange pc state)).1
      exact negotiating.stateChange pc state
  | runDispatched =>
      change Negotiating (session.serve rtc .runDispatched).1
      exact negotiating.runDispatched
  | close index =>
      have gone : Negotiating (session.change index Browser.close) :=
        negotiating.change (fun browser => (rfl : browser.close.clientId = _)) fun _ _ own => own.close
      change Negotiating ((session.change index Browser.close).serve rtc (.close index)).1
      exact gone.closed index

theorem initial_negotiating : Negotiating Session.initial where
  numbered := rfl
  distinct := List.nodup_nil
  keyed := fun id pc found => by cases found
  owned := fun pc connection found => by cases found
  forOwn := fun pc connection found => by cases found
  creating := fun handler member => by cases member
  queued := fun id member => by cases member
  own := fun socket browser found => by cases found

end Run

end RcControl.Signalling
