import RcControl.Camera.Circulation

namespace RcControl.Camera

open RcControl.Data

/-! No buffer header is lost, and none is at two places. -/

variable {Payload : Type*} {state : Camcorder Payload} {main : Main Payload} {queue : Queue}
  {port : Port} {buffer : Buffer Payload}

section Ledger

theorem ledger_setQueue (state : Camcorder Payload) (queue : Queue) (fifo : Fifo (Buffer Payload)) :
    (state.setQueue queue fifo).ledger =
      Function.update state.ledger (.queue queue) (fifo.queue.map Buffer.header) := by
  funext place
  cases place with
  | queue other =>
      by_cases same : other = queue
      · subst same
        simp [Camcorder.ledger, Camcorder.setQueue]
      · simp [Camcorder.ledger, Camcorder.setQueue, same]
  | port port | hand => rfl

theorem ledger_setHeld (state : Camcorder Payload) (port : Port) (headers : List Header) :
    (state.setHeld port headers).ledger = Function.update state.ledger (.port port) headers := by
  funext place
  cases place with
  | port other =>
      by_cases same : other = port
      · subst same
        simp [Camcorder.ledger, Camcorder.setHeld]
      · simp [Camcorder.ledger, Camcorder.setHeld, same]
  | queue queue | hand => rfl

theorem ledger_goTo (state : Camcorder Payload) (main : Main Payload) :
    (state.goTo main).ledger = Function.update state.ledger .hand (main.hand.map Buffer.header) := by
  funext place
  cases place with
  | queue queue | port port | hand => rfl

theorem ledger_addOffered (state : Camcorder Payload) (port : Port) (buffer : Buffer Payload) :
    (state.addOffered port buffer).ledger = state.ledger := by
  funext place
  cases place with
  | queue queue | port port | hand => rfl

theorem ledger_addReturned (state : Camcorder Payload) (port : Port) (buffer : Buffer Payload) :
    (state.addReturned port buffer).ledger = state.ledger := by
  funext place
  cases place with
  | queue queue | port port | hand => rfl

end Ledger

section Moves

/-- `mmal_queue_get` moves the first header of a queue into the hands of the main loop. -/
theorem moves_get {rest : List (Buffer Payload)} (head : (state.queues queue).queue = buffer :: rest)
    (empty : state.main.hand = []) (full : main.hand = [buffer]) :
    Ledger.Moves state.ledger ((state.mmalQueueGet queue).goTo main).ledger (.queue queue) .hand
      buffer.header := by
  rw [ledger_goTo, Camcorder.mmalQueueGet, ledger_setQueue, Fifo.take_cons head]
  apply Ledger.Moves.of_perm (by simp)
  · simp [Camcorder.ledger, head]
  · simp [Camcorder.ledger, empty, full]
  · intro place notSource notTarget
    rw [Function.update_of_ne notTarget, Function.update_of_ne notSource]

/-- A header goes from the hands of the main loop into a queue, at whichever end. -/
theorem moves_put {fifo : Fifo (Buffer Payload)}
    (more : fifo.queue.Perm (buffer :: (state.queues queue).queue))
    (full : state.main.hand.map Buffer.header = [buffer.header]) (empty : main.hand = []) :
    Ledger.Moves state.ledger ((state.setQueue queue fifo).goTo main).ledger .hand (.queue queue)
      buffer.header := by
  rw [ledger_goTo, ledger_setQueue]
  apply Ledger.Moves.of_perm (by simp)
  · simp [Camcorder.ledger, full, empty]
  · simpa [Camcorder.ledger] using more.map Buffer.header
  · intro place notSource notTarget
    rw [Function.update_of_ne notSource, Function.update_of_ne notTarget]

/-- A successful send moves the header from the hands of the main loop to the port. -/
theorem moves_send (full : state.main.hand = [buffer]) (empty : main.hand = []) :
    Ledger.Moves state.ledger (((state.addOffered port buffer).setHeld port
      (state.held port ++ [buffer.header])).goTo main).ledger .hand (.port port) buffer.header := by
  rw [ledger_goTo, ledger_setHeld, ledger_addOffered]
  apply Ledger.Moves.of_perm (by simp)
  · simp [Camcorder.ledger, full, empty]
  · simp [Camcorder.ledger]
  · intro place notSource notTarget
    rw [Function.update_of_ne notSource, Function.update_of_ne notTarget]

/-- A callback moves the header from the port into a queue. -/
theorem moves_callback {header : Header} (held : header ∈ state.held port) (same : buffer.header = header)
    (given : Buffer Payload) :
    Ledger.Moves state.ledger (((state.setHeld port ((state.held port).erase header)).addReturned port
      given).mmalQueuePut queue buffer).ledger (.port port) (.queue queue) header := by
  subst same
  rw [Camcorder.mmalQueuePut, ledger_setQueue, ledger_addReturned, ledger_setHeld]
  apply Ledger.Moves.of_perm (by simp)
  · simpa [Camcorder.ledger] using List.perm_cons_erase held
  · simp [Camcorder.ledger, Fifo.push, Camcorder.addReturned, Camcorder.setHeld]
  · intro place notSource notTarget
    rw [Function.update_of_ne notTarget, Function.update_of_ne notSource]

end Moves

section Places

theorem source_mem_places (pool : Pool) (port : Port) :
    Place.queue port.source ∈ pool.places ↔ Place.port port ∈ pool.places := by
  cases pool <;> cases port <;> decide

/-- The pool that a port is fed from is the pool of the queue its callback fills. -/
theorem userdata_mem_places (pool : Pool) :
    (Place.port .videoPort ∈ pool.places → Place.queue .encoderIn ∈ pool.places) ∧
      (Place.port .encoderOutput ∈ pool.places → Place.queue .encoderOut ∈ pool.places) := by
  cases pool <;> decide

theorem pool_mem_places (pool : Pool) : Place.queue (.pool pool) ∈ pool.places := by
  cases pool <;> decide

theorem hand_mem_places (pool : Pool) : Place.hand ∈ pool.places := by
  cases pool <;> decide

end Places

def allHeaders (headersNum : Pool → Nat) : List Header :=
  Pool.encoderIn.headers (headersNum .encoderIn) ++ Pool.encoderOut.headers (headersNum .encoderOut)

/-- A header on its way to a port belongs to the pool that the port is fed from. -/
def Main.Handed : Main Payload → Prop
  | .sending port buffer _ | .puttingBack port buffer _ => .port port ∈ buffer.header.pool.places
  | .top | .fill _ | .get _ | .process | .passing _ | .releasing _ | .stopped => True

structure Conserved (headersNum : Pool → Nat) (state : Camcorder Payload) : Prop where
  whole : Ledger.total state.ledger = allHeaders headersNum
  placed : ∀ place, ∀ header ∈ state.ledger place, place ∈ header.pool.places
  handed : state.main.Handed

section Step

variable {headersNum : Pool → Nat} {after : Camcorder Payload}

theorem Conserved.moves (conserved : Conserved headersNum state) {source target : Place}
    {header : Header} (moves : Ledger.Moves state.ledger after.ledger source target header)
    (allowed : target ∈ header.pool.places) (handed : after.main.Handed) :
    Conserved headersNum after where
  whole := (Ledger.total_moves moves).trans conserved.whole
  placed := by
    intro place other member
    rcases moves.mem member with earlier | ⟨same, arrived⟩
    · exact conserved.placed place other earlier
    · rw [same, arrived]
      exact allowed
  handed := handed

theorem Conserved.stays (conserved : Conserved headersNum state) (same : after.ledger = state.ledger)
    (handed : after.main.Handed) : Conserved headersNum after where
  whole := same ▸ conserved.whole
  placed := same ▸ conserved.placed
  handed := handed

theorem ledger_sameHand {origin : Main Payload} (here : state.main = origin)
    (same : main.hand = origin.hand) : (state.goTo main).ledger = state.ledger := by
  rw [ledger_goTo, same, ← here]
  exact Function.update_eq_self Place.hand state.ledger

theorem Conserved.goTo (conserved : Conserved headersNum state) {origin : Main Payload}
    (here : state.main = origin) (same : main.hand = origin.hand) (handed : main.Handed) :
    Conserved headersNum (state.goTo main) :=
  conserved.stays (ledger_sameHand here same) handed

theorem afterFill_hand (port : Port) : (port.afterFill : Main Payload).hand = [] := by
  cases port <;> rfl

theorem afterSend_hand (port : Port) : (port.afterSend : Main Payload).hand = [] := by
  cases port <;> rfl

theorem afterFill_handed (port : Port) : (port.afterFill : Main Payload).Handed := by
  cases port <;> trivial

theorem afterSend_handed (port : Port) : (port.afterSend : Main Payload).Handed := by
  cases port <;> trivial

theorem head_mem_ledger {rest : List (Buffer Payload)}
    (head : (state.queues queue).queue = buffer :: rest) :
    buffer.header ∈ state.ledger (.queue queue) := by
  rw [Camcorder.ledger, head]
  exact List.mem_cons_self

theorem mainStep_conserved (conserved : Conserved headersNum state) (stop sent : Bool) :
    Conserved headersNum (state.mainStep stop sent) := by
  have handed := conserved.handed
  cases here : state.main with
  | top =>
      simp only [Camcorder.mainStep, here]
      split <;> exact conserved.goTo here rfl trivial
  | fill port =>
      simp only [Camcorder.mainStep, here]
      split
      · exact conserved.goTo here rfl trivial
      · exact conserved.goTo here (afterFill_hand port) (afterFill_handed port)
  | get port =>
      simp only [Camcorder.mainStep, here]
      split
      · exact conserved.goTo here (afterSend_hand port) (afterSend_handed port)
      · rename_i buffer rest head
        have place := conserved.placed _ _ (head_mem_ledger head)
        have toPort := (source_mem_places _ port).mp place
        exact conserved.moves (moves_get head (by rw [here]; rfl) rfl) (hand_mem_places _) toPort
  | sending port buffer before =>
      rw [here] at handed
      simp only [Camcorder.mainStep, here]
      split
      · exact conserved.moves (moves_send (by rw [here]; rfl) (afterSend_hand port)) handed
          (afterSend_handed port)
      · have kept : (state.goTo (.puttingBack port buffer before)).ledger = state.ledger :=
          ledger_sameHand here rfl
        exact conserved.stays kept handed
  | puttingBack port buffer before =>
      rw [here] at handed
      simp only [Camcorder.mainStep, here]
      exact conserved.moves (moves_put (List.Perm.refl _) (by rw [here]; rfl) rfl)
        ((source_mem_places _ port).mpr handed) trivial
  | process =>
      simp only [Camcorder.mainStep, here]
      split
      · exact conserved.goTo here rfl trivial
      · rename_i buffer rest head
        exact conserved.moves (moves_get head (by rw [here]; rfl) rfl) (hand_mem_places _) trivial
  | passing buffer =>
      simp only [Camcorder.mainStep, here]
      have kept : (state.goTo (.releasing buffer)).ledger = state.ledger :=
        ledger_sameHand here rfl
      exact conserved.stays kept trivial
  | releasing buffer =>
      simp only [Camcorder.mainStep, here]
      have appended : ((state.queues (.pool buffer.header.pool)).push buffer.header.reset).queue.Perm
          (buffer.header.reset :: (state.queues (.pool buffer.header.pool)).queue) :=
        List.perm_append_singleton _ _
      exact conserved.moves (moves_put appended (by rw [here]; rfl) rfl) (pool_mem_places _) trivial
  | stopped =>
      simp only [Camcorder.mainStep, here]
      exact conserved

theorem callback_conserved (conserved : Conserved headersNum state) (port : Port) (header : Header)
    (payload : Payload) : Conserved headersNum (state.next (.callback port header payload)) := by
  simp only [Camcorder.next]
  split
  · rename_i held
    have place := conserved.placed (.port port) header held
    have move : ∀ queue buffer, buffer.header = header → Place.queue queue ∈ header.pool.places →
        Conserved headersNum (((state.setHeld port ((state.held port).erase header)).addReturned port
          ⟨header, some payload⟩).mmalQueuePut queue buffer) :=
      fun queue buffer same allowed =>
        conserved.moves (moves_callback held same _) allowed conserved.handed
    cases port with
    | videoPort =>
        exact move .encoderIn ⟨header, some payload⟩ rfl ((userdata_mem_places _).1 place)
    | encoderOutput =>
        exact move .encoderOut ⟨header, some payload⟩ rfl ((userdata_mem_places _).2 place)
    | encoderInput => exact move (.pool header.pool) header.reset rfl (pool_mem_places _)
  · exact conserved

theorem next_conserved (state : Camcorder Payload) (event : Event Payload)
    (conserved : Conserved headersNum state) : Conserved headersNum (state.next event) := by
  cases event with
  | main stop sent => exact mainStep_conserved conserved stop sent
  | callback port header payload => exact callback_conserved conserved port header payload

theorem initial_pool (headersNum : Pool → Nat) (pool : Pool) :
    (Camcorder.initial Payload headersNum).ledger (.queue (.pool pool)) =
      pool.headers (headersNum pool) := by
  simp only [Camcorder.ledger, Camcorder.initial, Fifo.filled, List.map_map]
  exact List.map_id _

theorem initial_elsewhere (headersNum : Pool → Nat) {place : Place}
    (elsewhere : ∀ pool, place ≠ .queue (.pool pool)) :
    (Camcorder.initial Payload headersNum).ledger place = [] := by
  cases place with
  | queue queue =>
      cases queue with
      | pool pool => exact absurd rfl (elsewhere pool)
      | encoderIn | encoderOut => rfl
  | port port | hand => rfl

theorem mem_headers {pool : Pool} {count : Nat} {header : Header} :
    header ∈ pool.headers count ↔ header.pool = pool ∧ header.number < count := by
  obtain ⟨own, number⟩ := header
  simp only [Pool.headers, List.mem_map, List.mem_range, Header.mk.injEq]
  apply Iff.intro
  · intro found
    obtain ⟨_, below, same, rfl⟩ := found
    exact ⟨same.symm, below⟩
  · intro found
    obtain ⟨same, below⟩ := found
    exact ⟨number, below, same.symm, rfl⟩

theorem initial_conserved (Payload : Type*) (headersNum : Pool → Nat) :
    Conserved headersNum (Camcorder.initial Payload headersNum) where
  whole := by
    let pools : Finset Place := {.queue (.pool .encoderIn), .queue (.pool .encoderOut)}
    have outside : ∀ place ∈ Finset.univ, place ∉ pools →
        ((Camcorder.initial Payload headersNum).ledger place : Multiset Header) = 0 := by
      intro place _ outside
      rw [initial_elsewhere headersNum]
      · rfl
      · intro pool same
        subst same
        cases pool <;> simp [pools] at outside
    rw [Ledger.total, ← Finset.sum_subset (Finset.subset_univ pools) outside,
      Finset.sum_pair (by decide), initial_pool, initial_pool]
    rfl
  placed := by
    intro place header member
    by_cases inPool : ∃ pool, place = .queue (.pool pool)
    · obtain ⟨pool, rfl⟩ := inPool
      rw [initial_pool, mem_headers] at member
      rw [member.1]
      exact pool_mem_places pool
    · rw [initial_elsewhere headersNum (not_exists.mp inPool)] at member
      cases member
  handed := trivial

theorem nodup_allHeaders (headersNum : Pool → Nat) : (allHeaders headersNum).Nodup := by
  have nodup : ∀ pool : Pool, (pool.headers (headersNum pool)).Nodup := fun pool =>
    List.nodup_range.map fun _ _ same => congrArg Header.number same
  apply (nodup .encoderIn).append (nodup .encoderOut)
  intro header inside outside
  have same := (mem_headers.mp inside).1.symm.trans (mem_headers.mp outside).1
  cases same

theorem mem_allHeaders {headersNum : Pool → Nat} {header : Header} :
    header ∈ allHeaders headersNum ↔ header ∈ header.pool.headers (headersNum header.pool) := by
  obtain ⟨pool, number⟩ := header
  rw [allHeaders, List.mem_append]
  cases pool <;> simp [mem_headers]

end Step

end RcControl.Camera
