import RcControl.Camera.CircuitRuns

namespace RcControl.Camera

open RcControl.Data RcControl.Mmal

/-! One call of `fill_port_from_pool`, with the callbacks that come in between.

The callback of the encoder's input releases headers into the pool that the loop drains, so
the pool's queue may grow meanwhile.  A header that has been sent does not come back before
the call ends: its port returns it into another queue, and the main loop takes from none. -/

/-- The main loop is in a call for the port. -/
def Loop.InCall (port : Port) : Loop → Prop
  | .testing own | .getting own | .sending own _ | .puttingBack own _ => own = port
  | .creating _ | .adding _ _ | .top | .processing | .passing _ | .releasing _ | .stopped => False

instance (port : Port) : DecidablePred (Loop.InCall port)
  | .testing own | .getting own | .sending own _ | .puttingBack own _ =>
      inferInstanceAs (Decidable (own = port))
  | .creating _ | .adding _ _ | .top | .processing | .passing _ | .releasing _ | .stopped => .isFalse id

/-- The call ends with the queue's length read as zero, or with a send that failed and its
header back at the head of the queue. -/
inductive Leaves (port : Port) (before after : Circuit) : Prop where
  | emptied (here : before.main = .testing port)
      (empty : before.callers.stage .mainLoop = some (.returnedLength 0))
      (next : after = before.afterFill port)
  | refused {header : Header} (here : before.main = .puttingBack port header)
      (last : (before.offered port).getLast? = some header)
      (back : (after.callers.queues port.source).list.first = some header) (next : after.main = .stopped)

/-- The headers that a port has been sent since, with success or not. -/
def Circuit.Sent (headersNum : Pool → Nat) (port : Port) (pool : Pool) (offered : List Header)
    (state : Circuit) : Prop :=
  ∃ sends, state.offered port = offered ++ sends ∧ sends.Nodup ∧ sends.length ≤ headersNum pool

section Places

variable {port : Port} {pool : Pool} {header : Header}

theorem returnsTo_ne_source (feeds : port.source = .pool pool) (header : Header) :
    port.returnsTo header ≠ port.source := by
  cases port with
  | videoPort | encoderOutput => simp [Port.returnsTo, Port.source]
  | encoderInput => cases feeds

/-- A header at the port, or back from it, is of the pool the port is fed from. -/
theorem pool_of_place (feeds : port.source = .pool pool)
    (place : Place.port port ∈ header.pool.places ∨
      Place.queue (port.returnsTo header) ∈ header.pool.places) : header.pool = pool := by
  obtain ⟨own, number⟩ := header
  cases port with
  | videoPort =>
      cases feeds
      cases own with
      | encoderIn => rfl
      | encoderOut => simp [Port.returnsTo, Pool.places] at place
  | encoderOutput =>
      cases feeds
      cases own with
      | encoderIn => simp [Port.returnsTo, Pool.places] at place
      | encoderOut => rfl
  | encoderInput => cases feeds

end Places

/-- How far the call is: the headers it has sent with success. -/
def Circuit.At (state : Circuit) (port : Port) (offered gone : List Header) : Prop :=
  match state.main with
  | .testing own | .getting own | .sending own _ => own = port ∧ state.offered port = offered ++ gone
  | .puttingBack own header => own = port ∧ state.offered port = offered ++ (gone ++ [header])
  | .creating _ | .adding _ _ | .top | .processing | .passing _ | .releasing _ | .stopped => False

/-- A header has been sent and is still at the port, or has been returned by it. -/
def Circuit.Gone (state : Circuit) (contents : Queue → List Header) (port : Port) (header : Header) :
    Prop :=
  header ∈ state.ledger contents (.port port) ∨
    header ∈ state.ledger contents (.queue (port.returnsTo header))

structure Filling (headersNum : Pool → Nat) (port : Port) (offered gone : List Header)
    (passed : Queue → Multiset Header) (contents : Queue → List Header) (state : Circuit) : Prop where
  stands : state.Stands headersNum passed contents
  here : state.At port offered gone
  away : ∀ header ∈ gone, state.Gone contents port header
  distinct : gone.Nodup
  /-- A header that is put back is on its way to the head of the queue, or there. -/
  back : ∀ header, state.main = .puttingBack port header →
    ∃ stage, state.callers.stage .mainLoop = some stage ∧
      (stage.carries = [header] ∨ (contents port.source).head? = some header)

variable {headersNum : Pool → Nat} {port : Port} {pool : Pool} {offered gone : List Header}
  {passed : Queue → Multiset Header} {contents : Queue → List Header} {state : Circuit} {caller : Caller}
  {queue : Queue} {thread : Nat} {call : Call Header} {stage : Mmal.Thread Header} {header : Header}

section Bounds

theorem Circuit.At.inCall (at_ : state.At port offered gone) : state.main.InCall port := by
  rw [Circuit.At] at at_
  cases here : state.main with
  | testing own | getting own | sending own header | puttingBack own header =>
      rw [here] at at_
      exact at_.1
  | creating left | adding header left | top | processing | passing header | releasing header | stopped =>
      rw [here] at at_
      exact at_

theorem Circuit.Stands.mem_headers (stands : state.Stands headersNum passed contents) {place : Place}
    (here : header ∈ state.ledger contents place) :
    header ∈ header.pool.headers (headersNum header.pool) := by
  have member : header ∈ Ledger.total (state.ledger contents) := Ledger.mem_total.mpr ⟨place, here⟩
  rw [stands.whole] at member
  exact mem_allHeaders.mp member

/-- Headers that are gone are of the pool. -/
theorem Circuit.Gone.mem_pool (feeds : port.source = .pool pool)
    (stands : state.Stands headersNum passed contents) (gone : state.Gone contents port header) :
    header ∈ pool.headers (headersNum pool) := by
  rcases gone with held | returned
  · rw [← pool_of_place feeds (.inl (stands.placed _ _ held))]
    exact stands.mem_headers held
  · rw [← pool_of_place feeds (.inr (stands.placed _ _ returned))]
    exact stands.mem_headers returned

theorem length_le_of_headers {headers : List Header} (distinct : headers.Nodup)
    (inside : ∀ header ∈ headers, header ∈ pool.headers (headersNum pool)) :
    headers.length ≤ headersNum pool := by
  have size := distinct.length_le_of_subset inside
  rwa [Pool.headers, List.length_map, List.length_range] at size

/-- A header that is in hand, or back in the queue, is none of those that are gone. -/
theorem Filling.not_mem_gone (feeds : port.source = .pool pool)
    (filling : Filling headersNum port offered gone passed contents state) {place : Place}
    (here : header ∈ state.ledger contents place) (kept : place = .hand ∨ place = .queue port.source) :
    header ∉ gone := by
  intro member
  rcases filling.away header member with held | returned
  · have same := filling.stands.unique here held
    rcases kept with rfl | rfl <;> cases same
  · have same := filling.stands.unique here returned
    rcases kept with rfl | rfl
    · cases same
    · exact returnsTo_ne_source feeds header (Place.queue.inj same)

theorem Filling.distinct_concat (feeds : port.source = .pool pool)
    (filling : Filling headersNum port offered gone passed contents state) {place : Place}
    (here : header ∈ state.ledger contents place) (kept : place = .hand ∨ place = .queue port.source)
    (handed : .port port ∈ header.pool.places) :
    (gone ++ [header]).Nodup ∧ (gone ++ [header]).length ≤ headersNum pool := by
  have distinct : (gone ++ [header]).Nodup := by
    rw [← List.concat_eq_append]
    exact filling.distinct.concat (filling.not_mem_gone feeds here kept)
  refine ⟨distinct, length_le_of_headers distinct ?_⟩
  intro other member
  rcases List.mem_append.mp member with sent | last
  · exact (filling.away other sent).mem_pool feeds filling.stands
  · obtain rfl := List.mem_singleton.mp last
    rw [← pool_of_place feeds (.inl handed)]
    exact filling.stands.mem_headers here

/-- A header that is to be sent is in hand, and of the port's pool. -/
theorem Filling.inHand (filling : Filling headersNum port offered gone passed contents state)
    (here : state.main = .sending port header) :
    header ∈ state.ledger contents .hand ∧ .port port ∈ header.pool.places := by
  have inHand : header ∈ state.hand := by
    rw [Circuit.hand, here]
    exact List.mem_cons_self
  exact ⟨inHand, filling.stands.handed port (.inr ⟨header, here⟩) header inHand⟩

theorem offered_concat (sends : state.offered port = offered ++ gone) :
    (state.addOffered port header).offered port = offered ++ (gone ++ [header]) := by
  rw [← List.append_assoc, ← sends]
  exact Function.update_self _ _ _

theorem Filling.back_stored (filling : Filling headersNum port offered gone passed contents state)
    (here : state.main = .puttingBack port header) : header ∈ state.ledger contents (.queue port.source) := by
  obtain ⟨stage, at_, carries | head⟩ := filling.back header here
  · obtain ⟨thread, called⟩ :=
      filling.stands.called _ _ (show state.main.expects = some _ from congrArg Loop.expects here)
    rw [Callers.stage_eq called] at at_
    exact stored_of_carries at_ (carries ▸ List.mem_cons_self)
  · exact List.mem_append_right _ (List.mem_of_head? head)

theorem Filling.sent (feeds : port.source = .pool pool)
    (filling : Filling headersNum port offered gone passed contents state) :
    state.Sent headersNum port pool offered := by
  have at_ := filling.here
  have room : gone.length ≤ headersNum pool :=
    length_le_of_headers filling.distinct fun other member =>
      (filling.away other member).mem_pool feeds filling.stands
  rw [Circuit.At] at at_
  cases here : state.main with
  | testing own | getting own | sending own header =>
      rw [here] at at_
      exact ⟨gone, at_.2, filling.distinct, room⟩
  | puttingBack own header =>
      rw [here] at at_
      obtain ⟨rfl, sends⟩ := at_
      have stored := filling.back_stored here
      have handed := (source_mem_places _ _).mp (filling.stands.placed _ _ stored)
      obtain ⟨distinct, more⟩ := filling.distinct_concat feeds stored (.inr rfl) handed
      exact ⟨gone ++ [header], sends, distinct, more⟩
  | creating left | adding header left | top | processing | passing header | releasing header | stopped =>
      rw [here] at at_
      exact at_.elim

end Bounds

section Steps

theorem head_of_puts {headers : List Header} {first : Header} (puts : stage.Puts .back header)
    (head : headers.head? = some first) : (stage.changes headers).head? = some first := by
  cases stage with
  | tail side own =>
      obtain ⟨rfl, rfl⟩ := puts
      obtain ⟨rest, rfl⟩ := List.head?_eq_some_iff.mp head
      rfl
  | getNext own => cases puts
  | _ => exact head

theorem head_of_putBack {headers : List Header} {own : Mmal.Queue Header} (puts : stage.Puts .front header)
    (kept : stage.carries = [header] ∨ headers.head? = some header) :
    (stage.next own).carries = [header] ∨ (stage.changes headers).head? = some header := by
  cases stage with
  | lock side buffer =>
      refine kept.imp (fun carries => ?_) id
      rw [Mmal.Thread.next]
      split <;> exact carries
  | count side buffer | link side buffer | splice side buffer => exact kept
  | tail side buffer =>
      obtain ⟨rfl, rfl⟩ := puts
      exact .inr rfl
  | post | unlock => exact kept.imp (fun carries => by cases carries) id
  | returned result => exact kept
  | _ => cases puts

/-- Only the main loop takes headers off a queue, and in a call it takes them off the pool's. -/
theorem Filling.gone_step (feeds : port.source = .pool pool)
    (filling : Filling headersNum port offered gone passed contents state)
    (called : state.callers.calls caller = some (queue, thread, call))
    (found : (state.callers.queues queue).threads[thread]? = some stage)
    (away : state.Gone contents port header) :
    (state.stepOf caller).Gone (stepped contents queue stage) port header := by
  have stands := filling.stands
  by_cases got : ∃ buffer, stage = .getNext buffer
  · obtain ⟨buffer, rfl⟩ := got
    have moves := moves_got stands called found
    obtain ⟨rfl, where_⟩ := stands.getter called found
    obtain rfl : queue = port.source := by
      have inCall := filling.here.inCall
      rcases where_ with ⟨own, here, rfl⟩ | ⟨here, -⟩
      · rw [here] at inCall
        exact congrArg Port.source inCall
      · rw [here] at inCall
        exact inCall.elim
    rcases away with held | returned
    · rcases moves.mem_before held with later | ⟨-, same⟩
      · exact .inl later
      · cases same
    · rcases moves.mem_before returned with later | ⟨-, same⟩
      · exact .inr later
      · exact absurd (Place.queue.inj same) (returnsTo_ne_source feeds header)
  · have quiet : ∀ buffer, stage ≠ .getNext buffer := fun buffer same => got ⟨buffer, same⟩
    have perm := ledger_quiet stands called found quiet
    exact away.imp (fun held => (perm _).symm.subset held) fun returned => (perm _).symm.subset returned

theorem Filling.step (feeds : port.source = .pool pool)
    (filling : Filling headersNum port offered gone passed contents state)
    (called : state.callers.calls caller = some (queue, thread, call))
    (found : (state.callers.queues queue).threads[thread]? = some stage) :
    Filling headersNum port offered gone passed (stepped contents queue stage) (state.stepOf caller) where
  stands := filling.stands.step called found
  here := filling.here
  away := fun header member => filling.gone_step feeds called found (filling.away header member)
  distinct := filling.distinct
  back := by
    intro header here
    obtain ⟨stage', at_, kept⟩ := filling.back header here
    cases caller with
    | mainLoop =>
        obtain ⟨stage'', found', reaches⟩ := filling.stands.sound.reaches _ _ _ _ called
        obtain rfl := Option.some.inj (found.symm.trans found')
        obtain ⟨thread', called'⟩ :=
          filling.stands.called _ _ (show state.main.expects = some _ from congrArg Loop.expects here)
        cases called.symm.trans called'
        rw [Callers.stage_eq called, found] at at_
        obtain rfl := Option.some.inj at_
        refine ⟨_, Callers.step_stage_self called found, ?_⟩
        rw [stepped, Function.update_self]
        exact head_of_putBack reaches kept
    | callback other =>
        refine ⟨stage', (stepOf_stage_other filling.stands (by simp)).trans at_, kept.imp id fun head => ?_⟩
        rw [stepped]
        by_cases same : port.source = queue
        · subst same
          rw [Function.update_self]
          exact head_of_puts (filling.stands.puts called found) head
        · rw [Function.update_of_ne same]
          exact head

theorem Filling.stepOf (feeds : port.source = .pool pool)
    (filling : Filling headersNum port offered gone passed contents state) (caller : Caller) :
    ∃ contents, Filling headersNum port offered gone passed contents (state.stepOf caller) := by
  rcases filling.stands.stepOf_cases caller with same | ⟨queue, thread, call, stage, called, found⟩
  · rw [same]
    exact ⟨contents, filling⟩
  · exact ⟨_, filling.step feeds called found⟩

theorem Filling.returned (filling : Filling headersNum port offered gone passed contents state)
    (from_ : Port) (other : Header) :
    ∃ passed, Filling headersNum port offered gone passed contents (state.next (.returns from_ other)) := by
  by_cases held : other ∈ state.held from_
  · obtain ⟨passed, stands⟩ := filling.stands.returned held
    have moves := moves_returned filling.stands held
    refine ⟨passed, stands, ?_, ?_, filling.distinct, ?_⟩
    · rw [Circuit.At, main_returned, offered_returned]
      exact filling.here
    · intro header member
      rcases filling.away header member with atPort | back
      · rcases moves.mem_before atPort with later | ⟨rfl, same⟩
        · exact .inl later
        · cases same
          exact .inr (moves.arrived (by simp))
      · rcases moves.mem_before back with later | ⟨-, same⟩
        · exact .inr later
        · cases same
    · intro header here
      rw [main_returned] at here
      obtain ⟨stage, at_, kept⟩ := filling.back header here
      refine ⟨stage, ?_, kept⟩
      rw [callers_returned held, filling.stands.sound.enter_stage_other (by simp)]
      exact at_
  · rw [Circuit.next, if_neg held]
    exact ⟨passed, filling⟩

end Steps

section Main

/-- The steps of the main loop between the functions of the queue. -/
inductive Circuit.Goes (port : Port) (state : Circuit) : Circuit → Prop where
  | gets {length : Nat} (here : state.main = .testing port)
      (read : state.callers.stage .mainLoop = some (.returnedLength (length + 1))) :
      Goes port state (state.sendBufferFromQueue port)
  | ends (here : state.main = .testing port)
      (read : state.callers.stage .mainLoop = some (.returnedLength 0)) :
      Goes port state (state.afterFill port)
  | repeats (here : state.main = .getting port)
      (got : state.callers.stage .mainLoop = some (.returned none)) : Goes port state (state.fill port)
  | got {header : Header} (here : state.main = .getting port)
      (got : state.callers.stage .mainLoop = some (.returned (some header))) :
      Goes port state (state.goTo (.sending port header))
  | sent {header : Header} (here : state.main = .sending port header) :
      Goes port state (((state.addOffered port header).setHeld port (state.held port ++ [header])).fill port)
  | refused {header : Header} (here : state.main = .sending port header) :
      Goes port state
        ((state.addOffered port header).calls port.source (.putBack header) (.puttingBack port header))
  | stops {header : Header} (here : state.main = .puttingBack port header) :
      Goes port state (state.goTo .stopped)

/-- The length has been read. -/
theorem Circuit.Stands.read (stands : state.Stands headersNum passed contents)
    (idle : state.callers.busy .mainLoop = false) (here : state.main = .testing port) :
    state.callers.stage .mainLoop = some (.returnedLength (state.callers.lengthRead .mainLoop)) := by
  obtain ⟨stage, at_, done, reaches⟩ :=
    stands.done idle (show state.main.expects = some _ from congrArg Loop.expects here)
  rcases reaches with rfl | ⟨length, rfl⟩
  · cases done
  · rw [Callers.lengthRead, at_]

theorem afterSend_eq (feeds : port.source = .pool pool) : state.afterSend port = state.fill port := by
  cases port with
  | videoPort | encoderOutput => rfl
  | encoderInput => cases feeds

theorem Circuit.Stands.goes (feeds : port.source = .pool pool)
    (stands : state.Stands headersNum passed contents) (idle : state.callers.busy .mainLoop = false)
    (inCall : state.main.InCall port) (stop sent : Bool) : state.Goes port (state.goOn stop sent) := by
  cases here : state.main with
  | testing own =>
      rw [here] at inCall
      obtain rfl : own = port := inCall
      have read := stands.read idle here
      simp only [Circuit.goOn, here]
      cases length : state.callers.lengthRead .mainLoop with
      | zero =>
          rw [length] at read
          exact .ends here read
      | succ count =>
          rw [length] at read
          exact .gets here read
  | getting own =>
      rw [here] at inCall
      obtain rfl : own = port := inCall
      have stage := stands.got idle (show state.main.expects = some _ from congrArg Loop.expects here)
      simp only [Circuit.goOn, here]
      cases got : state.callers.headerGot .mainLoop with
      | none =>
          rw [got] at stage
          rw [afterSend_eq feeds]
          exact .repeats here stage
      | some header =>
          rw [got] at stage
          exact .got here stage
  | sending own header =>
      rw [here] at inCall
      obtain rfl : own = port := inCall
      simp only [Circuit.goOn, here]
      split
      · rw [afterSend_eq feeds]
        exact .sent here
      · exact .refused here
  | puttingBack own header =>
      rw [here] at inCall
      obtain rfl : own = port := inCall
      simp only [Circuit.goOn, here]
      exact .stops here
  | creating left | adding header left | top | processing | passing header | releasing header | stopped =>
      rw [here] at inCall
      exact inCall.elim

/-- Others put behind the header that is back. -/
theorem Filling.first_eq (filling : Filling headersNum port offered gone passed contents state)
    (idle : state.callers.busy .mainLoop = false) (head : (contents port.source).head? = some header) :
    (state.callers.queues port.source).list.first = some header := by
  refine (filling.stands.sound.queues port.source).first_eq head ?_
  intro index stage owned found
  have inside := ((filling.stands.sound.queues port.source).guarded.inside_iff found).mpr owned
  obtain ⟨party, call, called⟩ := filling.stands.sound.live _ _ _ found (running_of_inside inside)
  cases party with
  | mainLoop =>
      rw [Callers.busy, Callers.stage_eq called, found, Option.any_some, running_of_inside inside] at idle
      cases idle
  | callback other => exact ⟨other, filling.stands.puts called found⟩

theorem Filling.leaves (filling : Filling headersNum port offered gone passed contents state)
    (here : state.main = .puttingBack port header) (idle : state.callers.busy .mainLoop = false) :
    Leaves port state (state.goTo .stopped) := by
  have at_ := filling.here
  rw [Circuit.At, here] at at_
  refine .refused here ?_ ?_ rfl
  · rw [at_.2, ← List.append_assoc, List.getLast?_concat]
  · obtain ⟨stage, stageAt, kept⟩ := filling.back header here
    obtain ⟨stage', stageAt', done, -⟩ :=
      filling.stands.done idle (show state.main.expects = some _ from congrArg Loop.expects here)
    obtain rfl := Option.some.inj (stageAt.symm.trans stageAt')
    refine filling.first_eq idle (kept.resolve_left fun carries => ?_)
    cases stage with
    | returned result | returnedLength length => cases carries
    | _ => cases done

theorem Circuit.Gone.calls {main : Loop} (away : state.Gone contents port header) :
    (state.calls queue call main).Gone contents port header :=
  away.imp id stored_of_enter

/-- Between two functions the call goes on, or it is left. -/
theorem Filling.goes (feeds : port.source = .pool pool)
    (filling : Filling headersNum port offered gone passed contents state)
    (idle : state.callers.busy .mainLoop = false) {after : Circuit} (goes : state.Goes port after)
    {passed' : Queue → Multiset Header} (stands : after.Stands headersNum passed' contents) :
    (∃ gone, Filling headersNum port offered gone passed' contents after) ∨
      Leaves port state after ∧ after.offered port = state.offered port := by
  have at_ := filling.here
  rw [Circuit.At] at at_
  cases goes with
  | gets here read =>
      rw [here] at at_
      exact .inl ⟨gone, stands, at_, fun header member => (filling.away header member).calls,
        filling.distinct, fun header back => by cases back⟩
  | ends here read =>
      refine .inr ⟨.emptied here read rfl, ?_⟩
      cases port <;> rfl
  | repeats here got =>
      rw [here] at at_
      exact .inl ⟨gone, stands, at_, fun header member => (filling.away header member).calls,
        filling.distinct, fun header back => by cases back⟩
  | got here got =>
      rw [here] at at_
      exact .inl ⟨gone, stands, at_, filling.away, filling.distinct, fun header back => by cases back⟩
  | @sent header here =>
      rw [here] at at_
      obtain ⟨inHand, handed⟩ := filling.inHand here
      left
      refine ⟨gone ++ [header], stands, ⟨rfl, offered_concat at_.2⟩, ?_,
        (filling.distinct_concat feeds inHand (.inl rfl) handed).1, fun header back => by cases back⟩
      have held : (((state.addOffered port header).setHeld port (state.held port ++ [header])).fill port).held
          port = state.held port ++ [header] := Function.update_self _ _ _
      intro other member
      rcases List.mem_append.mp member with old | new
      · refine (filling.away other old).imp (fun atPort => ?_) fun back => stored_of_enter back
        change other ∈ Circuit.held _ port
        rw [held]
        exact List.mem_append_left _ atPort
      · left
        change other ∈ Circuit.held _ port
        rw [held]
        exact List.mem_append_right _ new
  | @refused header here =>
      rw [here] at at_
      left
      refine ⟨gone, stands, ⟨rfl, offered_concat at_.2⟩,
        fun other member => (filling.away other member).imp id stored_of_enter, filling.distinct, ?_⟩
      intro other same
      cases same
      exact ⟨_, Callers.enter_stage_self, .inl rfl⟩
  | stops here => exact .inr ⟨filling.leaves here idle, rfl⟩

/-- A step of the main loop stays in the call, or leaves it. -/
theorem Filling.main (feeds : port.source = .pool pool)
    (filling : Filling headersNum port offered gone passed contents state) (stop sent : Bool) :
    (∃ gone passed contents,
        Filling headersNum port offered gone passed contents (state.mainStep stop sent)) ∨
      Leaves port state (state.mainStep stop sent) ∧
        (state.mainStep stop sent).offered port = state.offered port := by
  rw [Circuit.mainStep]
  split
  · obtain ⟨contents, next⟩ := filling.stepOf feeds .mainLoop
    exact .inl ⟨gone, passed, contents, next⟩
  · rename_i idle
    rw [Bool.not_eq_true] at idle
    obtain ⟨passed, stands⟩ := filling.stands.goOn idle stop sent
    have goes := filling.stands.goes feeds idle filling.here.inCall stop sent
    rcases filling.goes feeds idle goes stands with ⟨gone, next⟩ | leaves
    · exact .inl ⟨gone, passed, contents, next⟩
    · exact .inr leaves

theorem Leaves.not_inCall (feeds : port.source = .pool pool) {after : Circuit}
    (leaves : Leaves port state after) : ¬ after.main.InCall port := by
  cases leaves with
  | emptied here empty next =>
      rw [next]
      cases port with
      | videoPort => simp [Circuit.afterFill, Circuit.fill, Circuit.calls, Loop.InCall]
      | encoderOutput => simp [Circuit.afterFill, Circuit.sendBufferFromQueue, Circuit.calls, Loop.InCall]
      | encoderInput => cases feeds
  | refused here last back next =>
      rw [next]
      exact id

end Main

section Run

theorem Filling.next (feeds : port.source = .pool pool)
    (filling : Filling headersNum port offered gone passed contents state) (event : Circuit.Event) :
    (∃ gone passed contents, Filling headersNum port offered gone passed contents (state.next event)) ∨
      Leaves port state (state.next event) ∧ (state.next event).offered port = state.offered port := by
  cases event with
  | main stop sent => exact filling.main feeds stop sent
  | returns from_ header =>
      obtain ⟨passed, next⟩ := filling.returned from_ header
      exact .inl ⟨gone, passed, contents, next⟩
  | callback header =>
      obtain ⟨contents, next⟩ := filling.stepOf feeds (.callback header)
      exact .inl ⟨gone, passed, contents, next⟩

/-- The call lasts, or the last event has ended it. -/
theorem filling_run (feeds : port.source = .pool pool)
    (filling : Filling headersNum port offered gone passed contents state) {events : List Circuit.Event}
    (during : circuit.Along (fun state _ => state.main.InCall port) state events) :
    (circuit.run state events).Sent headersNum port pool offered ∧
      ((circuit.run state events).main.InCall port ∨
        ∃ front last, events = front ++ [last] ∧
          Leaves port (circuit.run state front) (circuit.run state events)) := by
  induction events generalizing state gone passed contents with
  | nil => exact ⟨filling.sent feeds, .inl filling.here.inCall⟩
  | cons event rest ih =>
      obtain ⟨-, later⟩ := during
      rcases filling.next feeds event with ⟨gone, passed, contents, next⟩ | ⟨leaves, same⟩
      · obtain ⟨sent, inCall | ⟨front, last, split, leaves⟩⟩ := ih next later
        · exact ⟨sent, .inl inCall⟩
        · exact ⟨sent, .inr ⟨event :: front, last, congrArg (event :: ·) split, leaves⟩⟩
      · cases rest with
        | nil =>
            refine ⟨?_, .inr ⟨[], event, rfl, leaves⟩⟩
            change (state.next event).Sent headersNum port pool offered
            rw [Circuit.Sent, same]
            exact filling.sent feeds
        | cons following others => exact absurd later.1 (leaves.not_inCall feeds)

/-- The call begins with nothing sent. -/
theorem Filling.entered (stands : state.Stands headersNum passed contents)
    (here : state.main = .testing port) :
    Filling headersNum port (state.offered port) [] passed contents state where
  stands := stands
  here := by
    rw [Circuit.At, here]
    exact ⟨rfl, (List.append_nil _).symm⟩
  away := List.forall_mem_nil _
  distinct := List.nodup_nil
  back := by
    intro header back
    rw [here] at back
    cases back

end Run

end RcControl.Camera
