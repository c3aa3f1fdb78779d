import RcControl.Camera.CircuitHeaders

namespace RcControl.Camera

open RcControl.Data RcControl.Mmal

/-! Where the headers are in every run of the main loop and the callbacks.

The main loop has a header in hand until it puts or sends it, and a callback begins with one
that its port held: what is put is in no queue yet. -/

variable {headersNum : Pool → Nat} {passed : Queue → Multiset Header} {contents : Queue → List Header}
  {state : Circuit} {caller : Caller} {queue : Queue} {thread : Nat} {call : Call Header}
  {stage : Mmal.Thread Header} {header : Header} {port : Port} {main : Loop}

section Enter

/-- A header that is elsewhere is put by nobody else, and is not in the queue. -/
theorem Circuit.Stands.own (stands : state.Stands headersNum passed contents)
    (elsewhere : ∀ header ∈ (Event.call call).passes,
      ∃ place, place ≠ .queue queue ∧ header ∈ state.ledger contents place) :
    OwnHeader (state.callers.queues queue) (.call call) := by
  have outside : ∀ header ∈ (Event.call call).passes, header ∉ state.ledger contents (.queue queue) := by
    intro header passes inside
    obtain ⟨place, different, there⟩ := elsewhere header passes
    exact different (stands.unique inside there)
  cases call with
  | put header | putBack header =>
      have absent := outside header List.mem_cons_self
      refine ⟨fun thread member carries => absent ?_, fun headers replayed inside => absent ?_⟩
      · exact List.mem_append_left _ (List.mem_flatMap.mpr ⟨thread, member, carries⟩)
      · obtain rfl := Option.some.inj (replayed.symm.trans (stands.sound.queues queue).replayed)
        exact List.mem_append_right _ inside
  | get | wait | timedwait | length => trivial

/-- What a call passes is on its way into the queue. -/
theorem stored_enter (other : Queue) :
    (((state.callers.enter caller queue call).queues other).stored (contents other)).Perm
      ((if other = queue then (Event.call call).passes else []) ++
        (state.callers.queues other).stored (contents other)) := by
  rw [Callers.enter_queues]
  by_cases same : other = queue
  · subst same
    rw [Function.update_self, if_pos rfl]
    exact stored_call call
  · rw [Function.update_of_ne same, if_neg same, List.nil_append]

theorem stored_of_enter {other : Queue}
    (member : header ∈ (state.callers.queues other).stored (contents other)) :
    header ∈ ((state.callers.enter caller queue call).queues other).stored (contents other) :=
  (stored_enter other).symm.subset (List.mem_append_right _ member)

end Enter

section MainLoop

theorem Circuit.Stands.goTo (stands : state.Stands headersNum passed contents)
    (idle : state.callers.busy .mainLoop = false) (expects : main.expects = none)
    (hand : (state.goTo main).hand = state.hand)
    (handed : ∀ port header, main = .sending port header → .port port ∈ header.pool.places) :
    (state.goTo main).Stands headersNum passed contents := by
  have same : (state.goTo main).ledger contents = state.ledger contents := by
    funext place
    cases place with
    | queue queue | port port => rfl
    | hand => exact hand
  refine ⟨stands.sound, same ▸ stands.whole, same ▸ stands.placed, ?_, ?_, fun _ => idle,
    stands.putting, ?_⟩
  · rintro port (here | ⟨header, here⟩) other inHand
    · change main = .getting port at here
      subst here
      cases expects
    · change main = .sending port header at here
      subst here
      obtain rfl := List.mem_singleton.mp inHand
      exact handed port other rfl
  · intro queue call expected
    rw [show (state.goTo main).main.expects = none from expects] at expected
    cases expected
  · rw [same]
    exact stands.stored

/-- The main loop calls a function, and has the rest in hand still. -/
theorem Circuit.Stands.calls_of (stands : state.Stands headersNum passed contents)
    (idle : state.callers.busy .mainLoop = false) (expects : main.expects = some (queue, call))
    (own : OwnHeader (state.callers.queues queue) (.call call))
    (whole : Ledger.total ((state.calls queue call main).ledger contents) =
      Ledger.total (state.ledger contents))
    (placed : ∀ place, ∀ header ∈ (state.calls queue call main).ledger contents place,
      place ∈ header.pool.places) :
    ∃ passed, (state.calls queue call main).Stands headersNum passed contents := by
  have sound := stands.sound.enter idle own
  refine ⟨_, sound, whole.trans stands.whole, placed, ?_, ?_, ?_, ?_, ?_⟩
  · rintro port (here | ⟨header, here⟩) other inHand
    · change main = .getting port at here
      subst here
      cases expects
      rw [Circuit.hand] at inHand
      simp only [Circuit.calls, Callers.enter_stage_self] at inHand
      cases inHand
    · change main = .sending port header at here
      subst here
      cases expects
  · intro queue' call' expected
    cases expects.symm.trans expected
    exact ⟨_, Callers.enter_calls_self⟩
  · intro expected
    cases expects.symm.trans expected
  · intro header queue' thread' call' putting
    exact stands.putting _ _ _ _ ((Callers.enter_calls_other (by simp)).symm.trans putting)
  · intro header queue' thread' call' putting busy
    have earlier := (Callers.enter_calls_other (by simp)).symm.trans putting
    have before : state.callers.busy (.callback header) = true := by
      rw [← busy, Callers.busy, Callers.busy]
      exact congrArg _ (stands.sound.enter_stage_other (by simp)).symm
    exact stored_of_enter (stands.stored _ _ _ _ earlier before)

/-- A call that passes nothing. -/
theorem Circuit.Stands.calls_quiet (stands : state.Stands headersNum passed contents)
    (idle : state.callers.busy .mainLoop = false) (expects : main.expects = some (queue, call))
    (passes : (Event.call call).passes = []) (hand : (state.calls queue call main).hand = state.hand) :
    ∃ passed, (state.calls queue call main).Stands headersNum passed contents := by
  have perm : ∀ place, ((state.calls queue call main).ledger contents place).Perm
      (state.ledger contents place) := by
    intro place
    cases place with
    | queue other =>
        refine (stored_enter other).trans ?_
        rw [passes, ite_self, List.nil_append]
        exact List.Perm.refl _
    | port port => exact List.Perm.refl _
    | hand =>
        change ((state.calls queue call main).hand).Perm state.hand
        rw [hand]
  refine stands.calls_of idle expects (stands.own ?_) (Ledger.total_perm perm) ?_
  · rw [passes]
    exact List.forall_mem_nil _
  · exact fun place header member => stands.placed place header ((perm place).subset member)

/-- A call that puts a header that is in hand. -/
theorem Circuit.Stands.calls_put (stands : state.Stands headersNum passed contents)
    (idle : state.callers.busy .mainLoop = false) (expects : main.expects = some (queue, call))
    (passes : (Event.call call).passes = [header])
    (hand : state.hand = header :: (state.calls queue call main).hand)
    (allowed : .queue queue ∈ header.pool.places) :
    ∃ passed, (state.calls queue call main).Stands headersNum passed contents := by
  have inHand : header ∈ state.ledger contents .hand := by
    change header ∈ state.hand
    rw [hand]
    exact List.mem_cons_self
  have moves : Ledger.Moves (state.ledger contents) ((state.calls queue call main).ledger contents)
      .hand (.queue queue) header := by
    apply Ledger.Moves.of_perm (by simp)
    · change state.hand.Perm (header :: (state.calls queue call main).hand)
      rw [hand]
    · refine (stored_enter queue).trans ?_
      rw [if_pos rfl, passes]
      exact List.Perm.refl _
    · intro place notSource notTarget
      cases place with
      | queue other =>
          have different : other ≠ queue := fun same => notTarget (congrArg Place.queue same)
          simp only [Circuit.ledger, Circuit.calls, Callers.enter_queues, Function.update_of_ne different]
      | port port => rfl
      | hand => exact absurd rfl notSource
  refine stands.calls_of idle expects (stands.own ?_) (Ledger.total_moves moves) ?_
  · intro other member
    rw [passes] at member
    obtain rfl := List.mem_singleton.mp member
    exact ⟨.hand, by simp, inHand⟩
  · intro place other member
    rcases moves.mem member with earlier | ⟨rfl, rfl⟩
    · exact stands.placed place other earlier
    · exact allowed

/-- A successful send, after which the main loop has nothing in hand. -/
theorem Circuit.Stands.sends (stands : state.Stands headersNum passed contents)
    (here : state.main = .sending port header) :
    (((state.addOffered port header).setHeld port (state.held port ++ [header])).goTo .top).Stands
      headersNum passed contents := by
  have hand : state.hand = [header] := by rw [Circuit.hand, here]
  have idle := stands.idle (by rw [here]; rfl)
  have inHand : header ∈ state.hand := by
    rw [hand]
    exact List.mem_cons_self
  have moves : Ledger.Moves (state.ledger contents) ((((state.addOffered port header).setHeld port
      (state.held port ++ [header])).goTo .top).ledger contents) .hand (.port port) header := by
    apply Ledger.Moves.of_perm (by simp)
    · change state.hand.Perm (header :: [])
      rw [hand]
    · change (Function.update state.held port (state.held port ++ [header]) port).Perm _
      rw [Function.update_self]
      exact List.perm_append_singleton _ _
    · intro place notSource notTarget
      cases place with
      | queue queue => rfl
      | port other =>
          have different : other ≠ port := fun same => notTarget (congrArg Place.port same)
          exact Function.update_of_ne different _ _
      | hand => exact absurd rfl notSource
  refine ⟨stands.sound, (Ledger.total_moves moves).trans stands.whole, ?_, ?_, ?_, fun _ => idle,
    stands.putting, stands.stored⟩
  · intro place other member
    rcases moves.mem member with earlier | ⟨rfl, rfl⟩
    · exact stands.placed place other earlier
    · exact stands.handed port (.inr ⟨_, here⟩) other inHand
  · rintro port (here | ⟨_, here⟩) <;> cases here
  · rintro queue call expected
    cases expected

theorem Circuit.Stands.addOffered (stands : state.Stands headersNum passed contents) (port : Port)
    (header : Header) : (state.addOffered port header).Stands headersNum passed contents :=
  ⟨stands.sound, stands.whole, stands.placed, stands.handed, stands.called, stands.idle, stands.putting,
    stands.stored⟩

end MainLoop

section Returns

/-- The header of a callback that has not returned is at no port. -/
theorem Circuit.Stands.callback_idle (stands : state.Stands headersNum passed contents)
    (held : header ∈ state.held port) : state.callers.busy (.callback header) = false := by
  by_contra busy
  rw [Bool.not_eq_false] at busy
  cases called : state.callers.calls (.callback header) with
  | none => simp [Callers.busy, Callers.stage, called] at busy
  | some record =>
      obtain ⟨queue, thread, call⟩ := record
      have stored := stands.stored _ _ _ _ called busy
      have same : Place.port port = .queue queue := stands.unique stored held
      cases same

theorem returnsTo_mem_places (allowed : .port port ∈ header.pool.places) :
    .queue (port.returnsTo header) ∈ header.pool.places := by
  cases port with
  | videoPort => exact (userdata_mem_places _).1 allowed
  | encoderOutput => exact (userdata_mem_places _).2 allowed
  | encoderInput => exact pool_mem_places _

theorem callers_returned (held : header ∈ state.held port) :
    (state.next (.returns port header)).callers =
      state.callers.enter (.callback header) (port.returnsTo header) (.put header) := by
  rw [Circuit.next, if_pos held]

theorem held_returned (held : header ∈ state.held port) :
    (state.next (.returns port header)).held =
      Function.update state.held port ((state.held port).erase header) := by
  rw [Circuit.next, if_pos held]
  rfl

theorem main_returned (port : Port) (header : Header) :
    (state.next (.returns port header)).main = state.main := by
  rw [Circuit.next]
  split <;> rfl

theorem offered_returned (port : Port) (header : Header) :
    (state.next (.returns port header)).offered = state.offered := by
  rw [Circuit.next]
  split <;> rfl

theorem hand_returned (stands : state.Stands headersNum passed contents) (port : Port) (header : Header) :
    (state.next (.returns port header)).hand = state.hand := by
  rw [Circuit.next]
  split
  · have different : Caller.mainLoop ≠ .callback header := by simp
    simp only [Circuit.hand, stands.sound.enter_stage_other different]
    rfl
  · rfl

theorem moves_returned (stands : state.Stands headersNum passed contents) (held : header ∈ state.held port) :
    Ledger.Moves (state.ledger contents) ((state.next (.returns port header)).ledger contents)
      (.port port) (.queue (port.returnsTo header)) header := by
  apply Ledger.Moves.of_perm (by simp)
  · change (state.held port).Perm (header :: (state.next (.returns port header)).held port)
    rw [held_returned held, Function.update_self]
    exact List.perm_cons_erase held
  · simp only [Circuit.ledger, callers_returned held]
    refine (stored_enter (port.returnsTo header)).trans ?_
    rw [if_pos rfl]
    exact List.Perm.refl _
  · intro place notSource notTarget
    cases place with
    | queue other =>
        have different : other ≠ port.returnsTo header := fun same => notTarget (congrArg Place.queue same)
        simp only [Circuit.ledger, callers_returned held, Callers.enter_queues,
          Function.update_of_ne different]
    | port other =>
        have different : other ≠ port := fun same => notSource (congrArg Place.port same)
        change (state.next (.returns port header)).held other = state.held other
        rw [held_returned held]
        exact Function.update_of_ne different _ _
    | hand => exact hand_returned stands port header

theorem Circuit.Stands.returned (stands : state.Stands headersNum passed contents)
    (held : header ∈ state.held port) :
    ∃ passed, (state.next (.returns port header)).Stands headersNum passed contents := by
  have moves := moves_returned stands held
  have callers := callers_returned held
  have idle := stands.callback_idle held
  have allowed := returnsTo_mem_places (stands.placed (.port port) header held)
  have main : (state.next (.returns port header)).main = state.main := main_returned port header
  have own : OwnHeader (state.callers.queues (port.returnsTo header)) (.call (.put header)) := by
    refine stands.own fun other member => ⟨.port port, by simp, ?_⟩
    obtain rfl := List.mem_singleton.mp member
    exact held
  refine ⟨_, callers ▸ stands.sound.enter idle own, (Ledger.total_moves moves).trans stands.whole,
    ?_, ?_, ?_, ?_, ?_, ?_⟩
  · intro place other member
    rcases moves.mem member with earlier | ⟨rfl, rfl⟩
    · exact stands.placed place other earlier
    · exact allowed
  · intro own
    rw [main, hand_returned stands port header]
    exact stands.handed own
  · intro queue call expected
    rw [main] at expected
    obtain ⟨thread, called⟩ := stands.called queue call expected
    exact ⟨thread, callers ▸ (Callers.enter_calls_other (by simp)).trans called⟩
  · intro expected
    rw [main] at expected
    rw [callers, Callers.busy, stands.sound.enter_stage_other (by simp)]
    exact stands.idle expected
  · intro other queue thread call putting
    rw [callers] at putting
    by_cases same : other = header
    · subst same
      rw [Callers.enter_calls_self] at putting
      cases putting
      rfl
    · rw [Callers.enter_calls_other (by simpa using same)] at putting
      exact stands.putting _ _ _ _ putting
  · intro other queue thread call putting busy
    have reached : ∀ other, other ∈ state.ledger contents (.queue queue) →
        other ∈ (state.next (.returns port header)).ledger contents (.queue queue) := by
      intro other member
      change other ∈ ((state.next (.returns port header)).callers.queues queue).stored _
      rw [callers]
      exact stored_of_enter member
    rw [callers] at putting busy
    by_cases same : other = header
    · subst same
      rw [Callers.enter_calls_self] at putting
      cases putting
      exact moves.arrived (by simp)
    · rw [Callers.enter_calls_other (by simpa using same)] at putting
      rw [Callers.busy, stands.sound.enter_stage_other (by simpa using same)] at busy
      exact reached other (stands.stored _ _ _ _ putting busy)

end Returns

section Run

/-- The call that the main loop is in has returned. -/
theorem Circuit.Stands.done (stands : state.Stands headersNum passed contents)
    (idle : state.callers.busy .mainLoop = false) (expects : state.main.expects = some (queue, call)) :
    ∃ stage, state.callers.stage .mainLoop = some stage ∧ stage.done = true ∧ call.Reaches stage := by
  obtain ⟨thread, called⟩ := stands.called queue call expects
  obtain ⟨stage, found, reaches⟩ := stands.sound.reaches _ _ _ _ called
  have here : state.callers.stage .mainLoop = some stage := (Callers.stage_eq called).trans found
  rw [Callers.busy, here, Option.any_some, Bool.not_eq_false'] at idle
  exact ⟨stage, here, idle, reaches⟩

/-- A get that is over has its result. -/
theorem Circuit.Stands.got (stands : state.Stands headersNum passed contents)
    (idle : state.callers.busy .mainLoop = false) (expects : state.main.expects = some (queue, .get)) :
    state.callers.stage .mainLoop = some (.returned (state.callers.headerGot .mainLoop)) := by
  obtain ⟨stage, here, done, reaches⟩ := stands.done idle expects
  cases stage with
  | returned result => rw [Callers.headerGot, here]
  | returnedLength length => rcases reaches with reaches | reaches <;> cases reaches
  | _ => cases done

theorem Circuit.Stands.fill (stands : state.Stands headersNum passed contents)
    (idle : state.callers.busy .mainLoop = false) (hand : state.hand = []) (port : Port) :
    ∃ passed, (state.fill port).Stands headersNum passed contents :=
  stands.calls_quiet idle rfl rfl hand.symm

theorem hand_calls_get (got : main = .processing ∨ ∃ port, main = .getting port) :
    (state.calls queue .get main).hand = [] := by
  rcases got with rfl | ⟨port, rfl⟩ <;>
    simp [Circuit.hand, Circuit.calls, Callers.enter_stage_self, Call.start, Mmal.Thread.takes]

theorem Circuit.Stands.sendBufferFromQueue (stands : state.Stands headersNum passed contents)
    (idle : state.callers.busy .mainLoop = false) (hand : state.hand = []) (port : Port) :
    ∃ passed, (state.sendBufferFromQueue port).Stands headersNum passed contents :=
  stands.calls_quiet idle rfl rfl ((hand_calls_get (.inr ⟨port, rfl⟩)).trans hand.symm)

theorem Circuit.Stands.afterFill (stands : state.Stands headersNum passed contents)
    (idle : state.callers.busy .mainLoop = false) (hand : state.hand = []) (port : Port) :
    ∃ passed, (state.afterFill port).Stands headersNum passed contents := by
  cases port with
  | videoPort => exact stands.fill idle hand .encoderOutput
  | encoderOutput | encoderInput => exact stands.sendBufferFromQueue idle hand .encoderInput

theorem Circuit.Stands.afterSend (stands : state.Stands headersNum passed contents)
    (idle : state.callers.busy .mainLoop = false) (hand : state.hand = []) (port : Port) :
    ∃ passed, (state.afterSend port).Stands headersNum passed contents := by
  cases port with
  | videoPort => exact stands.fill idle hand .videoPort
  | encoderOutput => exact stands.fill idle hand .encoderOutput
  | encoderInput =>
      exact stands.calls_quiet idle rfl rfl ((hand_calls_get (.inl rfl)).trans hand.symm)

theorem Circuit.Stands.goOn (stands : state.Stands headersNum passed contents)
    (idle : state.callers.busy .mainLoop = false) (stop sent : Bool) :
    ∃ passed, (state.goOn stop sent).Stands headersNum passed contents := by
  cases here : state.main with
  | creating left =>
      have hand : state.hand = left := by rw [Circuit.hand, here]
      cases left with
      | nil =>
          simp only [Circuit.goOn, here]
          exact ⟨passed, stands.goTo idle rfl hand.symm (by simp)⟩
      | cons header left =>
          simp only [Circuit.goOn, here]
          exact stands.calls_put idle rfl rfl hand (pool_mem_places _)
  | adding header left =>
      have hand : state.hand = left := by rw [Circuit.hand, here]
      simp only [Circuit.goOn, here]
      exact ⟨passed, stands.goTo idle rfl hand.symm (by simp)⟩
  | top =>
      have hand : state.hand = [] := by rw [Circuit.hand, here]
      simp only [Circuit.goOn, here]
      split
      · exact ⟨passed, stands.goTo idle rfl hand.symm (by simp)⟩
      · exact stands.fill idle hand .videoPort
  | testing port =>
      have hand : state.hand = [] := by rw [Circuit.hand, here]
      simp only [Circuit.goOn, here]
      split
      · exact stands.sendBufferFromQueue idle hand port
      · exact stands.afterFill idle hand port
  | getting port =>
      have stage := stands.got idle (by rw [here]; rfl)
      cases got : state.callers.headerGot .mainLoop with
      | none =>
          have hand : state.hand = [] := by simp [Circuit.hand, here, stage, got, Mmal.Thread.takes]
          simp only [Circuit.goOn, here, got]
          exact stands.afterSend idle hand port
      | some header =>
          have hand : state.hand = [header] := by simp [Circuit.hand, here, stage, got, Mmal.Thread.takes]
          have inHand : header ∈ state.hand := by
            rw [hand]
            exact List.mem_cons_self
          simp only [Circuit.goOn, here, got]
          refine ⟨passed, stands.goTo idle rfl hand.symm ?_⟩
          intro port' other same
          cases same
          exact stands.handed port (.inl here) header inHand
  | sending port header =>
      simp only [Circuit.goOn, here]
      split
      · exact (stands.sends here).afterSend idle rfl port
      · have hand : state.hand = [header] := by rw [Circuit.hand, here]
        have inHand : header ∈ state.hand := by
          rw [hand]
          exact List.mem_cons_self
        have allowed := stands.handed port (.inr ⟨header, here⟩) header inHand
        exact (stands.addOffered port header).calls_put idle rfl rfl hand
          ((source_mem_places _ _).mpr allowed)
  | puttingBack port header =>
      have hand : state.hand = [] := by rw [Circuit.hand, here]
      simp only [Circuit.goOn, here]
      exact ⟨passed, stands.goTo idle rfl hand.symm (by simp)⟩
  | processing =>
      have stage := stands.got idle (by rw [here]; rfl)
      cases got : state.callers.headerGot .mainLoop with
      | none =>
          have hand : state.hand = [] := by simp [Circuit.hand, here, stage, got, Mmal.Thread.takes]
          simp only [Circuit.goOn, here, got]
          exact ⟨passed, stands.goTo idle rfl hand.symm (by simp)⟩
      | some header =>
          have hand : state.hand = [header] := by simp [Circuit.hand, here, stage, got, Mmal.Thread.takes]
          simp only [Circuit.goOn, here, got]
          exact ⟨passed, stands.goTo idle rfl hand.symm (by simp)⟩
  | passing header =>
      have hand : state.hand = [header] := by rw [Circuit.hand, here]
      simp only [Circuit.goOn, here]
      exact stands.calls_put idle rfl rfl hand (pool_mem_places _)
  | releasing header =>
      have hand : state.hand = [] := by rw [Circuit.hand, here]
      simp only [Circuit.goOn, here]
      exact ⟨passed, stands.goTo idle rfl hand.symm (by simp)⟩
  | stopped =>
      simp only [Circuit.goOn, here]
      exact ⟨passed, stands⟩

/-- A step of a party in its call, or none if it has not called anything. -/
theorem Circuit.Stands.stepOf (stands : state.Stands headersNum passed contents) (caller : Caller) :
    ∃ contents, (state.stepOf caller).Stands headersNum passed contents := by
  rcases stands.stepOf_cases caller with same | ⟨queue, thread, call, stage, called, found⟩
  · rw [same]
    exact ⟨contents, stands⟩
  · exact ⟨_, stands.step called found⟩

theorem Circuit.next_stands (state : Circuit) (event : Circuit.Event)
    (stands : ∃ passed contents, state.Stands headersNum passed contents) :
    ∃ passed contents, (state.next event).Stands headersNum passed contents := by
  obtain ⟨passed, contents, stands⟩ := stands
  cases event with
  | main stop sent =>
      rw [Circuit.next, Circuit.mainStep]
      split
      · exact ⟨passed, stands.stepOf .mainLoop⟩
      · rename_i idle
        obtain ⟨passed, stands⟩ := stands.goOn (Bool.not_eq_true _ ▸ idle) stop sent
        exact ⟨passed, contents, stands⟩
  | returns port header =>
      by_cases held : header ∈ state.held port
      · obtain ⟨passed, stands⟩ := stands.returned held
        exact ⟨passed, contents, stands⟩
      · rw [Circuit.next, if_neg held]
        exact ⟨passed, contents, stands⟩
  | callback header => exact ⟨passed, stands.stepOf (.callback header)⟩

theorem Circuit.initial_stands (headersNum : Pool → Nat) :
    (Circuit.initial headersNum).Stands headersNum (fun _ => 0) fun _ => [] where
  sound := Callers.initial_sound
  whole := by
    have elsewhere : ∀ place ∈ Finset.univ, place ≠ Place.hand →
        ((Circuit.initial headersNum).ledger (fun _ => []) place : Multiset Header) = 0 := by
      intro place _ different
      cases place with
      | queue queue | port port => rfl
      | hand => exact absurd rfl different
    rw [Ledger.total, Finset.sum_eq_single_of_mem Place.hand (Finset.mem_univ _) elsewhere]
    rfl
  placed := by
    intro place header member
    cases place with
    | queue queue | port port => cases member
    | hand => exact hand_mem_places _
  handed := by rintro port (here | ⟨_, here⟩) <;> cases here
  called := by
    intro queue call expected
    cases expected
  idle := fun _ => rfl
  putting := by
    intro header queue thread call called
    cases called
  stored := by
    intro header queue thread call called
    cases called

theorem Circuit.run_stands (headersNum : Pool → Nat) (events : List Circuit.Event) :
    ∃ passed contents, (circuit.run (Circuit.initial headersNum) events).Stands headersNum passed contents :=
  circuit.always_run
    (circuit.always_of_invariant Circuit.next_stands ⟨_, _, Circuit.initial_stands headersNum⟩ events)

end Run

end RcControl.Camera
