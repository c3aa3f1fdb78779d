import RcControl.Camera.Circuit

namespace RcControl.Camera

open RcControl.Data RcControl.Mmal

/-! Where the headers are, while the calls take their steps.

A header is in one place, once, so nobody puts one that is in a queue already: the queues
hold what their callers have put. -/

variable {headersNum : Pool → Nat} {passed : Queue → Multiset Header} {contents : Queue → List Header}
  {state : Circuit} {caller : Caller} {queue : Queue} {thread : Nat} {call : Call Header}
  {stage : Mmal.Thread Header} {header : Header}

section Calls

theorem Circuit.Stands.nodup (stands : state.Stands headersNum passed contents) :
    (Ledger.total (state.ledger contents)).Nodup :=
  stands.whole ▸ nodup_allHeaders headersNum

theorem Circuit.Stands.nodup_held (stands : state.Stands headersNum passed contents) (port : Port) :
    (state.held port).Nodup :=
  Ledger.nodup_place stands.nodup (.port port)

theorem Circuit.Stands.unique (stands : state.Stands headersNum passed contents) {first second : Place}
    (here : header ∈ state.ledger contents first) (there : header ∈ state.ledger contents second) :
    second = first :=
  Ledger.place_unique stands.nodup here there

/-- A callback is in a put. -/
theorem Circuit.Stands.puts (stands : state.Stands headersNum passed contents)
    (called : state.callers.calls (.callback header) = some (queue, thread, call))
    (found : (state.callers.queues queue).threads[thread]? = some stage) : stage.Puts .back header := by
  obtain rfl := stands.putting _ _ _ _ called
  obtain ⟨stage', found', reaches⟩ := stands.sound.reaches _ _ _ _ called
  obtain rfl := Option.some.inj (found.symm.trans found')
  exact reaches

/-- The call that the main loop is in is the one that it expects. -/
theorem Circuit.Stands.expected (stands : state.Stands headersNum passed contents)
    (called : state.callers.calls .mainLoop = some (queue, thread, call))
    (found : (state.callers.queues queue).threads[thread]? = some stage) (running : stage.done = false) :
    state.main.expects = some (queue, call) := by
  cases expects : state.main.expects with
  | none =>
      have idle := stands.idle expects
      rw [Callers.busy, Callers.stage_eq called, found, Option.any_some, running] at idle
      cases idle
  | some record =>
      obtain ⟨queue', call'⟩ := record
      obtain ⟨thread', called'⟩ := stands.called queue' call' expects
      rw [called] at called'
      cases called'
      rfl

/-- Only the main loop takes headers off a queue. -/
theorem Circuit.Stands.getter (stands : state.Stands headersNum passed contents)
    (called : state.callers.calls caller = some (queue, thread, call))
    (found : (state.callers.queues queue).threads[thread]? = some (.getNext header)) :
    caller = .mainLoop ∧
      ((∃ port, state.main = .getting port ∧ queue = port.source) ∨
        state.main = .processing ∧ queue = .encoderOut) := by
  cases caller with
  | callback own => cases stands.puts called found
  | mainLoop =>
      obtain ⟨stage, found', reaches⟩ := stands.sound.reaches _ _ _ _ called
      obtain rfl := Option.some.inj (found.symm.trans found')
      have expects := stands.expected called found rfl
      refine ⟨rfl, ?_⟩
      cases main : state.main with
      | getting port =>
          rw [main] at expects
          cases expects
          exact .inl ⟨port, rfl, rfl⟩
      | processing =>
          rw [main] at expects
          cases expects
          exact .inr ⟨rfl, rfl⟩
      | adding header left | releasing header | testing port | puttingBack port header =>
          rw [main] at expects
          cases expects
          simp [Call.Reaches, Mmal.Thread.Puts] at reaches
      | creating left | top | sending port header | passing header | stopped =>
          rw [main] at expects
          cases expects

end Calls

section Step

/-- What a step of a call leaves of the contents of the queues. -/
def stepped (contents : Queue → List Header) (queue : Queue) (stage : Mmal.Thread Header) :
    Queue → List Header :=
  Function.update contents queue (stage.changes (contents queue))

/-- A party that has called something takes a step in its call. -/
theorem Circuit.Stands.stepOf_cases (stands : state.Stands headersNum passed contents) (caller : Caller) :
    state.stepOf caller = state ∨ ∃ queue thread call stage,
      state.callers.calls caller = some (queue, thread, call) ∧
      (state.callers.queues queue).threads[thread]? = some stage := by
  cases called : state.callers.calls caller with
  | none =>
      left
      rw [Circuit.stepOf, Callers.step, called]
  | some record =>
      obtain ⟨queue, thread, call⟩ := record
      obtain ⟨stage, found, -⟩ := stands.sound.reaches _ _ _ _ called
      exact .inr ⟨queue, thread, call, stage, rfl, found⟩

theorem stepOf_stage_other (stands : state.Stands headersNum passed contents) {other : Caller}
    (different : other ≠ caller) : (state.stepOf caller).callers.stage other = state.callers.stage other :=
  stands.sound.step_stage_other different

/-- A step that takes no header off a queue leaves each one where it is. -/
theorem ledger_quiet (stands : state.Stands headersNum passed contents)
    (called : state.callers.calls caller = some (queue, thread, call))
    (found : (state.callers.queues queue).threads[thread]? = some stage)
    (quiet : ∀ buffer, stage ≠ .getNext buffer) (place : Place) :
    ((state.stepOf caller).ledger (stepped contents queue stage) place).Perm
      (state.ledger contents place) := by
  cases place with
  | queue other =>
      simp only [Circuit.ledger, Circuit.stepOf, Callers.step_queues called, stepped]
      by_cases same : other = queue
      · subst same
        rw [Function.update_self, Function.update_self]
        exact (stands.sound.queues other).stored_step found quiet
      · rw [Function.update_of_ne same, Function.update_of_ne same]
  | port port => exact List.Perm.refl _
  | hand =>
      have taken : ((state.stepOf caller).callers.stage .mainLoop).toList.flatMap Mmal.Thread.takes =
          (state.callers.stage .mainLoop).toList.flatMap Mmal.Thread.takes := by
        by_cases own : caller = .mainLoop
        · subst own
          have after : (state.stepOf .mainLoop).callers.stage .mainLoop = some _ :=
            Callers.step_stage_self called found
          have before : state.callers.stage .mainLoop = some stage := (Callers.stage_eq called).trans found
          rw [after, before]
          simp [Mmal.Thread.takes_next quiet]
        · rw [stepOf_stage_other stands (Ne.symm own)]
      have same : (state.stepOf caller).hand = state.hand := by
        simp only [Circuit.hand, taken]
        rfl
      change ((state.stepOf caller).hand).Perm state.hand
      rw [same]

/-- A get moves a header from the queue into the hands of the main loop. -/
theorem moves_got (stands : state.Stands headersNum passed contents)
    (called : state.callers.calls caller = some (queue, thread, call))
    (found : (state.callers.queues queue).threads[thread]? = some (.getNext header)) :
    Ledger.Moves (state.ledger contents)
      ((state.stepOf caller).ledger (stepped contents queue (.getNext header))) (.queue queue) .hand
      header := by
  obtain ⟨rfl, where_⟩ := stands.getter called found
  have before : state.callers.stage .mainLoop = some (.getNext header) :=
    (Callers.stage_eq called).trans found
  have after : (state.stepOf .mainLoop).callers.stage .mainLoop = some (.getTail header) :=
    Callers.step_stage_self called found
  have empty : state.hand = [] := by
    rcases where_ with ⟨port, here, -⟩ | ⟨here, -⟩ <;>
      simp [Circuit.hand, here, before, Mmal.Thread.takes]
  have full : (state.stepOf .mainLoop).hand = [header] := by
    rcases where_ with ⟨port, here, -⟩ | ⟨here, -⟩ <;>
      simp [Circuit.hand, show (state.stepOf .mainLoop).main = _ from here, after, Mmal.Thread.takes]
  apply Ledger.Moves.of_perm (by simp)
  · simp only [Circuit.ledger, Circuit.stepOf, Callers.step_queues called, stepped, Function.update_self]
    exact (stands.sound.queues queue).stored_got found
  · simp only [Circuit.ledger, empty, full]
    exact List.Perm.refl _
  · intro place notSource notTarget
    cases place with
    | queue other =>
        have different : other ≠ queue := fun same => notSource (congrArg Place.queue same)
        simp only [Circuit.ledger, Circuit.stepOf, Callers.step_queues called, stepped]
        rw [Function.update_of_ne different, Function.update_of_ne different]
    | port port => rfl
    | hand => exact absurd rfl notTarget

/-- Nobody is putting the header that a getter takes. -/
theorem callback_of_got (stands : state.Stands headersNum passed contents)
    (called : state.callers.calls .mainLoop = some (queue, thread, call))
    (found : (state.callers.queues queue).threads[thread]? = some (.getNext header)) :
    state.callers.busy (.callback header) = false := by
  by_contra busy
  rw [Bool.not_eq_false] at busy
  have sound := stands.sound
  cases putting : state.callers.calls (.callback header) with
  | none => simp [Callers.busy, Callers.stage, putting] at busy
  | some record =>
      obtain ⟨queue', thread', call'⟩ := record
      have inContents : header ∈ contents queue := by
        obtain ⟨rest, holds, -⟩ := (sound.queues queue).got found
        rw [holds]
        exact List.mem_cons_self
      have here : header ∈ state.ledger contents (.queue queue) := List.mem_append_right _ inContents
      have there := stands.stored _ _ _ _ putting busy
      obtain rfl : queue' = queue := by
        have same := stands.unique here there
        cases same
        rfl
      obtain ⟨stage, found', -⟩ := sound.reaches _ _ _ _ putting
      have puts := stands.puts putting found'
      rw [Callers.busy, Callers.stage_eq putting, found', Option.any_some] at busy
      have locked : stage.inside = true → False := by
        intro inside
        have owns := ((sound.queues queue').guarded.inside_iff found').mp inside
        have owns' := ((sound.queues queue').guarded.inside_iff found).mp rfl
        obtain rfl := Option.some.inj (owns.symm.trans owns')
        have same := sound.apart _ _ _ _ _ _ called putting
        cases same
      cases stage with
      | lock side own =>
          obtain ⟨-, rfl⟩ := puts
          exact (sound.queues queue').fresh found' List.mem_cons_self inContents
      | count side own | link side own | splice side own | tail side own | post | unlock => exact locked rfl
      | returned result | returnedLength length => cases busy
      | _ => cases puts

theorem Circuit.Stands.step (stands : state.Stands headersNum passed contents)
    (called : state.callers.calls caller = some (queue, thread, call))
    (found : (state.callers.queues queue).threads[thread]? = some stage) :
    (state.stepOf caller).Stands headersNum passed (stepped contents queue stage) := by
  have sound := stands.sound
  have calls : (state.stepOf caller).callers.calls = state.callers.calls := Callers.step_calls
  have soundAfter : (state.stepOf caller).callers.Sound passed (stepped contents queue stage) :=
    sound.step called found
  have busy_before : ∀ other, (state.stepOf caller).callers.busy other = true →
      state.callers.busy other = true := by
    intro other busy
    by_cases own : other = caller
    · subst own
      have after : (state.stepOf other).callers.stage other = some _ := Callers.step_stage_self called found
      rw [Callers.busy, after, Option.any_some] at busy
      rw [Callers.busy, Callers.stage_eq called, found, Option.any_some]
      cases done : stage.done with
      | false => rfl
      | true =>
          rw [Mmal.Thread.done_next done, done] at busy
          cases busy
    · rw [Callers.busy, stepOf_stage_other stands own] at busy
      exact busy
  have idle : (state.stepOf caller).main.expects = none →
      (state.stepOf caller).callers.busy .mainLoop = false := by
    intro expects
    by_contra busy
    rw [Bool.not_eq_false] at busy
    have before := busy_before _ busy
    rw [stands.idle expects] at before
    cases before
  by_cases got : ∃ buffer, stage = .getNext buffer
  · obtain ⟨buffer, rfl⟩ := got
    have moves := moves_got stands called found
    obtain ⟨rfl, where_⟩ := stands.getter called found
    have taken : buffer ∈ state.ledger contents (.queue queue) :=
      ((stands.sound.queues queue).stored_got found).symm.subset List.mem_cons_self
    refine ⟨soundAfter, (Ledger.total_moves moves).trans stands.whole, ?_, ?_, ?_, idle, ?_, ?_⟩
    · intro place other member
      rcases moves.mem member with earlier | ⟨rfl, rfl⟩
      · exact stands.placed place other earlier
      · exact hand_mem_places _
    · intro port main other inHand
      rcases moves.mem (show other ∈ (state.stepOf .mainLoop).ledger _ .hand from inHand) with
        earlier | ⟨rfl, -⟩
      · exact stands.handed port main other earlier
      · have place := stands.placed _ _ taken
        rcases where_ with ⟨own, here, rfl⟩ | ⟨here, -⟩
        · rcases main with main | ⟨_, main⟩
          · have same : Loop.getting own = .getting port := here.symm.trans main
            cases same
            exact (source_mem_places _ _).mp place
          · have same : Loop.getting own = .sending port _ := here.symm.trans main
            cases same
        · rcases main with main | ⟨_, main⟩
          · have same : Loop.processing = .getting port := here.symm.trans main
            cases same
          · have same : Loop.processing = .sending port _ := here.symm.trans main
            cases same
    · rw [calls]
      exact stands.called
    · rw [calls]
      exact stands.putting
    · intro other queue' thread' call' putting busy
      rw [calls] at putting
      have before := busy_before _ busy
      have stored := stands.stored _ _ _ _ putting before
      by_cases same : queue' = queue
      · subst same
        have perm := (stands.sound.queues queue').stored_got found
        rcases List.mem_cons.mp (perm.subset stored) with rfl | rest
        · rw [callback_of_got stands called found] at before
          cases before
        · simp only [Circuit.ledger, Circuit.stepOf, Callers.step_queues called, stepped,
            Function.update_self]
          exact rest
      · simp only [Circuit.ledger, Circuit.stepOf, Callers.step_queues called, stepped]
        rw [Function.update_of_ne same, Function.update_of_ne same]
        exact stored
  · have quiet : ∀ buffer, stage ≠ .getNext buffer := fun buffer same => got ⟨buffer, same⟩
    have perm := ledger_quiet stands called found quiet
    refine ⟨soundAfter, (Ledger.total_perm perm).trans stands.whole, ?_, ?_, ?_, idle, ?_, ?_⟩
    · exact fun place other member => stands.placed place other ((perm place).subset member)
    · exact fun port main other member => stands.handed port main other ((perm .hand).subset member)
    · rw [calls]
      exact stands.called
    · rw [calls]
      exact stands.putting
    · intro other queue' thread' call' putting busy
      rw [calls] at putting
      exact (perm _).symm.subset (stands.stored _ _ _ _ putting (busy_before _ busy))

end Step

end RcControl.Camera
