import RcControl.Camera.FillPort
import RcControl.Mmal.Progress

namespace RcControl.Camera

open RcControl.Data RcControl.Mmal

/-! What the main loop relies on when it gets from the pool's queue.

A length above zero promises a header, which is in the list or about to be linked in.  Where
no callback has the lock it is there, and the main loop does not have to wait. -/

variable {headersNum : Pool → Nat} {port : Port} {pool : Pool} {offered gone : List Header}
  {passed : Queue → Multiset Header} {contents : Queue → List Header} {state : Circuit} {caller : Caller}
  {queue : Queue} {thread : Nat} {call : Call Header} {stage : Mmal.Thread Header} {header : Header}

structure Waiting (headersNum : Pool → Nat) (port : Port) (offered gone : List Header)
    (passed : Queue → Multiset Header) (contents : Queue → List Header) (state : Circuit) : Prop
    extends Filling headersNum port offered gone passed contents state where
  promised : ∀ stage, state.callers.stage .mainLoop = some stage → stage.hopes = true →
    (state.callers.queues port.source).Promises

section Promises

/-- The call that the main loop is in is for the queue of the pool. -/
theorem Filling.queue_eq (filling : Filling headersNum port offered gone passed contents state)
    (called : state.callers.calls .mainLoop = some (queue, thread, call))
    (found : (state.callers.queues queue).threads[thread]? = some stage) (running : stage.done = false) :
    queue = port.source ∧ (call = .length ∨ call = .get ∨ ∃ header, call = .putBack header) := by
  have expects := filling.stands.expected called found running
  have inCall := filling.here.inCall
  cases here : state.main with
  | testing own | getting own | puttingBack own header =>
      rw [here] at expects inCall
      obtain rfl : own = port := inCall
      cases expects
      exact ⟨rfl, by simp⟩
  | sending own header =>
      rw [here] at expects
      cases expects
  | creating left | adding header left | top | processing | passing header | releasing header | stopped =>
      rw [here] at inCall
      exact inCall.elim

/-- Only the main loop takes from the queue, so a promise is kept while it does not. -/
theorem promises_step (stands : state.Stands headersNum passed contents)
    (called : state.callers.calls caller = some (queue, thread, call))
    (found : (state.callers.queues queue).threads[thread]? = some stage)
    (quiet : ∀ buffer, stage ≠ .getNext buffer) {other : Queue}
    (promises : (state.callers.queues other).Promises) :
    ((state.stepOf caller).callers.queues other).Promises := by
  rw [Circuit.stepOf, Callers.step_queues called]
  by_cases same : other = queue
  · subst same
    rw [Function.update_self]
    exact (stands.sound.queues other).promises_step found quiet promises
  · rw [Function.update_of_ne same]
    exact promises

theorem promises_enter {other : Queue} (promises : (state.callers.queues other).Promises) :
    ((state.callers.enter caller queue call).queues other).Promises := by
  rw [Callers.enter_queues]
  by_cases same : other = queue
  · subst same
    rw [Function.update_self]
    exact Promises.called promises
  · rw [Function.update_of_ne same]
    exact promises

/-- Whoever is inside the lock while the main loop is not is a callback, which puts. -/
theorem Circuit.Stands.puts_of_owner (stands : state.Stands headersNum passed contents)
    (outside : ∀ stage, state.callers.stage .mainLoop = some stage → stage.inside = false) {index : Nat}
    (owned : (state.callers.queues queue).owner = some index)
    (found : (state.callers.queues queue).threads[index]? = some stage) :
    ∃ header call, state.callers.calls (.callback header) = some (queue, index, call) ∧
      stage.inside = true ∧ stage.Puts .back header := by
  have inside := ((stands.sound.queues queue).guarded.inside_iff found).mpr owned
  obtain ⟨party, call, called⟩ := stands.sound.live _ _ _ found (running_of_inside inside)
  cases party with
  | mainLoop =>
      have off := outside stage ((Callers.stage_eq called).trans found)
      rw [inside] at off
      cases off
  | callback header => exact ⟨header, call, called, inside, stands.puts called found⟩

theorem Waiting.step (feeds : port.source = .pool pool)
    (waiting : Waiting headersNum port offered gone passed contents state)
    (called : state.callers.calls caller = some (queue, thread, call))
    (found : (state.callers.queues queue).threads[thread]? = some stage) :
    Waiting headersNum port offered gone passed (stepped contents queue stage) (state.stepOf caller) where
  toFilling := waiting.toFilling.step feeds called found
  promised := by
    have stands := waiting.stands
    intro stage' here hopes
    by_cases own : caller = .mainLoop
    · subst own
      have at_ : (state.stepOf .mainLoop).callers.stage .mainLoop = some _ :=
        Callers.step_stage_self called found
      obtain rfl := Option.some.inj (here.symm.trans at_)
      rcases hopes_next hopes with ⟨rfl, some_⟩ | ⟨same, hoped⟩
      · obtain ⟨rfl, -⟩ := waiting.queue_eq called found rfl
        refine promises_step stands called found (by simp) ?_
        refine (stands.sound.queues _).promises_of_length some_ fun index other owned found' => ?_
        obtain ⟨header, -, -, -, puts⟩ := stands.puts_of_owner (fun stage at_ => by
          obtain rfl := Option.some.inj (((Callers.stage_eq called).trans found).symm.trans at_)
          rfl) owned found'
        exact ⟨_, _, puts⟩
      · have before := waiting.promised stage ((Callers.stage_eq called).trans found) hoped
        exact promises_step stands called found (by rintro buffer rfl; cases hoped) before
    · rw [stepOf_stage_other stands (Ne.symm own)] at here
      refine promises_step stands called found (fun buffer same => ?_) (waiting.promised stage' here hopes)
      subst same
      exact own (stands.getter called found).1

theorem Waiting.stepOf (feeds : port.source = .pool pool)
    (waiting : Waiting headersNum port offered gone passed contents state) (caller : Caller) :
    ∃ contents, Waiting headersNum port offered gone passed contents (state.stepOf caller) := by
  rcases waiting.stands.stepOf_cases caller with same | ⟨queue, thread, call, stage, called, found⟩
  · rw [same]
    exact ⟨contents, waiting⟩
  · exact ⟨_, waiting.step feeds called found⟩

theorem Waiting.returned (waiting : Waiting headersNum port offered gone passed contents state)
    (from_ : Port) (other : Header) :
    ∃ passed, Waiting headersNum port offered gone passed contents (state.next (.returns from_ other)) := by
  obtain ⟨passed, filling⟩ := waiting.toFilling.returned from_ other
  refine ⟨passed, filling, ?_⟩
  by_cases held : other ∈ state.held from_
  · rw [callers_returned held, waiting.stands.sound.enter_stage_other (by simp)]
    exact fun stage here hopes => promises_enter (waiting.promised stage here hopes)
  · rw [Circuit.next, if_neg held]
    exact waiting.promised

theorem Waiting.goes (feeds : port.source = .pool pool)
    (waiting : Waiting headersNum port offered gone passed contents state)
    (idle : state.callers.busy .mainLoop = false) {after : Circuit} (goes : state.Goes port after)
    {passed' : Queue → Multiset Header} (stands : after.Stands headersNum passed' contents) :
    (∃ gone, Waiting headersNum port offered gone passed' contents after) ∨ ¬ after.main.InCall port := by
  rcases waiting.toFilling.goes feeds idle goes stands with ⟨gone, filling⟩ | ⟨leaves, -⟩
  · refine .inl ⟨gone, filling, ?_⟩
    intro stage here hopes
    cases goes with
    | gets main read => exact promises_enter (waiting.promised _ read rfl)
    | ends main read => exact absurd filling.here.inCall (Leaves.emptied main read rfl |>.not_inCall feeds)
    | repeats main got | sent main | refused main =>
        have start := Callers.enter_stage_self.symm.trans here
        obtain rfl := Option.some.inj start
        cases hopes
    | got main got =>
        obtain rfl := Option.some.inj (got.symm.trans here)
        cases hopes
    | stops main => exact filling.here.inCall.elim
  · exact .inr (leaves.not_inCall feeds)

theorem Waiting.next (feeds : port.source = .pool pool)
    (waiting : Waiting headersNum port offered gone passed contents state) (event : Circuit.Event) :
    (∃ gone passed contents, Waiting headersNum port offered gone passed contents (state.next event)) ∨
      ¬ (state.next event).main.InCall port := by
  cases event with
  | main stop sent =>
      rw [Circuit.next, Circuit.mainStep]
      split
      · obtain ⟨contents, next⟩ := waiting.stepOf feeds .mainLoop
        exact .inl ⟨gone, passed, contents, next⟩
      · rename_i idle
        rw [Bool.not_eq_true] at idle
        obtain ⟨passed, stands⟩ := waiting.stands.goOn idle stop sent
        have goes := waiting.stands.goes feeds idle waiting.here.inCall stop sent
        rcases waiting.goes feeds idle goes stands with ⟨gone, next⟩ | left
        · exact .inl ⟨gone, passed, contents, next⟩
        · exact .inr left
  | returns from_ header =>
      obtain ⟨passed, next⟩ := waiting.returned from_ header
      exact .inl ⟨gone, passed, contents, next⟩
  | callback header =>
      obtain ⟨contents, next⟩ := waiting.stepOf feeds (.callback header)
      exact .inl ⟨gone, passed, contents, next⟩

end Promises

/-- A callback has the lock of the queue. -/
def Circuit.blocked (state : Circuit) (queue : Queue) : Bool :=
  (state.callers.queues queue).owner.isSome && !(state.callers.stage .mainLoop).any Mmal.Thread.inside

section Ready

/-- Outside the lock it does not matter where the main loop is. -/
theorem blocked_of_outside
    (outside : ∀ stage, state.callers.stage .mainLoop = some stage → stage.inside = false) :
    state.blocked queue = (state.callers.queues queue).owner.isSome := by
  rw [Circuit.blocked]
  cases at_ : state.callers.stage .mainLoop with
  | none => simp
  | some stage => simp [outside stage at_]

theorem outside_of_idle (idle : state.callers.busy .mainLoop = false) (stage : Mmal.Thread Header)
    (at_ : state.callers.stage .mainLoop = some stage) : stage.inside = false := by
  rw [Callers.busy, at_, Option.any_some, Bool.not_eq_false'] at idle
  cases stage with
  | returned result | returnedLength length => rfl
  | _ => cases idle

/-- Where nobody has the lock, the main loop does not have to wait. -/
theorem Waiting.ready (waiting : Waiting headersNum port offered gone passed contents state)
    (called : state.callers.calls .mainLoop = some (queue, thread, call))
    (found : (state.callers.queues queue).threads[thread]? = some stage) (running : stage.done = false)
    (free : state.blocked port.source = false) : stage.Ready (state.callers.queues queue) := by
  have sound := waiting.stands.sound.queues queue
  obtain ⟨rfl, call_⟩ := waiting.queue_eq called found running
  have at_ : state.callers.stage .mainLoop = some stage := (Callers.stage_eq called).trans found
  obtain ⟨stage', found', reaches⟩ := waiting.stands.sound.reaches _ _ _ _ called
  obtain rfl := Option.some.inj (found.symm.trans found')
  have unowned (outside : stage.inside = false) : (state.callers.queues port.source).owner = none := by
    rw [blocked_of_outside fun other here => by
      obtain rfl := Option.some.inj (at_.symm.trans here)
      exact outside] at free
    exact Option.isSome_eq_false_iff.mp free |> Option.isNone_iff_eq_none.mp
  cases stage with
  | lock side buffer | getLock => exact unowned rfl
  | trywait =>
      refine sound.semaphore_ne_zero (waiting.promised _ at_ rfl) (unowned rfl) ?_
      intro other member claims
      obtain ⟨index, foundOther⟩ := List.mem_iff_getElem?.mp member
      have runningOther : other.done = false := by
        cases other with
        | returned result | returnedLength length => cases claims
        | _ => rfl
      obtain ⟨party, call', calledOther⟩ := waiting.stands.sound.live _ _ _ foundOther runningOther
      cases party with
      | mainLoop =>
          have same := (Callers.stage_eq calledOther).trans foundOther
          obtain rfl := Option.some.inj (at_.symm.trans same)
          cases claims
      | callback header =>
          have puts := waiting.stands.puts calledOther foundOther
          cases other with
          | post => rfl
          | getLock | getFirst | getNext buffer => cases puts
          | _ => cases claims
  | getFirst =>
      have resting : AtRest (state.callers.queues port.source).length
          (state.callers.queues port.source).list (contents port.source) :=
        sound.shaped thread _ ((sound.guarded.inside_iff found).mp rfl) found
      obtain ⟨first, rest, holds⟩ := List.exists_cons_of_ne_nil (sound.claimed found rfl)
      rw [holds] at resting
      intro none_
      rw [resting.holds.first_cons] at none_
      cases none_
  | wait | timedwait =>
      rcases call_ with rfl | rfl | ⟨header, rfl⟩ <;>
        simp [Call.Reaches, Mmal.Thread.Puts, Mmal.Thread.Gets, Call.start] at reaches
  | returned result | returnedLength length => cases running
  | _ => trivial

end Ready

end RcControl.Camera
