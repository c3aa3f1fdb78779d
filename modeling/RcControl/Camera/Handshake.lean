import RcControl.Camera.Startup

namespace RcControl.Camera

open RcControl.Data

/-! How `start_mmalcam` learns what became of the camcorder thread it has created.

The thread posts the semaphore in two places, after its set-up and behind its error label,
and the second one goes by a field that is success before anything was set.  A call on a
resource that is not there, or not any more, does not come back. -/

/-- `behaviour->init_result` after a trace; the behaviour is static, so it starts at zero. -/
def resultAfter : InitResult → Trace → InitResult :=
  List.foldl fun held op =>
    match op with
    | .note (.initResult result) => result
    | _ => held

/-- All that the set-up does succeeds. -/
def setUp (outcomes : Outcomes) (behaviour : Behaviour) : Bool :=
  outcomes.succeeds .vcosEventFlagsCreate && (cameraCreated outcomes behaviour &&
    (encoderCreated outcomes behaviour && (portsConnected outcomes behaviour &&
      (outputPortSetUp outcomes .encoderOut &&
        Check.isSuccessOrEnosys.accepts (outcomes.status .cameraCapture)))))

/-! `start_mmalcam` and its thread. -/

inductive Starter where
  | createSemaphore
  | createThread
  | wait
  | check
  /-- `result = init_result`, after the check has failed. -/
  | report
  | join
  | delete
  | returned
deriving DecidableEq, Repr

/-- Both threads: the semaphore and its count, the field and what has been read of it, the
resources, and what the camcorder thread has yet to do. -/
structure Handshake where
  starter : Starter
  semaphore : Life
  count : Nat
  initResult : InitResult
  reads : List InitResult
  lives : Resource → Life
  pending : Trace

inductive Party where
  | starter
  | camcorder
deriving DecidableEq, Repr

namespace Handshake

def start (trace : Trace) : Handshake where
  starter := .createSemaphore
  semaphore := .unborn
  count := 0
  initResult := .success
  reads := []
  lives _ := .unborn
  pending := trace

def starterNext (state : Handshake) : Handshake :=
  match state.starter with
  | .createSemaphore => { state with semaphore := .alive, starter := .createThread }
  | .createThread => { state with starter := .wait }
  | .wait =>
      if state.count = 0 then state else { state with count := state.count - 1, starter := .check }
  | .check =>
      { state with
        reads := state.reads ++ [state.initResult]
        starter := if state.initResult = .success then .join else .report }
  | .report => { state with reads := state.reads ++ [state.initResult], starter := .join }
  | .join => if state.pending.isEmpty then { state with starter := .delete } else state
  | .delete => { state with semaphore := .dead, starter := .returned }
  | .returned => state

/-- What a call of `mmal_start_camcorder` that comes back does. -/
def perform (state : Handshake) (op : Op Resource Note) (rest : Trace) : Handshake :=
  let state := { state with lives := Lifetime.apply state.lives op, pending := rest }
  match op with
  | .note (.initResult result) => { state with initResult := result }
  | .note .post => { state with count := state.count + 1 }
  | .create _ | .use _ | .share _ | .destroy _ => state

/-- The next step of `mmal_start_camcorder`, once its thread has been created. -/
def camcorderNext (state : Handshake) : Handshake :=
  if state.starter = .createSemaphore ∨ state.starter = .createThread then state
  else
    match state.pending with
    | [] => state
    | op :: rest => if Lifetime.Allowed state.lives op then state.perform op rest else state

def next (state : Handshake) : Party → Handshake
  | .starter => state.starterNext
  | .camcorder => state.camcorderNext

end Handshake

def handshake : Machine Handshake Party Unit where
  next := Handshake.next
  emit _ _ := ()

/-- What `start_mmalcam` reads; after a failure it looks twice. -/
def readsOf (final : InitResult) : List InitResult :=
  if final = .success then [final] else [final, final]

/-- What is read is the final result, and the semaphore is there for the post. -/
structure Handshake.Handed (final : InitResult) (state : Handshake) : Prop where
  once : state.count ≤ 1
  fresh : state.reads <+: readsOf final
  kept : ∀ rest, state.pending = .note .post :: rest → state.starter ≠ .createSemaphore →
    state.semaphore = .alive
  deleted : state.semaphore = .dead → .note .post ∉ state.pending
  woken : state.pending = [] → state.starter = .wait → 0 < state.count

/-- The post has been made, the wait has returned, and the result has been read. -/
structure Handshake.Answered (final : InitResult) (state : Handshake) : Prop where
  posted : .note .post ∉ state.pending
  taken : state.count = 0
  read : state.reads = readsOf final

/-- How the result of the set-up is handed over. -/
structure HandsOver (outcomes : Outcomes) (behaviour : Behaviour) (trace : Trace) : Prop where
  posts_once : trace.count (.note .post) = 1
  final_at_post : ∀ before after, trace = before ++ .note .post :: after →
    resultAfter .success before = resultAfter .success trace
  success_iff : resultAfter .success trace = .success ↔ setUp outcomes behaviour = true
  enters_iff : .use .eventFlags ∈ trace ↔ setUp outcomes behaviour = true
  rereads : ∃ front pointers, trace = front ++
    Pointers.errorLabel pointers (resultAfter .success front)
  handed : ∀ schedule, handshake.Always (Handshake.Handed (resultAfter .success trace))
    (Handshake.start trace) schedule
  /-- After so many turns of both threads, each of any length and order. -/
  comes : ∀ turns : List (List Party), (∀ turn ∈ turns, ∀ party, party ∈ turn) →
    trace.length + 7 ≤ turns.length →
      (handshake.run (Handshake.start trace) turns.flatten).Answered (resultAfter .success trace)

/-! The notes of a trace. -/

def isSilent : Op Resource Note → Bool
  | .note _ => false
  | _ => true

/-- Neither a note nor a step of the main loop. -/
def isSetUp : Op Resource Note → Bool
  | .note _ | .use .eventFlags => false
  | _ => true

section Silent

variable {trace : Trace}

theorem resultAfter_append (held : InitResult) (front back : Trace) :
    resultAfter held (front ++ back) = resultAfter (resultAfter held front) back :=
  List.foldl_append

theorem resultAfter_silent (held : InitResult) (silent : trace.all isSilent = true) :
    resultAfter held trace = held := by
  induction trace generalizing held with
  | nil => rfl
  | cons op trace ih =>
      rw [List.all_cons, Bool.and_eq_true] at silent
      cases op with
      | note note => cases silent.1
      | create resource | use resource | share resource | destroy resource => exact ih held silent.2

theorem resultAfter_post (held : InitResult) (silent : trace.all isSilent = true) :
    resultAfter held (.note .post :: trace) = held := by
  change resultAfter held trace = held
  exact resultAfter_silent held silent

theorem post_notMem_of_silent (silent : trace.all isSilent = true) : .note .post ∉ trace := by
  intro member
  exact Bool.false_ne_true (List.all_eq_true.mp silent _ member)

theorem silent_of_setUp (quiet : trace.all isSetUp = true) : trace.all isSilent = true := by
  apply List.all_eq_true.mpr
  intro op member
  have step := List.all_eq_true.mp quiet op member
  cases op with
  | note note => cases step
  | create resource | use resource | share resource | destroy resource => rfl

theorem eventFlags_notMem_of_setUp (quiet : trace.all isSetUp = true) :
    .use .eventFlags ∉ trace := by
  intro member
  exact Bool.false_ne_true (List.all_eq_true.mp quiet _ member)

end Silent

section Parts

variable (outcomes : Outcomes) (behaviour : Behaviour)

@[simp] theorem useAll_setUp (components : List Component) :
    (useAll components).all isSetUp = true := by
  simp [useAll, isSetUp]

@[simp] theorem all_given (keep : Op Resource Note → Bool) (condition : Bool) (items rest : Trace) :
    (given condition items rest).all keep = ((!condition || items.all keep) && rest.all keep) := by
  cases condition <;> simp [given]

@[simp] theorem attempt_setUp (steps : List Step) :
    (attempt outcomes steps).all isSetUp = true := by
  induction steps with
  | nil => rfl
  | cons step steps ih =>
      rw [attempt, List.all_append, useAll_setUp]
      split
      · exact ih
      · rfl

@[simp] theorem createComponent_setUp (component : Component) (steps : List Step) :
    (createComponent outcomes component steps).all isSetUp = true := by
  unfold createComponent
  split
  · rfl
  · rfl
  · rw [List.cons_append, List.all_cons, List.all_append, attempt_setUp]
    split <;> rfl

@[simp] theorem setupOutputPort_setUp (port : Port) (pool : Pool) :
    (setupOutputPort outcomes port pool).all isSetUp = true := by
  unfold setupOutputPort
  split
  · split
    · split <;> rfl
    · rfl
  · rfl

@[simp] theorem connectPorts_setUp : (connectPorts outcomes behaviour).all isSetUp = true := by
  have error (setUp : Bool) : (connectError setUp).all isSetUp = true := by
    cases setUp <;> rfl
  unfold connectPorts
  rw [List.all_append, attempt_setUp, Bool.true_and]
  split
  · split
    · rw [List.all_append, attempt_setUp, Bool.true_and]
      split
      · exact useAll_setUp _
      · rfl
    · rw [List.all_append, List.all_append, useAll_setUp, setupOutputPort_setUp, Bool.true_and,
        Bool.true_and]
      split
      · rw [List.all_append, useAll_setUp, Bool.true_and]
        split
        · rfl
        · exact error true
      · exact error false
  · rfl

theorem fillPortFromPool_silent (port : Port) (pool : Pool) (statuses : List Status) :
    (fillPortFromPool port pool statuses).all isSilent = true := by
  induction statuses with
  | nil => rfl
  | cons status statuses ih =>
      rw [fillPortFromPool, List.all_append]
      split
      · exact ih
      · rfl

theorem sendBufferFromQueue_silent (status : Option Status) :
    (sendBufferFromQueue status).all isSilent = true := by
  cases status with
  | none => rfl
  | some status =>
      rw [sendBufferFromQueue, List.all_append]
      split <;> rfl

theorem mainLoop_silent (rounds : List Round) :
    (mainLoop behaviour rounds).all isSilent = true := by
  induction rounds with
  | nil => rfl
  | cons round rounds ih =>
      have parameters := silent_of_setUp (useAll_setUp (List.replicate round.parameters .camera))
      rw [mainLoop]
      split
      · rfl
      · rw [List.cons_append, List.all_cons, List.all_append, parameters, all_given,
          fillPortFromPool_silent, Bool.or_true]
        split
        · rw [List.all_append, fillPortFromPool_silent]
          split
          · rw [all_given, sendBufferFromQueue_silent, Bool.or_true]
            split
            · rw [List.all_cons, all_given, ih]
              simp [isSilent]
            · rfl
          · rfl
        · rfl

theorem eventFlags_mem_mainLoop (rounds : List Round) :
    .use .eventFlags ∈ mainLoop behaviour rounds := by
  cases rounds with
  | nil => exact List.mem_singleton_self _
  | cons round rounds =>
      rw [mainLoop]
      split
      · exact List.mem_singleton_self _
      · exact List.mem_cons_self

end Parts

/-- How the trace ends: the set-up fails on the way, or the main loop is entered. -/
inductive Ends : Bool → Trace → Prop where
  | fails (front : Trace) (pointers : Pointers) {result : InitResult}
      (quiet : front.all isSetUp = true) (failed : result ≠ .success) :
      Ends false (front ++ pointers.fail result)
  | enters (front : Trace) {loop : Trace} (pointers : Pointers) (quiet : front.all isSetUp = true)
      (silent : loop.all isSilent = true) (looped : .use .eventFlags ∈ loop) :
      Ends true (front ++ ([.note (.initResult .success), .note .post] ++ loop ++
        pointers.errorLabel .success))

section Stages

variable (outcomes : Outcomes) (behaviour : Behaviour) (rounds : List Round)

theorem Ends.prepend {good : Bool} {trace : Trace} (front : Trace)
    (quiet : front.all isSetUp = true) (ends : Ends good trace) : Ends good (front ++ trace) := by
  cases ends with
  | fails before pointers quietBefore failed =>
      rw [← List.append_assoc]
      exact .fails _ pointers (by rw [List.all_append, quiet, quietBefore]; rfl) failed
  | enters before pointers quietBefore silent looped =>
      rw [← List.append_assoc]
      exact .enters _ pointers (by rw [List.all_append, quiet, quietBefore]; rfl) silent looped

/-- A stage that succeeds goes on to the next one; one that fails sets the result. -/
theorem Ends.stage (good : Bool) {next : Bool} {front trace : Trace} (pointers : Pointers)
    (result : InitResult) (quiet : front.all isSetUp = true) (failed : result ≠ .success)
    (ends : Ends next trace) :
    Ends (good && next) (front ++ if good = true then trace else pointers.fail result) := by
  cases good with
  | true => exact ends.prepend front quiet
  | false => exact .fails front pointers quiet failed

theorem captureStage_ends :
    Ends (Check.isSuccessOrEnosys.accepts (outcomes.status .cameraCapture))
      (captureStage outcomes behaviour rounds) := by
  unfold captureStage
  dsimp only
  rw [← List.singleton_append]
  apply Ends.prepend _ rfl
  split
  · rename_i accepted
    rw [accepted, List.append_assoc _ (mainLoop behaviour rounds)]
    refine Ends.enters [] _ rfl ?_ ?_
    · rw [List.all_append, mainLoop_silent]
      rfl
    · exact List.mem_append_left _ (eventFlags_mem_mainLoop behaviour rounds)
  · rename_i refused
    rw [Bool.not_eq_true] at refused
    rw [refused]
    exact Ends.fails [] _ rfl (by decide)

theorem mmalStartCamcorder_ends :
    Ends (setUp outcomes behaviour) (mmalStartCamcorder outcomes behaviour rounds) := by
  have encoderOut := Ends.stage (outputPortSetUp outcomes .encoderOut)
    ⟨true, true, !behaviour.tunneling, false⟩ .errorEncoderOut
    (setupOutputPort_setUp outcomes .encoderOutput .encoderOut) (by decide)
    (captureStage_ends outcomes behaviour rounds)
  have encoderIn := Ends.stage (portsConnected outcomes behaviour)
    ⟨true, true, outParametersSet outcomes behaviour, false⟩ .errorEncoderIn
    (connectPorts_setUp outcomes behaviour) (by decide) encoderOut
  have encoder := Ends.stage (encoderCreated outcomes behaviour)
    ⟨true, false, false, false⟩ .errorEncoder
    (show (testVideoEncoderCreate outcomes behaviour).all isSetUp = true by
      unfold testVideoEncoderCreate
      split
      · exact createComponent_setUp _ _ _
      · rfl)
    (by decide)
    (encoderIn.prepend [.use (.component .encoder), .share (.component .encoder)] rfl)
  have camera := Ends.stage (cameraCreated outcomes behaviour)
    ⟨false, false, false, false⟩ .errorCamera
    (show (testCameraCreate outcomes behaviour).all isSetUp = true from createComponent_setUp _ _ _)
    (by decide) (encoder.prepend [.use (.component .camera)] rfl)
  exact Ends.stage (outcomes.succeeds .vcosEventFlagsCreate) ⟨false, false, false, false⟩
    .errorEventFlags (show ([] : Trace).all isSetUp = true from rfl) (by decide) (camera.prepend [.create .eventFlags] rfl)

end Stages

theorem given_append (condition : Bool) (items rest tail : Trace) :
    given condition items (rest ++ tail) = given condition items rest ++ tail := by
  cases condition <;> simp [given]

theorem errorLabel_eq (pointers : Pointers) (result : InitResult) :
    ∃ label : Trace, label.all isSetUp = true ∧
      pointers.errorLabel result = label ++ if result = .success then [] else [.note .post] := by
  refine ⟨pointers.errorLabel .success, ?_, ?_⟩
  · simp [Pointers.errorLabel, isSetUp]
  · simp only [Pointers.errorLabel, if_true, ← given_append, List.cons_append, List.nil_append]

/-- A trace with one post, before which the result is set for good. -/
structure PostsResult (good : Bool) (trace before after : Trace) : Prop where
  split : trace = before ++ .note .post :: after
  first : .note .post ∉ before
  silent : after.all isSilent = true
  success_iff : resultAfter .success before = .success ↔ good = true
  enters_iff : .use .eventFlags ∈ trace ↔ good = true
  rereads : ∃ front pointers, trace = front ++
    Pointers.errorLabel pointers (resultAfter .success front)
  /-- The error label ends with the post. -/
  last : good = false → after = []

theorem resultAfter_set (front : Trace) (result : InitResult) {rest : Trace}
    (silent : rest.all isSilent = true) :
    resultAfter .success (front ++ .note (.initResult result) :: rest) = result := by
  rw [resultAfter_append]
  exact resultAfter_silent result silent

theorem Ends.postsResult {good : Bool} {trace : Trace} (ends : Ends good trace) :
    ∃ before after, PostsResult good trace before after := by
  cases ends with
  | @fails front pointers result quiet failed =>
      obtain ⟨label, labelQuiet, label_eq⟩ := errorLabel_eq pointers result
      rw [if_neg failed] at label_eq
      have set := resultAfter_set front result (silent_of_setUp labelQuiet)
      have setOnly : resultAfter .success (front ++ [.note (.initResult result)]) = result :=
        resultAfter_set front result rfl
      refine ⟨front ++ .note (.initResult result) :: label, [], ?_, ?_, rfl, ?_, ?_, ?_, fun _ => rfl⟩
      · rw [Pointers.fail, label_eq, List.append_assoc, List.cons_append]
      · have quietFront := post_notMem_of_silent (silent_of_setUp quiet)
        have quietLabel := post_notMem_of_silent (silent_of_setUp labelQuiet)
        simp [quietFront, quietLabel]
      · rw [set]
        exact iff_of_false failed Bool.false_ne_true
      · rw [Pointers.fail, label_eq]
        have quietFront := eventFlags_notMem_of_setUp quiet
        have quietLabel := eventFlags_notMem_of_setUp labelQuiet
        simp [quietFront, quietLabel]
      · refine ⟨front ++ [.note (.initResult result)], pointers, ?_⟩
        rw [setOnly, List.append_assoc]
        rfl
  | @enters front loop pointers quiet silent looped =>
      obtain ⟨label, labelQuiet, label_eq⟩ := errorLabel_eq pointers .success
      rw [if_pos rfl, List.append_nil] at label_eq
      have set : resultAfter .success (front ++ [.note (.initResult .success)]) = .success :=
        resultAfter_set front .success rfl
      refine ⟨front ++ [.note (.initResult .success)], loop ++ label, ?_, ?_, ?_, ?_, ?_, ?_, by simp⟩
      · rw [label_eq]
        simp
      · have quietFront := post_notMem_of_silent (silent_of_setUp quiet)
        simp [quietFront]
      · rw [List.all_append, silent, silent_of_setUp labelQuiet]
        rfl
      · rw [set]
        exact iff_of_true rfl rfl
      · refine iff_of_true ?_ rfl
        simp [looped]
      · refine ⟨front ++ ([.note (.initResult .success), .note .post] ++ loop), pointers, ?_⟩
        have kept : resultAfter .success
            (front ++ ([.note (.initResult .success), .note .post] ++ loop)) = .success := by
          rw [resultAfter_append, resultAfter_append, resultAfter_silent _ silent]
          rfl
        rw [kept]
        simp only [List.append_assoc]

section Posted

variable {good : Bool} {trace before after done pending : Trace}

theorem PostsResult.final (posts : PostsResult good trace before after) :
    resultAfter .success trace = resultAfter .success before := by
  rw [posts.split, resultAfter_append]
  exact resultAfter_post _ posts.silent

theorem PostsResult.once (posts : PostsResult good trace before after) :
    trace.count (.note .post) = 1 := by
  rw [posts.split, List.count_append, List.count_cons_self, List.count_eq_zero.mpr posts.first,
    List.count_eq_zero.mpr (post_notMem_of_silent posts.silent)]

/-- There is one way to split the trace at a post. -/
theorem PostsResult.unique (posts : PostsResult good trace before after) {front back : Trace}
    (split : trace = front ++ .note .post :: back) : before = front ∧ after = back := by
  rw [posts.split] at split
  have same := (List.append_cons_inj_of_notMem posts.first
    (post_notMem_of_silent posts.silent)).mp split
  exact ⟨same.1, same.2.2⟩

/-- Once the post is done, the field has its final value and no post is to come. -/
theorem PostsResult.posted (posts : PostsResult good trace before after)
    (history : trace = done ++ pending) (posted : .note .post ∈ done) :
    resultAfter .success done = resultAfter .success trace ∧ .note .post ∉ pending := by
  obtain ⟨front, back, rfl⟩ := List.append_of_mem posted
  rw [List.append_assoc, List.cons_append] at history
  obtain ⟨rfl, rfl⟩ := posts.unique history
  have silent := posts.silent
  rw [List.all_append, Bool.and_eq_true] at silent
  apply And.intro
  · rw [posts.final, resultAfter_append]
    exact resultAfter_post _ silent.1
  · exact post_notMem_of_silent silent.2

end Posted

/-! The two threads together. -/

/-- Where `start_mmalcam` stands, by what its thread has done. -/
def Handshake.Stage (final : InitResult) (done : Trace) (state : Handshake) : Prop :=
  match state.starter with
  | .createSemaphore =>
      state.semaphore = .unborn ∧ done = [] ∧ state.count = 0 ∧ state.reads = []
  | .createThread => state.semaphore = .alive ∧ done = [] ∧ state.count = 0 ∧ state.reads = []
  | .wait =>
      state.semaphore = .alive ∧ state.count = done.count (.note .post) ∧ state.reads = []
  | .check =>
      state.semaphore = .alive ∧ state.count + 1 = done.count (.note .post) ∧ state.reads = []
  | .report =>
      state.semaphore = .alive ∧ state.count + 1 = done.count (.note .post) ∧
        final ≠ .success ∧ state.reads = [final]
  | .join =>
      state.semaphore = .alive ∧ state.count + 1 = done.count (.note .post) ∧
        state.reads = readsOf final
  | .delete =>
      state.semaphore = .alive ∧ state.count + 1 = done.count (.note .post) ∧
        state.reads = readsOf final ∧ state.pending = []
  | .returned =>
      state.semaphore = .dead ∧ state.count + 1 = done.count (.note .post) ∧
        state.reads = readsOf final ∧ state.pending = []

structure Handshake.Stands (trace done : Trace) (state : Handshake) : Prop where
  history : trace = done ++ state.pending
  field : state.initResult = resultAfter .success done
  stage : state.Stage (resultAfter .success trace) done
  legal : Lifetime.Legal (fun _ => .unborn) done
  lives : state.lives = Lifetime.after (fun _ => .unborn) done

section Invariant

variable {good : Bool} {trace before after done : Trace} {state : Handshake}

theorem stands_start (trace : Trace) : (Handshake.start trace).Stands trace [] where
  history := rfl
  field := rfl
  stage := ⟨rfl, rfl, rfl, rfl⟩
  legal := trivial
  lives := rfl

theorem post_mem_of_count {count : Nat} (counted : count + 1 = done.count (.note .post)) :
    .note .post ∈ done :=
  List.count_pos_iff.mp (counted ▸ Nat.succ_pos count)

theorem stands_starter (posts : PostsResult good trace before after)
    (stands : state.Stands trace done) : state.starterNext.Stands trace done := by
  obtain ⟨starter, semaphore, count, initResult, reads, lives, pending⟩ := state
  obtain ⟨history, field, stage, legal, alive⟩ := stands
  change initResult = _ at field
  cases starter with
  | createSemaphore => exact ⟨history, field, ⟨rfl, stage.2⟩, legal, alive⟩
  | createThread =>
      obtain ⟨created, rfl, unposted, unread⟩ := stage
      exact ⟨history, field, ⟨created, unposted, unread⟩, legal, alive⟩
  | wait =>
      obtain ⟨created, counted, unread⟩ := stage
      change count = _ at counted
      by_cases zero : count = 0
      · have blocked : Handshake.starterNext ⟨.wait, semaphore, count, initResult, reads, lives, pending⟩ =
            ⟨.wait, semaphore, count, initResult, reads, lives, pending⟩ := if_pos zero
        rw [blocked]
        exact ⟨history, field, ⟨created, counted, unread⟩, legal, alive⟩
      · have taken : Handshake.starterNext ⟨.wait, semaphore, count, initResult, reads, lives, pending⟩ =
            ⟨.check, semaphore, count - 1, initResult, reads, lives, pending⟩ := if_neg zero
        rw [taken]
        refine ⟨history, field, ⟨created, ?_, unread⟩, legal, alive⟩
        change count - 1 + 1 = _
        rw [← counted, Nat.sub_one_add_one zero]
  | check =>
      obtain ⟨created, counted, unread⟩ := stage
      have final := (posts.posted history (post_mem_of_count counted)).1
      rw [← field] at final
      change reads = [] at unread
      subst unread
      by_cases success : initResult = .success
      · have next : Handshake.starterNext ⟨.check, semaphore, count, initResult, [], lives, pending⟩ =
            ⟨.join, semaphore, count, initResult, [initResult], lives, pending⟩ := by
          simp only [Handshake.starterNext, if_pos success, List.nil_append]
        rw [next]
        refine ⟨history, field, ⟨created, counted, ?_⟩, legal, alive⟩
        change [initResult] = _
        rw [readsOf, ← final, if_pos success]
      · have next : Handshake.starterNext ⟨.check, semaphore, count, initResult, [], lives, pending⟩ =
            ⟨.report, semaphore, count, initResult, [initResult], lives, pending⟩ := by
          simp only [Handshake.starterNext, if_neg success, List.nil_append]
        rw [next]
        exact ⟨history, field, ⟨created, counted, final ▸ success, congrArg (fun result => [result]) final⟩,
          legal, alive⟩
  | report =>
      obtain ⟨created, counted, failed, read⟩ := stage
      have final := (posts.posted history (post_mem_of_count counted)).1
      rw [← field] at final
      refine ⟨history, field, ⟨created, counted, ?_⟩, legal, alive⟩
      change reads = [_] at read
      change reads ++ [initResult] = _
      rw [read, final, readsOf, if_neg failed]
      rfl
  | join =>
      obtain ⟨created, counted, read⟩ := stage
      cases pending with
      | nil => exact ⟨history, field, ⟨created, counted, read, rfl⟩, legal, alive⟩
      | cons op rest => exact ⟨history, field, ⟨created, counted, read⟩, legal, alive⟩
  | delete => exact ⟨history, field, ⟨rfl, stage.2⟩, legal, alive⟩
  | returned => exact ⟨history, field, stage, legal, alive⟩

theorem perform_eq {starter : Starter} {semaphore : Life} {count : Nat} {initResult : InitResult}
    {reads : List InitResult} {lives : Resource → Life} (op : Op Resource Note) (pending rest : Trace) :
    Handshake.perform ⟨starter, semaphore, count, initResult, reads, lives, pending⟩ op rest =
      ⟨starter, semaphore, count + [op].count (.note .post), resultAfter initResult [op], reads,
        Lifetime.apply lives op, rest⟩ := by
  cases op with
  | note note => cases note <;> rfl
  | create resource | use resource | share resource | destroy resource => rfl

/-- One operation of the camcorder thread that comes back. -/
theorem stands_op {op : Op Resource Note} {rest : Trace} (stands : state.Stands trace done)
    (next : state.pending = op :: rest) (allowed : Lifetime.Allowed state.lives op)
    (created : ¬ (state.starter = .createSemaphore ∨ state.starter = .createThread)) :
    (state.perform op rest).Stands trace (done ++ [op]) := by
  obtain ⟨starter, semaphore, count, initResult, reads, lives, pending⟩ := state
  obtain ⟨history, field, stage, legal, alive⟩ := stands
  change initResult = _ at field
  change lives = _ at alive
  change pending = _ at next
  subst next
  rw [perform_eq op _ rest]
  refine ⟨by rw [history]; simp, by rw [resultAfter_append, ← field], ?_, ?_, ?_⟩
  · have more : ∀ {past : Nat}, past = done.count (.note .post) →
        past + [op].count (.note .post) = (done ++ [op]).count (.note .post) := by
      rintro past rfl
      rw [List.count_append]
    cases starter with
    | createSemaphore => exact absurd (.inl rfl) created
    | createThread => exact absurd (.inr rfl) created
    | wait =>
        obtain ⟨created, counted, unread⟩ := stage
        exact ⟨created, more counted, unread⟩
    | check | report | join =>
        obtain ⟨created, counted, read⟩ := stage
        have sum := more counted
        rw [Nat.add_right_comm] at sum
        exact ⟨created, sum, read⟩
    | delete | returned =>
        obtain ⟨_, _, _, finished⟩ := stage
        cases finished
  · rw [alive] at allowed
    exact Lifetime.legal_append.mpr ⟨legal, allowed, trivial⟩
  · change Lifetime.apply lives op = _
    rw [Lifetime.after_append, alive]
    rfl

theorem stands_camcorder (stands : state.Stands trace done) :
    ∃ done, state.camcorderNext.Stands trace done := by
  unfold Handshake.camcorderNext
  split
  · exact ⟨done, stands⟩
  · rename_i created
    split
    · exact ⟨done, stands⟩
    · rename_i op rest next
      split
      · rename_i allowed
        exact ⟨done ++ [op], stands_op stands next allowed created⟩
      · exact ⟨done, stands⟩

theorem stands_next (posts : PostsResult good trace before after) (party : Party)
    (stands : ∃ done, state.Stands trace done) : ∃ done, (state.next party).Stands trace done := by
  obtain ⟨done, stands⟩ := stands
  cases party with
  | starter => exact ⟨done, stands_starter posts stands⟩
  | camcorder => exact stands_camcorder stands

theorem PostsResult.count_done (posts : PostsResult good trace before after)
    (stands : state.Stands trace done) :
    done.count (.note .post) + state.pending.count (.note .post) = 1 := by
  rw [← List.count_append, ← stands.history]
  exact posts.once

/-- As long as the semaphore is there, the reads and the wait are all that matters. -/
theorem handed_of_alive {final : InitResult} (once : state.count ≤ 1) (alive : state.semaphore = .alive)
    (fresh : state.reads <+: readsOf final)
    (woken : state.pending = [] → state.starter = .wait → 0 < state.count) :
    state.Handed final where
  once := once
  fresh := fresh
  kept _ _ _ := alive
  deleted dead := absurd (alive.symm.trans dead) (by decide)
  woken := woken

theorem handed_of_stands (posts : PostsResult good trace before after)
    (stands : state.Stands trace done) : state.Handed (resultAfter .success trace) := by
  have single := posts.count_done stands
  obtain ⟨starter, semaphore, count, initResult, reads, lives, pending⟩ := state
  obtain ⟨history, field, stage, -, -⟩ := stands
  change done.count _ + pending.count _ = 1 at single
  cases starter with
  | createSemaphore =>
      obtain ⟨unborn, -, none, unread⟩ := stage
      change reads = [] at unread
      change count = 0 at none
      subst unread none
      refine ⟨Nat.zero_le 1, List.nil_prefix, fun _ _ created => absurd rfl created, ?_, ?_⟩
      · intro dead
        exact absurd (unborn.symm.trans dead) (by decide)
      · intro _ waits
        cases waits
  | createThread =>
      obtain ⟨alive, -, none, unread⟩ := stage
      change reads = [] at unread
      change count = 0 at none
      subst unread none
      apply handed_of_alive (Nat.zero_le 1) alive List.nil_prefix
      intro _ waits
      cases waits
  | wait =>
      obtain ⟨alive, counted, unread⟩ := stage
      change reads = [] at unread
      change count = _ at counted
      subst unread
      apply handed_of_alive (show count ≤ 1 by omega) alive List.nil_prefix
      -- The thread has ended, so its one post is behind it.
      intro finished _
      change pending = [] at finished
      rw [finished, List.count_nil, Nat.add_zero] at single
      change 0 < count
      omega
  | check | report | join =>
      obtain ⟨alive, counted, read⟩ := stage
      change count + 1 = _ at counted
      apply handed_of_alive (show count ≤ 1 by omega) alive
      · first
        | exact (congrArg (· <+: _) read).mpr List.nil_prefix
        | exact (congrArg (· <+: _) read).mpr (List.prefix_refl _)
        | (change reads <+: _
           rw [show reads = _ from read.2, readsOf, if_neg read.1]
           exact ⟨_, rfl⟩)
      · intro _ waits
        cases waits
  | delete | returned =>
      obtain ⟨_, counted, read, finished⟩ := stage
      change count + 1 = _ at counted
      change pending = [] at finished
      subst finished
      refine ⟨show count ≤ 1 by omega, (congrArg (· <+: _) read).mpr (List.prefix_refl _),
        fun rest next => ?_, fun _ => List.not_mem_nil, ?_⟩
      · cases next
      · intro _ waits
        cases waits

theorem run_stands (posts : PostsResult good trace before after) (schedule : List Party) :
    ∃ done, (handshake.run (Handshake.start trace) schedule).Stands trace done := by
  have preserved : ∀ state party, (∃ done, state.Stands trace done) →
      ∃ done, (handshake.next state party).Stands trace done :=
    fun _ party => stands_next posts party
  exact handshake.always_run (handshake.always_of_invariant preserved ⟨[], stands_start trace⟩ schedule)

/-- Whatever the threads do, what is read is the result, and the semaphore is there. -/
theorem always_handed (posts : PostsResult good trace before after) (schedule : List Party) :
    handshake.Always (Handshake.Handed (resultAfter .success trace)) (Handshake.start trace) schedule := by
  have preserved : ∀ state party, (∃ done, state.Stands trace done) →
      ∃ done, (handshake.next state party).Stands trace done :=
    fun _ party => stands_next posts party
  apply handshake.always_mono _
    (handshake.always_of_invariant preserved ⟨[], stands_start trace⟩ schedule)
  intro state reached
  obtain ⟨done, standing⟩ := reached
  exact handed_of_stands posts standing

end Invariant

end RcControl.Camera
