import RcControl.Camera.Startup

namespace RcControl.Camera

open RcControl.Data RcControl.Data.Lifetime

/-! When `mmal_start_camcorder` destroys each resource that it created once, and uses it
only while it exists. -/

section Owned

def Pointers.owns (pointers : Pointers) : Resource → Bool
  | .component .camera => pointers.camera
  | .component .encoder => pointers.encoder
  | .pool .encoderIn | .queue .encoderIn => pointers.encoderIn
  | .pool .encoderOut | .queue .encoderOut => pointers.encoderOut
  | .eventFlags => true

variable {lives : Resource → Life} {owned : Resource → Prop} {target : Resource} {rest : Trace}

/-- What a pointer that is not null points to is destroyed, after uses of what else is
there. -/
theorem clean_given_destroy {condition : Bool} (uses : List Resource) (holds : Holds lives owned)
    (owns : owned target ↔ condition = true) (present : condition = true → ∀ other ∈ uses, owned other)
    (next : ∀ lives, (Holds lives fun resource => owned resource ∧ resource ≠ target) →
      Clean lives rest) :
    Clean lives (given condition (uses.map Op.use ++ [.destroy target]) rest) := by
  cases condition with
  | false => exact next lives (holds.none fun owned => Bool.false_ne_true (owns.mp owned))
  | true =>
      have idle : ∀ op ∈ (uses.map Op.use : Trace), Idle lives op := by
        intro op member
        obtain ⟨other, used, rfl⟩ := List.mem_map.mp member
        exact idle_use holds (present rfl other used)
      have destroying : Clean lives (.destroy target :: rest) :=
        clean_cons.mpr ⟨(holds target).mpr (owns.mpr rfl), next _ (holds.dead target)⟩
      rw [given, if_pos rfl, List.append_assoc]
      exact clean_idle idle destroying

/-- The error label destroys everything there is. -/
theorem errorLabel_clean (pointers : Pointers) (result : InitResult)
    (holds : Holds lives (pointers.owns · = true))
    (encoderIn : pointers.encoderIn = true → pointers.camera = true)
    (encoderOut : pointers.encoderOut = true → pointers.encoder = true) :
    Clean lives (pointers.errorLabel result) := by
  -- The two pools, the two components, the two queues.
  refine clean_given_destroy [.component .camera] holds Iff.rfl
    (by simpa [Pointers.owns] using encoderIn) fun lives holds => ?_
  refine clean_given_destroy [.component .encoder] holds (by simp [Pointers.owns])
    (by simpa [Pointers.owns] using encoderOut) fun lives holds => ?_
  refine clean_given_destroy [] holds (by simp [Pointers.owns]) (by simp) fun lives holds => ?_
  refine clean_given_destroy [] holds (by simp [Pointers.owns]) (by simp) fun lives holds => ?_
  refine clean_given_destroy [] holds (by simp [Pointers.owns]) (by simp) fun lives holds => ?_
  refine clean_given_destroy [] holds (by simp [Pointers.owns]) (by simp) fun lives holds => ?_
  rw [clean_cons]
  apply And.intro ((holds .eventFlags).mpr (by simp [Pointers.owns]))
  have nothing : Clean _ ([] : Trace) := clean_nothing (holds.dead .eventFlags) fun resource => by
    cases resource with
    | component component => cases component <;> simp
    | pool pool | queue pool => cases pool <;> simp
    | eventFlags => simp
  split
  · exact nothing
  · exact clean_cons.mpr ⟨trivial, nothing⟩

theorem fail_clean (pointers : Pointers) (result : InitResult)
    (holds : Holds lives (pointers.owns · = true))
    (encoderIn : pointers.encoderIn = true → pointers.camera = true)
    (encoderOut : pointers.encoderOut = true → pointers.encoder = true) :
    Clean lives (pointers.fail result) :=
  clean_cons.mpr ⟨trivial, errorLabel_clean pointers result holds encoderIn encoderOut⟩

end Owned

section Stages

variable {outcomes : Outcomes} {behaviour : Behaviour} {has : Resource → Bool}
  {lives : Resource → Life} {rest failed : Trace}

theorem idle_useAll (holds : Holds lives (has · = true)) {components : List Component}
    (present : ∀ component ∈ components, has (.component component) = true) :
    ∀ op ∈ useAll components, Idle lives op := by
  intro op member
  obtain ⟨component, used, rfl⟩ := List.mem_map.mp member
  exact idle_use holds (present component used)

theorem idle_attempt {steps : List Step}
    (present : ∀ step ∈ steps, ∀ component ∈ step.uses, has (.component component) = true) :
    ∀ op ∈ attempt outcomes steps, Idle (living has) op := by
  induction steps with
  | nil => exact List.forall_mem_nil _
  | cons step steps ih =>
      obtain ⟨here, later⟩ := List.forall_mem_cons.mp present
      intro op member
      rcases List.mem_append.mp member with now | next
      · exact idle_useAll (holds_living has) here op now
      · split at next
        · exact ih later op next
        · cases next

theorem createComponent_clean {component : Component} {steps : List Step}
    (unborn : has (.component component) = false)
    (uses : ∀ step ∈ steps, ∀ used ∈ step.uses, used = component)
    (mutex : outcomes.create component ≠ .withoutMutex)
    (success : created outcomes component steps = true →
      Clean (living (adding has (.component component))) rest)
    (failure : ∀ lives, Holds lives (has · = true) → Clean lives failed) :
    Clean (living has) (createComponent outcomes component steps ++
      if created outcomes component steps then rest else failed) := by
  cases outcome : outcomes.create component with
  | withoutMutex => exact absurd outcome mutex
  | failed =>
      have bad : created outcomes component steps = false := by simp [created, outcome]
      simp only [createComponent, outcome, bad, Bool.false_eq_true, if_false, List.nil_append]
      exact failure (living has) (holds_living has)
  | created =>
      have all : created outcomes component steps = steps.all (Step.passes outcomes) := by
        simp [created, outcome]
      have present : ∀ step ∈ steps, ∀ used ∈ step.uses,
          adding has (.component component) (.component used) = true := by
        intro step member used found
        simp [adding, uses step member used found]
      simp only [createComponent, outcome, ← all, List.cons_append, List.append_assoc]
      apply clean_create unborn
      apply clean_idle (idle_attempt present)
      split
      · rename_i good
        exact success good
      · exact clean_destroy (holds_living _) unborn failure

theorem setupOutputPort_clean {port : Port} {pool : Pool}
    (owns : has (.component port.component) = true) (noQueue : has (.queue pool) = false)
    (noPool : has (.pool pool) = false)
    (success : outputPortSetUp outcomes pool = true →
      Clean (living (adding (adding has (.queue pool)) (.pool pool))) rest)
    (failure : outputPortSetUp outcomes pool = false →
      ∀ lives, Holds lives (has · = true) → Clean lives failed) :
    Clean (living has) (setupOutputPort outcomes port pool ++
      if outputPortSetUp outcomes pool then rest else failed) := by
  have withQueue : adding has (.queue pool) (.component port.component) = true := by simp [adding, owns]
  have withPool : adding (adding has (.queue pool)) (.pool pool) (.component port.component) = true := by
    simp [adding, owns]
  have stillNoPool : adding has (.queue pool) (.pool pool) = false := by simp [adding, noPool]
  have stillNoQueue : adding has (.pool pool) (.queue pool) = false := by simp [adding, noQueue]
  unfold setupOutputPort outputPortSetUp at *
  cases queueCreated : outcomes.succeeds (.queueCreate pool) with
  | false => exact failure (by simp [queueCreated]) _ (holds_living has)
  | true =>
      apply clean_create noQueue
      apply clean_use withQueue
      cases poolCreated : outcomes.succeeds (.poolCreate pool) with
      | false => exact clean_destroy (holds_living _) noQueue (failure (by simp [poolCreated]))
      | true =>
          apply clean_create stillNoPool
          apply clean_use withPool
          cases enabled : outcomes.succeeds (.outputPortEnable pool) with
          | true => exact success (by simp [queueCreated, poolCreated, enabled])
          | false =>
              -- The queue goes first, although the pool came last.
              rw [adding_comm]
              apply clean_destroy (holds_living _) stillNoQueue
              intro lives holds
              exact clean_destroy holds noPool (failure (by simp [enabled]))

/-- What `connect_ports` leaves behind when it is successful. -/
def connected (behaviour : Behaviour) (has : Resource → Bool) : Resource → Bool :=
  if behaviour.tunneling then has else adding (adding has (.queue .encoderIn)) (.pool .encoderIn)

theorem connectPorts_clean (camera : has (.component .camera) = true)
    (encoder : has (.component .encoder) = true) (noQueue : has (.queue .encoderIn) = false)
    (noPool : has (.pool .encoderIn) = false)
    (input : outParametersSet outcomes behaviour = true → outcomes.succeeds .inputPortEnable = true)
    (success : Clean (living (connected behaviour has)) rest)
    (failure : outParametersSet outcomes behaviour = false →
      ∀ lives, Holds lives (has · = true) → Clean lives failed) :
    Clean (living has) (connectPorts outcomes behaviour ++
      if portsConnected outcomes behaviour then rest else failed) := by
  have components : ∀ component, has (.component component) = true := by
    intro component
    cases component with
    | camera => exact camera
    | encoder => exact encoder
  have attempted : ∀ steps, ∀ op ∈ attempt outcomes steps, Idle (living has) op :=
    fun steps => idle_attempt fun _ _ component _ => components component
  unfold connectPorts portsConnected outParametersSet connected at *
  rw [List.append_assoc]
  apply clean_idle (attempted formatSteps)
  cases formats : formatSteps.all (Step.passes outcomes) with
  | false => exact failure (by simp [formats]) _ (holds_living has)
  | true =>
      cases tunneling : behaviour.tunneling with
      | true =>
          simp only [tunneling, if_true] at success ⊢
          rw [List.append_assoc]
          apply clean_idle (attempted tunnelSteps)
          have disconnected : ∀ op ∈ (if outcomes.succeeds .portConnect &&
              !outcomes.succeeds .tunnelEnable then useAll [.camera] else []), Idle (living has) op := by
            split
            · exact idle_useAll (holds_living _) fun component _ => components component
            · exact List.forall_mem_nil _
          apply clean_idle disconnected
          split
          · exact success
          · exact failure (by simp [tunneling]) _ (holds_living has)
      | false =>
          simp only [tunneling, Bool.false_eq_true, if_false, if_true] at success ⊢
          rw [List.append_assoc, List.append_assoc]
          apply clean_idle (idle_useAll (holds_living _) fun component _ => components component)
          cases setUp : outputPortSetUp outcomes .encoderIn with
          | true =>
              have enabled := input (by simp [formats, tunneling, setUp])
              have next : Clean (living (adding (adding has (.queue .encoderIn)) (.pool .encoderIn)))
                  (useAll [.encoder] ++ rest) :=
                clean_idle (idle_useAll (holds_living _) fun component _ => by simp [adding, components]) success
              have clean := @setupOutputPort_clean outcomes has (useAll [.encoder] ++ rest) [] .videoPort
                .encoderIn camera noQueue noPool (fun _ => next) (by simp [setUp])
              simpa [setUp, enabled] using clean
          | false =>
              have next : ∀ lives, Holds lives (has · = true) → Clean lives (connectError false ++ failed) := by
                intro lives holds
                rw [connectError, if_neg Bool.false_ne_true, List.append_nil]
                exact clean_idle (idle_useAll holds fun component _ => components component)
                  (failure (by simp [setUp]) lives holds)
              have clean := @setupOutputPort_clean outcomes has [] (connectError false ++ failed) .videoPort
                .encoderIn camera noQueue noPool (by simp [setUp]) (fun _ => next)
              simpa [setUp] using clean

theorem fillPortFromPool_idle {port : Port} {pool : Pool} (statuses : List Status)
    (owns : has (.component port.component) = true) (hasPool : has (.pool pool) = true) :
    ∀ op ∈ fillPortFromPool port pool statuses, Idle (living has) op := by
  have usePool : Idle (living has) (.use (.pool pool) : Op Resource Note) :=
    idle_use (holds_living has) hasPool
  have usePort : Idle (living has) (.use (.component port.component) : Op Resource Note) :=
    idle_use (holds_living has) owns
  induction statuses with
  | nil => exact List.forall_mem_singleton.mpr usePool
  | cons status statuses ih =>
      rw [fillPortFromPool, List.forall_mem_append]
      apply And.intro
      · simp only [List.forall_mem_cons]
        exact ⟨usePool, usePool, usePort, List.forall_mem_nil _⟩
      · split
        · exact ih
        · exact List.forall_mem_singleton.mpr usePool

theorem sendBufferFromQueue_idle (status : Option Status) (encoder : has (.component .encoder) = true)
    (hasQueue : has (.queue .encoderIn) = true) :
    ∀ op ∈ sendBufferFromQueue status, Idle (living has) op := by
  have useQueue : Idle (living has) (.use (.queue .encoderIn) : Op Resource Note) :=
    idle_use (holds_living has) hasQueue
  have useEncoder : Idle (living has) (.use (.component .encoder) : Op Resource Note) :=
    idle_use (holds_living has) encoder
  cases status with
  | none => exact List.forall_mem_singleton.mpr useQueue
  | some status =>
      rw [sendBufferFromQueue, List.forall_mem_append]
      apply And.intro
      · simp only [List.forall_mem_cons]
        exact ⟨useQueue, useEncoder, List.forall_mem_nil _⟩
      · split
        · exact List.forall_mem_nil _
        · exact List.forall_mem_singleton.mpr useQueue

theorem given_idle {condition : Bool} {front : Trace}
    (first : condition = true → ∀ op ∈ front, Idle lives op) (next : ∀ op ∈ rest, Idle lives op) :
    ∀ op ∈ given condition front rest, Idle lives op := by
  cases condition with
  | false => exact next
  | true => exact List.forall_mem_append.mpr ⟨first rfl, next⟩

theorem ite_idle {condition : Prop} [Decidable condition]
    (first : ∀ op ∈ rest, Idle lives op) : ∀ op ∈ (if condition then rest else []), Idle lives op := by
  split
  · exact first
  · exact List.forall_mem_nil _

/-- The main loop uses what there is, and creates and destroys nothing. -/
theorem mainLoop_idle (rounds : List Round) (components : ∀ component, has (.component component) = true)
    (flags : has .eventFlags = true) (poolOut : has (.pool .encoderOut) = true)
    (queueOut : has (.queue .encoderOut) = true)
    (encoderIn : behaviour.tunneling = false →
      has (.pool .encoderIn) = true ∧ has (.queue .encoderIn) = true) :
    ∀ op ∈ mainLoop behaviour rounds, Idle (living has) op := by
  have holds := holds_living has
  have useFlags : Idle (living has) (.use .eventFlags : Op Resource Note) := idle_use holds flags
  have useQueue : Idle (living has) (.use (.queue .encoderOut) : Op Resource Note) :=
    idle_use holds queueOut
  have usePool : Idle (living has) (.use (.pool .encoderOut) : Op Resource Note) :=
    idle_use holds poolOut
  induction rounds with
  | nil => exact List.forall_mem_singleton.mpr useFlags
  | cons round rounds ih =>
      have parameters : ∀ op ∈ useAll (List.replicate round.parameters .camera), Idle (living has) op :=
        idle_useAll holds fun component _ => components component
      have fillVideoPort : (!behaviour.tunneling) = true →
          ∀ op ∈ fillPortFromPool .videoPort .encoderIn round.fillVideoPort, Idle (living has) op := by
        intro direct
        exact fillPortFromPool_idle _ (components _) (encoderIn (by simpa using direct)).1
      have fillEncoderOutput : ∀ op ∈ fillPortFromPool .encoderOutput .encoderOut round.fillEncoderOutput,
          Idle (living has) op := fillPortFromPool_idle _ (components _) poolOut
      have sendEncoderInput : (!behaviour.tunneling) = true →
          ∀ op ∈ sendBufferFromQueue round.sendEncoderInput, Idle (living has) op := by
        intro direct
        exact sendBufferFromQueue_idle _ (components _) (encoderIn (by simpa using direct)).2
      have packet : ∀ op ∈ given round.packet [.use (.pool .encoderOut)] (mainLoop behaviour rounds),
          Idle (living has) op := given_idle (fun _ => List.forall_mem_singleton.mpr usePool) ih
      rw [mainLoop]
      split
      · exact List.forall_mem_singleton.mpr useFlags
      · -- From the top of the round to its end.
        apply List.forall_mem_append.mpr ⟨List.forall_mem_cons.mpr ⟨useFlags, parameters⟩, _⟩
        apply given_idle fillVideoPort
        apply ite_idle
        apply List.forall_mem_append.mpr ⟨fillEncoderOutput, _⟩
        apply ite_idle
        apply given_idle sendEncoderInput
        apply ite_idle
        exact List.forall_mem_cons.mpr ⟨useQueue, packet⟩

theorem captureStage_clean (outcomes : Outcomes) (behaviour : Behaviour) (rounds : List Round) :
    Clean (living (Pointers.owns ⟨true, true, !behaviour.tunneling, true⟩))
      (captureStage outcomes behaviour rounds) := by
  have components : ∀ component,
      Pointers.owns ⟨true, true, !behaviour.tunneling, true⟩ (.component component) = true := by
    intro component
    cases component <;> rfl
  apply clean_use (components .camera)
  split
  · have notes : ∀ op ∈ ([.note (.initResult .success), .note .post] : Trace),
        Idle (living (Pointers.owns ⟨true, true, !behaviour.tunneling, true⟩)) op := by
      simp [Idle, Allowed, apply]
    rw [List.append_assoc, List.append_assoc]
    have encoderIn : behaviour.tunneling = false →
        Pointers.owns ⟨true, true, !behaviour.tunneling, true⟩ (.pool .encoderIn) = true ∧
          Pointers.owns ⟨true, true, !behaviour.tunneling, true⟩ (.queue .encoderIn) = true := by
      intro direct
      simp [Pointers.owns, direct]
    apply clean_idle notes
    apply clean_idle (mainLoop_idle rounds components rfl rfl rfl encoderIn)
    apply clean_idle (idle_useAll (holds_living _) fun component _ => components component)
    exact errorLabel_clean _ _ (holds_living _) (fun _ => rfl) (fun _ => rfl)
  · exact fail_clean _ _ (holds_living _) (fun _ => rfl) (fun _ => rfl)

theorem encoderOutStage_clean (outcomes : Outcomes) (behaviour : Behaviour) (rounds : List Round) :
    Clean (living (Pointers.owns ⟨true, true, !behaviour.tunneling, false⟩))
      (encoderOutStage outcomes behaviour rounds) := by
  apply setupOutputPort_clean rfl rfl rfl
  · intro _
    have owns : adding (adding (Pointers.owns ⟨true, true, !behaviour.tunneling, false⟩)
        (.queue .encoderOut)) (.pool .encoderOut) =
        Pointers.owns ⟨true, true, !behaviour.tunneling, true⟩ := by
      funext resource
      rcases resource with (_ | _) | (_ | _) | (_ | _) | _ <;> simp [adding, Pointers.owns]
    rw [owns]
    exact captureStage_clean outcomes behaviour rounds
  · intro _ lives holds
    exact fail_clean _ _ holds (fun _ => rfl) (by simp)

/-- The answers with which the function destroys what it created once, and nothing else. -/
structure WellAnswered (outcomes : Outcomes) (behaviour : Behaviour) : Prop where
  flags : outcomes.succeeds .vcosEventFlagsCreate = true
  camera : outcomes.create .camera ≠ .withoutMutex
  encoder : cameraCreated outcomes behaviour = true → behaviour.vformatParses = true →
    outcomes.create .encoder ≠ .withoutMutex
  input : cameraCreated outcomes behaviour = true → encoderCreated outcomes behaviour = true →
    outParametersSet outcomes behaviour = true → outcomes.succeeds .inputPortEnable = true

theorem encoderInStage_clean (rounds : List Round)
    (input : outParametersSet outcomes behaviour = true → outcomes.succeeds .inputPortEnable = true) :
    Clean (living (Pointers.owns ⟨true, true, false, false⟩))
      (encoderInStage outcomes behaviour rounds) := by
  apply connectPorts_clean rfl rfl rfl rfl input
  · have owns : connected behaviour (Pointers.owns ⟨true, true, false, false⟩) =
        Pointers.owns ⟨true, true, !behaviour.tunneling, false⟩ := by
      funext resource
      cases tunneling : behaviour.tunneling <;>
        rcases resource with (_ | _) | (_ | _) | (_ | _) | _ <;>
          simp [connected, tunneling, adding, Pointers.owns]
    rw [owns]
    exact encoderOutStage_clean outcomes behaviour rounds
  · intro unset lives holds
    rw [unset]
    exact fail_clean _ _ holds (by simp) (by simp)

theorem cameraSteps_uses (behaviour : Behaviour) :
    ∀ step ∈ cameraSteps behaviour, ∀ used ∈ step.uses, used = .camera := by
  cases zeroCopy : behaviour.zeroCopy <;> cases changeHdr : behaviour.changeHdr <;>
    simp [cameraSteps, given, zeroCopy, changeHdr, Step.uses]

theorem encoderSteps_uses (behaviour : Behaviour) :
    ∀ step ∈ encoderSteps behaviour, ∀ used ∈ step.uses, used = .encoder := by
  cases zeroCopy : behaviour.zeroCopy <;> simp [encoderSteps, given, zeroCopy, Step.uses]

theorem encoderStage_clean (rounds : List Round)
    (mutex : behaviour.vformatParses = true → outcomes.create .encoder ≠ .withoutMutex)
    (input : encoderCreated outcomes behaviour = true → outParametersSet outcomes behaviour = true →
      outcomes.succeeds .inputPortEnable = true) :
    Clean (living (Pointers.owns ⟨true, false, false, false⟩))
      (encoderStage outcomes behaviour rounds) := by
  have failure : ∀ lives, Holds lives (Pointers.owns ⟨true, false, false, false⟩ · = true) →
      Clean lives (Pointers.fail ⟨true, false, false, false⟩ .errorEncoder) :=
    fun lives holds => fail_clean _ _ holds (by simp) (by simp)
  unfold encoderStage testVideoEncoderCreate encoderCreated
  cases parses : behaviour.vformatParses with
  | false => exact failure _ (holds_living _)
  | true =>
      simp only [if_true, Bool.true_and]
      apply createComponent_clean rfl (encoderSteps_uses behaviour) (mutex parses) _ failure
      intro good
      have owns : adding (Pointers.owns ⟨true, false, false, false⟩) (.component .encoder) =
          Pointers.owns ⟨true, true, false, false⟩ := by
        funext resource
        rcases resource with (_ | _) | (_ | _) | (_ | _) | _ <;> simp [adding, Pointers.owns]
      rw [owns]
      have stage := encoderInStage_clean rounds (input (by simp [encoderCreated, parses, good]))
      exact clean_use rfl (clean_cons.mpr ⟨rfl, stage⟩)

theorem mmalStartCamcorder_clean (rounds : List Round) (answered : WellAnswered outcomes behaviour) :
    Clean (fun _ => .unborn) (mmalStartCamcorder outcomes behaviour rounds) := by
  have start : (fun _ => .unborn) = living fun _ : Resource => false := rfl
  have flags : adding (fun _ => false) .eventFlags = Pointers.owns ⟨false, false, false, false⟩ := by
    funext resource
    rcases resource with (_ | _) | (_ | _) | (_ | _) | _ <;> simp [adding, Pointers.owns]
  have camera : adding (Pointers.owns ⟨false, false, false, false⟩) (.component .camera) =
      Pointers.owns ⟨true, false, false, false⟩ := by
    funext resource
    rcases resource with (_ | _) | (_ | _) | (_ | _) | _ <;> simp [adding, Pointers.owns]
  rw [mmalStartCamcorder, if_pos answered.flags, start]
  apply clean_create rfl
  rw [flags]
  apply createComponent_clean rfl (cameraSteps_uses behaviour) answered.camera
  · intro good
    rw [camera]
    exact clean_use rfl (encoderStage_clean rounds (answered.encoder good) (answered.input good))
  · intro lives holds
    exact fail_clean _ _ holds (by simp) (by simp)

end Stages

section Defects

variable {outcomes : Outcomes} {behaviour : Behaviour} {rounds : List Round}

theorem attempt_uses {steps : List Step} : ∀ op ∈ attempt outcomes steps, ∃ resource, op = .use resource := by
  induction steps with
  | nil => exact List.forall_mem_nil _
  | cons step steps ih =>
      rw [attempt, List.forall_mem_append]
      apply And.intro
      · intro op member
        obtain ⟨component, _, rfl⟩ := List.mem_map.mp member
        exact ⟨_, rfl⟩
      · split
        · exact ih
        · exact List.forall_mem_nil _

theorem create_notMem {component other : Component} {steps : List Step} (different : other ≠ component) :
    .create (.component other) ∉ createComponent outcomes component steps := by
  have attempted : .create (.component other) ∉ attempt outcomes steps := by
    intro member
    obtain ⟨_, use⟩ := attempt_uses _ member
    cases use
  cases outcome : outcomes.create component <;>
    simp [createComponent, outcome, different, attempted]

/-- Whoever destroys each resource it created at most once, and no other, was answered well. -/
theorem wellAnswered_of_destroyed
    (destroyed : ∀ resource, (mmalStartCamcorder outcomes behaviour rounds).count (.destroy resource) ≤
      if .create resource ∈ mmalStartCamcorder outcomes behaviour rounds then 1 else 0) :
    WellAnswered outcomes behaviour := by
  have flags : outcomes.succeeds .vcosEventFlagsCreate = true := by
    by_contra failed
    have once := destroyed .eventFlags
    simp [mmalStartCamcorder, failed, Pointers.fail, Pointers.errorLabel, given] at once
  have camera : outcomes.create .camera ≠ .withoutMutex := by
    intro dangling
    have once := destroyed (.component .camera)
    simp [mmalStartCamcorder, flags, cameraStage, testCameraCreate, cameraCreated, created,
      createComponent, dangling, Pointers.fail, Pointers.errorLabel, given] at once
  apply WellAnswered.mk flags camera
  · intro cameraGood parses dangling
    have once := destroyed (.component .encoder)
    have foreign : .create (.component .encoder) ∉ testCameraCreate outcomes behaviour :=
      create_notMem (by decide)
    simp [mmalStartCamcorder, flags, cameraStage, cameraGood, foreign, encoderStage,
      testVideoEncoderCreate, encoderCreated, parses, created,
      createComponent, dangling, Pointers.fail, Pointers.errorLabel, given] at once
  · intro cameraGood encoderGood set
    by_contra failed
    -- The pool is destroyed by `connect_ports`, and then at the error label.
    have once := destroyed (.pool .encoderIn)
    have parts := set
    simp only [outParametersSet, Bool.and_eq_true, Bool.not_eq_true'] at parts
    obtain ⟨⟨formats, tunneling⟩, setUp⟩ := parts
    simp [mmalStartCamcorder, flags, cameraStage, cameraGood, encoderStage, encoderGood,
      encoderInStage, connectPorts, portsConnected, formats, tunneling, setUp, failed, set,
      connectError, Pointers.fail, Pointers.errorLabel, given, List.count_append] at once
    split at once <;> omega

end Defects

theorem resources_disciplined_iff (outcomes : Outcomes) (behaviour : Behaviour) (rounds : List Round)
    (schedule : List Thread) :
    Disciplined (execution outcomes behaviour rounds schedule).whole ↔
      WellAnswered outcomes behaviour ∧
        (Session.machine Resource Note).Along Session.InTime
          (Session.start (mmalStartCamcorder outcomes behaviour rounds)) (schedule.map Thread.turn) := by
  apply Iff.intro
  · intro disciplined
    have destroyed := Session.destroyed_of_run disciplined
    exact ⟨wellAnswered_of_destroyed fun resource => (destroyed resource).le,
      Session.along_inTime disciplined⟩
  · intro both
    obtain ⟨answered, inTime⟩ := both
    exact (Session.run_clean (mmalStartCamcorder_clean rounds answered) inTime).disciplined

/-- The encoder's input cannot be enabled: `connect_ports` destroys the pool and the queue,
and so does the error label. -/
theorem not_resources_disciplined :
    ¬ ∀ outcomes behaviour rounds schedule,
      Disciplined (execution outcomes behaviour rounds schedule).whole := by
  intro every
  let outcomes : Outcomes :=
    { status := fun site => if site = .inputPortEnable then .failure else .success
      create := fun _ => .created }
  let behaviour : Behaviour :=
    { zeroCopy := true, tunneling := false, changeHdr := false, vformatParses := true,
      cameraOutputs := true, encoderPorts := true }
  have once := (every outcomes behaviour [] []).destroyed (.pool .encoderIn)
  revert once
  decide

end RcControl.Camera
