import RcControl.Camera.Circulation
import RcControl.Data.Lifetime

namespace RcControl.Camera

open RcControl.Data

/-! What `mmal_start_camcorder` and the functions it calls create, use and destroy.

Each call is answered by `Outcomes`.  The functions return the trace of what they do and
whether they went well; a port is used through its component. -/

inductive Component where
  | camera
  | encoder
deriving DecidableEq, Repr

def Port.component : Port → Component
  | .videoPort => .camera
  | .encoderInput | .encoderOutput => .encoder

inductive Resource where
  | component (component : Component)
  | pool (pool : Pool)
  | queue (pool : Pool)
  | eventFlags
deriving DecidableEq, Repr

inductive InitResult where
  | success
  | errorEventFlags
  | errorCamera
  | errorEncoder
  | errorEncoderIn
  | errorEncoderOut
  | errorCameraCapture
deriving DecidableEq, Repr

inductive Note where
  /-- `behaviour->init_result` is set. -/
  | initResult (result : InitResult)
  /-- `init_sem` is posted. -/
  | post
deriving DecidableEq, Repr

abbrev Trace := List (Op Resource Note)

inductive Status where
  | success
  | enosys
  | failure
deriving DecidableEq, Repr

/-- How `mmal_component_create` ends.  Without a mutex it frees the component and leaves
the pointer to it in the out-parameter. -/
inductive Creation where
  | created
  | failed
  | withoutMutex
deriving DecidableEq, Repr

/-- The calls whose status is looked at. -/
inductive Site where
  | vcosEventFlagsCreate
  | viewfinderZeroCopy
  | videoZeroCopy
  | stillZeroCopy
  | controlEnable
  | videoFormatCommit
  | cameraEnable
  | encoderFormatCommit
  | encoderOutputZeroCopy
  | encoderInputZeroCopy
  | intraperiod
  | initialQuant
  | minQuant
  | maxQuant
  | profile
  | encoderEnable
  | formatFullCopy
  | inputFormatCommit
  | portConnect
  | tunnelEnable
  | queueCreate (pool : Pool)
  | poolCreate (pool : Pool)
  | outputPortEnable (pool : Pool)
  | inputPortEnable
  | cameraCapture
deriving DecidableEq, Repr

structure Outcomes where
  status : Site → Status
  create : Component → Creation

/-- What the functions read of `behaviour`, and of the components they create. -/
structure Behaviour where
  zeroCopy : Bool
  tunneling : Bool
  changeHdr : Bool
  vformatParses : Bool
  cameraOutputs : Bool
  encoderPorts : Bool
deriving DecidableEq, Repr

/-- One round of the main loop: what it finds, and how its sends end. -/
structure Round where
  stop : Bool
  /-- Calls that set a parameter of the camera. -/
  parameters : Nat
  fillVideoPort : List Status
  fillEncoderOutput : List Status
  sendEncoderInput : Option Status
  packet : Bool
deriving DecidableEq, Repr

inductive Check where
  | isSuccess
  | isSuccessOrEnosys
deriving DecidableEq, Repr

def Check.accepts : Check → Status → Bool
  | .isSuccess, status => status = .success
  | .isSuccessOrEnosys, status => status = .success || status = .enosys

/-- A step on the way to the end of a function or to its error label. -/
inductive Step where
  | call (site : Site) (check : Check) (uses : List Component)
  /-- A call whose status does not matter. -/
  | unchecked (uses : List Component)
  | guard (holds : Bool)
deriving DecidableEq, Repr

/-- What comes first if the condition holds, before the rest. -/
def given {Item : Type} (condition : Bool) (items rest : List Item) : List Item :=
  if condition then items ++ rest else rest

def useAll (components : List Component) : Trace :=
  components.map fun component => .use (.component component)

def Step.uses : Step → List Component
  | .call _ _ uses | .unchecked uses => uses
  | .guard _ => []

def Step.passes (outcomes : Outcomes) : Step → Bool
  | .call site check _ => check.accepts (outcomes.status site)
  | .unchecked _ => true
  | .guard holds => holds

/-- The steps up to the first that does not pass. -/
def attempt (outcomes : Outcomes) : List Step → Trace
  | [] => []
  | step :: steps => useAll step.uses ++ if step.passes outcomes then attempt outcomes steps else []

/-- A component is created and set up; the error label destroys what its pointer is to. -/
def createComponent (outcomes : Outcomes) (component : Component) (steps : List Step) : Trace :=
  match outcomes.create component with
  | .failed => []
  | .withoutMutex => [.destroy (.component component)]
  | .created =>
      .create (.component component) :: attempt outcomes steps ++
        if steps.all (Step.passes outcomes) then [] else [.destroy (.component component)]

def created (outcomes : Outcomes) (component : Component) (steps : List Step) : Bool :=
  outcomes.create component = .created && steps.all (Step.passes outcomes)

section Create

variable (outcomes : Outcomes) (behaviour : Behaviour)

def cameraSteps : List Step :=
  .unchecked [.camera] :: .guard behaviour.cameraOutputs ::
    -- Focus status and camera number: failures are only logged.
    .unchecked [.camera] :: .unchecked [.camera] ::
    given behaviour.zeroCopy
      [.call .viewfinderZeroCopy .isSuccessOrEnosys [.camera],
        .call .videoZeroCopy .isSuccessOrEnosys [.camera],
        .call .stillZeroCopy .isSuccessOrEnosys [.camera]]
      (given behaviour.changeHdr [.unchecked [.camera]]
        [.call .controlEnable .isSuccess [.camera], .guard behaviour.vformatParses,
          .unchecked [.camera], .call .videoFormatCommit .isSuccess [.camera],
          .call .cameraEnable .isSuccess [.camera]])

def testCameraCreate : Trace :=
  createComponent outcomes .camera (cameraSteps behaviour)

def cameraCreated : Bool :=
  created outcomes .camera (cameraSteps behaviour)

def encoderSteps : List Step :=
  .unchecked [.encoder] :: .guard behaviour.encoderPorts ::
    .call .encoderFormatCommit .isSuccess [.encoder] ::
    given behaviour.zeroCopy
      [.call .encoderOutputZeroCopy .isSuccessOrEnosys [.encoder],
        .call .encoderInputZeroCopy .isSuccessOrEnosys [.encoder]]
      -- Inline headers, SPS timing and separate NAL buffers.
      [.unchecked [.encoder], .unchecked [.encoder], .unchecked [.encoder],
        .call .intraperiod .isSuccess [.encoder], .call .initialQuant .isSuccess [.encoder],
        .call .minQuant .isSuccess [.encoder], .call .maxQuant .isSuccess [.encoder],
        .call .profile .isSuccess [.encoder],
        -- Inline vectors and immutable input.
        .unchecked [.encoder], .unchecked [.encoder],
        .call .encoderEnable .isSuccess [.encoder]]

def testVideoEncoderCreate : Trace :=
  if behaviour.vformatParses then createComponent outcomes .encoder (encoderSteps behaviour) else []

def encoderCreated : Bool :=
  behaviour.vformatParses && created outcomes .encoder (encoderSteps behaviour)

end Create

section Connect

variable (outcomes : Outcomes)

def Outcomes.succeeds (site : Site) : Bool :=
  outcomes.status site = .success

/-- `setup_output_port`, for the port that the pool feeds. -/
def setupOutputPort (outputPort : Port) (pool : Pool) : Trace :=
  if outcomes.succeeds (.queueCreate pool) then
    .create (.queue pool) :: .use (.component outputPort.component) ::
      if outcomes.succeeds (.poolCreate pool) then
        .create (.pool pool) :: .use (.component outputPort.component) ::
          if outcomes.succeeds (.outputPortEnable pool) then []
          else [.destroy (.queue pool), .destroy (.pool pool)]
      else [.destroy (.queue pool)]
  else []

def outputPortSetUp (pool : Pool) : Bool :=
  outcomes.succeeds (.queueCreate pool) && outcomes.succeeds (.poolCreate pool) &&
    outcomes.succeeds (.outputPortEnable pool)

def formatSteps : List Step :=
  [.call .formatFullCopy .isSuccess [.encoder, .camera],
    .call .inputFormatCommit .isSuccess [.encoder]]

def tunnelSteps : List Step :=
  [.call .portConnect .isSuccess [.camera, .encoder], .call .tunnelEnable .isSuccess [.camera]]

/-- The error label of `connect_ports`, once the output port is set up or not. -/
def connectError (setUp : Bool) : Trace :=
  useAll [.encoder, .camera] ++
    if setUp then
      -- The output port is enabled, so it is disabled; the pool and the queue are destroyed.
      [.use (.component .camera), .destroy (.pool .encoderIn), .destroy (.queue .encoderIn)]
    else []

def connectPorts (behaviour : Behaviour) : Trace :=
  attempt outcomes formatSteps ++
    if formatSteps.all (Step.passes outcomes) then
      if behaviour.tunneling then
        attempt outcomes tunnelSteps ++
          -- The ports are disconnected if only the second step failed.
          if outcomes.succeeds .portConnect && !outcomes.succeeds .tunnelEnable then
            useAll [.camera]
          else []
      else
        useAll [.encoder, .camera] ++ setupOutputPort outcomes .videoPort .encoderIn ++
          if outputPortSetUp outcomes .encoderIn then
            useAll [.encoder] ++
              if outcomes.succeeds .inputPortEnable then [] else connectError true
          else connectError false
    else []

def portsConnected (behaviour : Behaviour) : Bool :=
  formatSteps.all (Step.passes outcomes) &&
    if behaviour.tunneling then tunnelSteps.all (Step.passes outcomes)
    else outputPortSetUp outcomes .encoderIn && outcomes.succeeds .inputPortEnable

/-- Whether `*p_queue` and `*p_pool` have been set, be the call successful or not. -/
def outParametersSet (behaviour : Behaviour) : Bool :=
  formatSteps.all (Step.passes outcomes) && !behaviour.tunneling && outputPortSetUp outcomes .encoderIn

end Connect

section MainLoop

/-- `fill_port_from_pool`; the statuses are those of the sends there are buffers for. -/
def fillPortFromPool (port : Port) (pool : Pool) : List Status → Trace
  | [] => [.use (.pool pool)]
  | status :: statuses =>
      [.use (.pool pool), .use (.pool pool), .use (.component port.component)] ++
        if status = .success then fillPortFromPool port pool statuses else [.use (.pool pool)]

def filled (statuses : List Status) : Bool :=
  statuses.all (· = .success)

/-- `send_buffer_from_queue` for the encoder's input. -/
def sendBufferFromQueue : Option Status → Trace
  | none => [.use (.queue .encoderIn)]
  | some status =>
      [.use (.queue .encoderIn), .use (.component .encoder)] ++
        if status = .success then [] else [.use (.queue .encoderIn)]

/-- The main loop, which is stopped at the latest after the rounds.  With tunnelling the
pool and the queue of the encoder's input are null and skipped. -/
def mainLoop (behaviour : Behaviour) : List Round → Trace
  | [] => [.use .eventFlags]
  | round :: rounds =>
      if round.stop then [.use .eventFlags]
      else
        .use .eventFlags :: useAll (List.replicate round.parameters .camera) ++
          given (!behaviour.tunneling) (fillPortFromPool .videoPort .encoderIn round.fillVideoPort)
            (if behaviour.tunneling || filled round.fillVideoPort then
              fillPortFromPool .encoderOutput .encoderOut round.fillEncoderOutput ++
                if filled round.fillEncoderOutput then
                  given (!behaviour.tunneling) (sendBufferFromQueue round.sendEncoderInput)
                    (if behaviour.tunneling || round.sendEncoderInput.all (· = .success) then
                      .use (.queue .encoderOut) :: given round.packet [.use (.pool .encoderOut)]
                        (mainLoop behaviour rounds)
                    else [])
                else []
            else [])

/-- The ports and the components are disabled, the statistics read. -/
def teardown : Trace :=
  useAll [.camera, .encoder, .encoder, .encoder, .camera, .encoder]

end MainLoop

/-- The variables of `mmal_start_camcorder` that are not null at its error label. -/
structure Pointers where
  camera : Bool
  encoder : Bool
  encoderIn : Bool
  encoderOut : Bool
deriving DecidableEq, Repr

def Pointers.errorLabel (pointers : Pointers) (result : InitResult) : Trace :=
  given pointers.encoderIn [.use (.component .camera), .destroy (.pool .encoderIn)] <|
  given pointers.encoderOut [.use (.component .encoder), .destroy (.pool .encoderOut)] <|
  given pointers.encoder [.destroy (.component .encoder)] <|
  given pointers.camera [.destroy (.component .camera)] <|
  given pointers.encoderIn [.destroy (.queue .encoderIn)] <|
  given pointers.encoderOut [.destroy (.queue .encoderOut)] <|
  .destroy .eventFlags :: if result = .success then [] else [.note .post]

def Pointers.fail (pointers : Pointers) (result : InitResult) : Trace :=
  .note (.initResult result) :: pointers.errorLabel result

section Camcorder

variable (outcomes : Outcomes) (behaviour : Behaviour) (rounds : List Round)

/-! The stages of `mmal_start_camcorder`, from the last to the first. -/

def captureStage : Trace :=
  let pointers : Pointers := ⟨true, true, !behaviour.tunneling, true⟩
  .use (.component .camera) ::
    if Check.isSuccessOrEnosys.accepts (outcomes.status .cameraCapture) then
      [.note (.initResult .success), .note .post] ++ mainLoop behaviour rounds ++ teardown ++
        pointers.errorLabel .success
    else pointers.fail .errorCameraCapture

def encoderOutStage : Trace :=
  setupOutputPort outcomes .encoderOutput .encoderOut ++
    if outputPortSetUp outcomes .encoderOut then captureStage outcomes behaviour rounds
    else Pointers.fail ⟨true, true, !behaviour.tunneling, false⟩ .errorEncoderOut

def encoderInStage : Trace :=
  connectPorts outcomes behaviour ++
    if portsConnected outcomes behaviour then encoderOutStage outcomes behaviour rounds
    else Pointers.fail ⟨true, true, outParametersSet outcomes behaviour, false⟩ .errorEncoderIn

def encoderStage : Trace :=
  testVideoEncoderCreate outcomes behaviour ++
    if encoderCreated outcomes behaviour then
      -- The global `encoder_output` is set.
      .use (.component .encoder) :: .share (.component .encoder) ::
        encoderInStage outcomes behaviour rounds
    else Pointers.fail ⟨true, false, false, false⟩ .errorEncoder

def cameraStage : Trace :=
  testCameraCreate outcomes behaviour ++
    if cameraCreated outcomes behaviour then
      .use (.component .camera) :: encoderStage outcomes behaviour rounds
    else Pointers.fail ⟨false, false, false, false⟩ .errorCamera

def mmalStartCamcorder : Trace :=
  if outcomes.succeeds .vcosEventFlagsCreate then
    .create .eventFlags :: cameraStage outcomes behaviour rounds
  else Pointers.fail ⟨false, false, false, false⟩ .errorEventFlags

end Camcorder

/-! `request_i_frame` is called by other threads, for the port that is in the global
`encoder_output`; where that is still null, MMAL refuses the call. -/

inductive Thread where
  | camcorder
  | requestIFrame
deriving DecidableEq, Repr

def Thread.turn : Thread → Turn Resource
  | .camcorder => .own
  | .requestIFrame => .visit (.component .encoder)

def execution (outcomes : Outcomes) (behaviour : Behaviour) (rounds : List Round)
    (schedule : List Thread) : Session Resource Note :=
  (Session.machine Resource Note).run (Session.start (mmalStartCamcorder outcomes behaviour rounds))
    (schedule.map Thread.turn)

end RcControl.Camera
