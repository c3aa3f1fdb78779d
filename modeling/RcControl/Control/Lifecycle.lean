import RcControl.Control.Peers

namespace RcControl.Control

open RcControl.Data

/-! The servo objects over the life of the process.

`main` starts the thread of the signalling server before it touches the GPIO library,
so the callbacks of peers can come between any two of its steps. -/

structure GPIO where
  pin : Nat
deriving DecidableEq, Repr

inductive GpioLibrary where
  | uninitialised | initialised | terminated
deriving DecidableEq, Repr

/-- What `main` does next, from the start of `websocket_thread` on. -/
inductive MainStep where
  | gpioInitialise
  | constructBldc | centreBldc | constructSteer | centreSteer
  | joinMmalcamThread
  | gpioTerminate
  | leave
deriving DecidableEq, Repr

structure Process where
  main : MainStep
  library : GpioLibrary
  bldc : Option GPIO
  steer : Option GPIO
  car : Car

inductive ProcessEvent where
  | main
  | peer (event : PeerEvent)

/-- A call of `GPIO::servo`: the object it is made on and the state of the library. -/
structure ServoUse where
  object : Option GPIO
  library : GpioLibrary
deriving DecidableEq, Repr

def ServoUse.Safe (use : ServoUse) : Prop :=
  use.object.isSome = true ∧ use.library = .initialised

instance (use : ServoUse) : Decidable use.Safe := inferInstanceAs (Decidable (_ ∧ _))

/-- The servo a callback's next step calls, if it calls one. -/
def Car.servoOf (car : Car) : PeerEvent → Option Servo
  | .servoCall peer =>
      match car.peers[peer]? with
      | some { backlog := command :: _, .. } => some command.servo
      | _ => none
  | .stateChange peer state =>
      match car.peers[peer]? with
      | some _ => if state.terminal then some .bldc else none
      | none => none
  | .createPeerConnection _ | .message _ _ | .runDispatched => none

namespace Process

def initial : Process where
  main := .gpioInitialise
  library := .uninitialised
  bldc := none
  steer := none
  car := Car.initial

def object (process : Process) : Servo → Option GPIO
  | .steer => process.steer
  | .bldc => process.bldc

/-- One step of `main`, where `gpioInitialise()` returns the given number. -/
def stepMain (gpioInitialise : Int) (process : Process) : Process :=
  match process.main with
  | .gpioInitialise =>
      if gpioInitialise ≥ 0 then
        { process with main := .constructBldc, library := .initialised }
      else
        { process with main := .joinMmalcamThread }
  | .constructBldc => { process with main := .centreBldc, bldc := some ⟨12⟩ }
  | .centreBldc => { process with main := .constructSteer, car := process.car.servo ⟨.bldc, 1500⟩ }
  | .constructSteer => { process with main := .centreSteer, steer := some ⟨13⟩ }
  | .centreSteer =>
      { process with main := .joinMmalcamThread, car := process.car.servo ⟨.steer, 1500⟩ }
  | .joinMmalcamThread => { process with main := .gpioTerminate }
  | .gpioTerminate => { process with main := .leave, library := .terminated }
  -- The process ends with `main`: a callback that still comes here comes before that.
  | .leave => process

def next (gpioInitialise : Int) (process : Process) : ProcessEvent → Process
  | .main => process.stepMain gpioInitialise
  | .peer event => { process with car := process.car.next event }

def servoOf (process : Process) : ProcessEvent → Option Servo
  | .main =>
      match process.main with
      | .centreBldc => some .bldc
      | .centreSteer => some .steer
      | _ => none
  | .peer event => process.car.servoOf event

def use (process : Process) (event : ProcessEvent) : Option ServoUse :=
  (process.servoOf event).map fun servo =>
    { object := process.object servo, library := process.library }

end Process

def process (gpioInitialise : Int) : Machine Process ProcessEvent (Option ServoUse) where
  next := Process.next gpioInitialise
  emit := Process.use

/-- `main` has constructed the object of the servo, if it got that far at all. -/
def MainStep.constructed (main : MainStep) (servo : Servo) : Prop :=
  match servo with
  | .bldc => main ≠ .gpioInitialise ∧ main ≠ .constructBldc
  | .steer => main ≠ .gpioInitialise ∧ main ≠ .constructBldc ∧ main ≠ .centreBldc ∧
      main ≠ .constructSteer

/-- The part of `main` in which a servo may be called. -/
def MainStep.Window (gpioInitialise : Int) (main : MainStep) (servo : Servo) : Prop :=
  0 ≤ gpioInitialise ∧ main.constructed servo ∧ main ≠ .leave

/-- Every servo call is made on a constructed object while the library is initialised. -/
def ServoCallsSafe (gpioInitialise : Int) (events : List ProcessEvent) : Prop :=
  (process gpioInitialise).Along (fun process event => ∀ use ∈ process.use event, use.Safe)
    Process.initial events

/-- The callbacks call a servo only inside its window. -/
def CallbacksInWindow (gpioInitialise : Int) (events : List ProcessEvent) : Prop :=
  (process gpioInitialise).Along (fun process event =>
    ∀ callback, event = .peer callback → ∀ servo ∈ process.car.servoOf callback,
      process.main.Window gpioInitialise servo) Process.initial events

/-- What the step `main` is at says of the objects and of the library. -/
structure Process.Started (gpioInitialise : Int) (process : Process) : Prop where
  object : ∀ servo, (process.object servo).isSome = true ↔
    0 ≤ gpioInitialise ∧ process.main.constructed servo
  library : process.library = .initialised ↔
    0 ≤ gpioInitialise ∧ process.main ≠ .gpioInitialise ∧ process.main ≠ .leave
  begun : process.main = .constructBldc ∨ process.main = .centreBldc ∨
    process.main = .constructSteer ∨ process.main = .centreSteer → 0 ≤ gpioInitialise

section Step

variable {gpioInitialise : Int} {process : Process}

theorem started_initial : Process.initial.Started gpioInitialise where
  object servo := by cases servo <;> simp [Process.initial, Process.object, MainStep.constructed]
  library := by simp [Process.initial]
  begun := by simp [Process.initial]

theorem stepMain_started (started : process.Started gpioInitialise) :
    (process.stepMain gpioInitialise).Started gpioInitialise := by
  obtain ⟨main, library, bldc, steer, car⟩ := process
  obtain ⟨object, initialised, begun⟩ := started
  have bldcObject := object .bldc
  have steerObject := object .steer
  simp only [Process.object, MainStep.constructed] at bldcObject steerObject initialised begun
  cases main with
  | gpioInitialise =>
      simp only [Process.stepMain]
      split
      · rename_i succeeded
        refine ⟨fun servo => ?_, by simp [succeeded], fun _ => succeeded⟩
        cases servo <;> simp_all [Process.object, MainStep.constructed]
      · rename_i failed
        refine ⟨fun servo => ?_, by simp_all, by simp⟩
        cases servo <;> simp_all [Process.object, MainStep.constructed]
  | constructBldc | centreBldc | constructSteer | centreSteer | joinMmalcamThread | gpioTerminate |
      leave =>
      refine ⟨fun servo => ?_, ?_, ?_⟩
      · cases servo <;> simp_all [Process.stepMain, Process.object, MainStep.constructed]
      · simp_all [Process.stepMain]
      · simp_all [Process.stepMain]

theorem next_started (process : Process) (event : ProcessEvent)
    (started : process.Started gpioInitialise) :
    (process.next gpioInitialise event).Started gpioInitialise := by
  cases event with
  | main => exact stepMain_started started
  | peer event => exact ⟨started.object, started.library, started.begun⟩

/-- A call is safe exactly in the window of its servo. -/
theorem use_safe_iff (started : process.Started gpioInitialise) (servo : Servo) :
    (ServoUse.mk (process.object servo) process.library).Safe ↔
      process.main.Window gpioInitialise servo := by
  rw [ServoUse.Safe, started.object, started.library, MainStep.Window]
  have begun : process.main.constructed servo → process.main ≠ .gpioInitialise := by
    cases servo <;> exact fun constructed => constructed.1
  tauto

/-- The two calls of `main` are made behind its check of `gpioInitialise`. -/
theorem centre_in_window (started : process.Started gpioInitialise) {servo : Servo}
    (called : process.servoOf .main = some servo) : process.main.Window gpioInitialise servo := by
  have begun := started.begun
  simp only [Process.servoOf] at called
  split at called
  · rename_i main
    cases called
    exact ⟨begun (by simp [main]), by simp [main, MainStep.constructed], by simp [main]⟩
  · rename_i main
    cases called
    exact ⟨begun (by simp [main]), by simp [main, MainStep.constructed], by simp [main]⟩
  · cases called

end Step

/-- In every interleaving, servos are only ever called safely exactly when `gpioInitialise`
has succeeded and `main` has constructed the object, and not yet terminated the library,
whenever a callback reaches a servo call. -/
theorem servo_calls_safe_iff (gpioInitialise : Int) (events : List ProcessEvent) :
    ServoCallsSafe gpioInitialise events ↔ CallbacksInWindow gpioInitialise events := by
  refine (process gpioInitialise).along_congr (·.Started gpioInitialise) (fun current event started => ?_)
    (fun current event started _ => next_started current event started) started_initial events
  have safe : (∀ use ∈ current.use event, use.Safe) ↔
      ∀ servo ∈ current.servoOf event, current.main.Window gpioInitialise servo := by
    simp only [Process.use, Option.mem_def, Option.map_eq_some_iff, forall_exists_index, and_imp,
      forall_apply_eq_imp_iff₂, use_safe_iff started]
  rw [safe]
  cases event with
  | main => exact iff_of_true (fun servo called => centre_in_window started called) (by simp)
  | peer callback =>
      exact ⟨fun within own same => by cases same; exact within, fun within => within callback rfl⟩

/-- `gpioInitialise` fails, and a peer disconnects. -/
theorem servo_calls_not_safe :
    ¬ ∀ (gpioInitialise : Int) (events : List ProcessEvent), ServoCallsSafe gpioInitialise events := by
  intro safe
  obtain ⟨-, -, called, -⟩ := safe (-1) [.main, .peer (.createPeerConnection "a"),
    .peer (.stateChange 0 .disconnected)]
  have used := called { object := none, library := .uninitialised } (by decide)
  exact absurd used (by decide)

end RcControl.Control
