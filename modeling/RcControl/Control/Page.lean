import RcControl.Data.Machine
import RcControl.Data.Relaxation
import RcControl.Control.Message

namespace RcControl.Control

open RcControl.Data

/-! The control page: its key and button handlers and the animation loop, in exact
rational arithmetic. -/

def sendDCInterval : ℚ := 20

def throttleMin : ℚ := 1200
def throttleMid : ℚ := 1500
def throttleMax : ℚ := 1600

def steerMin : ℚ := 1350
def steerMid : ℚ := 1555
def steerMax : ℚ := 1750

structure Page where
  dataX : ℚ
  dataY : ℚ
  previousTime : Option ℚ
  timerSendDC : ℚ
  targetSteeringValue : ℚ
  targetThrottleValue : ℚ
  moveFactor : ℚ
  moveFactor2 : ℚ
deriving DecidableEq, Repr

def Page.initial : Page where
  dataX := 1500
  dataY := 1500
  previousTime := none
  timerSendDC := 0
  targetSteeringValue := 1500
  targetThrottleValue := 1500
  moveFactor := 0.05
  moveFactor2 := 0.05

inductive Code where
  | keyA | keyD | keyW | keyS
  | other (code : String)
deriving DecidableEq, Repr

inductive Button where
  | up | down | left | right
deriving DecidableEq, Repr

inductive PageEvent where
  | keydown (code : Code)
  | keyup (code : Code)
  | mousedown (button : Button)
  | mouseup (button : Button)
  /-- An animation frame, and whether the data channel is open at that time. -/
  | frame (timeStamp : ℚ) (isOpen : Bool)
deriving DecidableEq, Repr

namespace Page

def aimSteering (page : Page) (target factor : ℚ) : Page :=
  { page with targetSteeringValue := target, moveFactor := factor }

def aimThrottle (page : Page) (target factor : ℚ) : Page :=
  { page with targetThrottleValue := target, moveFactor2 := factor }

def releaseThrottle (page : Page) : Page :=
  { page with targetThrottleValue := throttleMid, dataY := 1500 }

def keydown (page : Page) : Code → Page
  | .keyA => page.aimSteering steerMin 0.02
  | .keyD => page.aimSteering steerMax 0.02
  | .keyW => page.aimThrottle throttleMin 0.005
  | .keyS => page.aimThrottle throttleMax 0.005
  | .other _ => page

def keyup (page : Page) : Code → Page
  | .keyA => page.aimSteering steerMid 0.05
  | .keyD => page.aimSteering steerMid 0.05
  | .keyW => page.releaseThrottle
  | .keyS => page.releaseThrottle
  | .other _ => page

def mousedown (page : Page) : Button → Page
  | .up => page.aimThrottle throttleMin 0.005
  | .down => page.aimThrottle throttleMax 0.08
  | .left => page.aimSteering steerMin 0.025
  | .right => page.aimSteering steerMax 0.025

def mouseup (page : Page) : Button → Page
  | .up => page.releaseThrottle
  | .down => page.releaseThrottle
  | .left => page.aimSteering steerMid 0.05
  | .right => page.aimSteering steerMid 0.05

def dt (page : Page) (timeStamp : ℚ) : ℚ :=
  match page.previousTime with
  | none => 0
  | some previousTime => timeStamp - previousTime

def updateSteeringValue (page : Page) (dt : ℚ) : Page :=
  { page with
    dataX := page.dataX + (page.targetSteeringValue - page.dataX) * page.moveFactor * dt * 60 / 1000 }

def updateThrottleValue (page : Page) (dt : ℚ) : Page :=
  { page with
    dataY := page.dataY + (page.targetThrottleValue - page.dataY) * page.moveFactor2 * dt * 60 / 1000 }

/-- `loop`, and the values sent if the timer is due and the channel open. -/
def loop (page : Page) (timeStamp : ℚ) (isOpen : Bool) : Page × Option (Int × Int) :=
  let dt := page.dt timeStamp
  let page := (page.updateSteeringValue dt).updateThrottleValue dt
  let page := { page with previousTime := some timeStamp }
  let page := { page with timerSendDC := page.timerSendDC + dt }
  if page.timerSendDC ≥ sendDCInterval then
    let page := { page with timerSendDC := 0 }
    (page, if isOpen then some (round page.dataX, round page.dataY) else none)
  else
    (page, none)

def next (page : Page) : PageEvent → Page
  | .keydown code => page.keydown code
  | .keyup code => page.keyup code
  | .mousedown button => page.mousedown button
  | .mouseup button => page.mouseup button
  | .frame timeStamp isOpen => (page.loop timeStamp isOpen).1

def emit (page : Page) : PageEvent → Option (Int × Int)
  | .frame timeStamp isOpen => (page.loop timeStamp isOpen).2
  | _ => none

end Page

/-- The page under its events; what is sent are the values of `data.x` and `data.y`. -/
def controlPage : Machine Page PageEvent (Option (Int × Int)) where
  next := Page.next
  emit := Page.emit

namespace Page

variable (page : Page) (timeStamp : ℚ) (isOpen : Bool)

def steeringFactor : ℚ := page.moveFactor * page.dt timeStamp * 60 / 1000

def throttleFactor : ℚ := page.moveFactor2 * page.dt timeStamp * 60 / 1000

theorem loop_dataX : (page.loop timeStamp isOpen).1.dataX =
    Relaxation.step page.dataX page.targetSteeringValue (page.steeringFactor timeStamp) := by
  have moved : (page.loop timeStamp isOpen).1.dataX = page.dataX +
      (page.targetSteeringValue - page.dataX) * page.moveFactor * page.dt timeStamp * 60 / 1000 := by
    simp only [loop]
    split <;> rfl
  rw [moved, Relaxation.step, steeringFactor]
  ring

theorem loop_dataY : (page.loop timeStamp isOpen).1.dataY =
    Relaxation.step page.dataY page.targetThrottleValue (page.throttleFactor timeStamp) := by
  have moved : (page.loop timeStamp isOpen).1.dataY = page.dataY +
      (page.targetThrottleValue - page.dataY) * page.moveFactor2 * page.dt timeStamp * 60 / 1000 := by
    simp only [loop]
    split <;> rfl
  rw [moved, Relaxation.step, throttleFactor]
  ring

@[simp] theorem loop_targetSteeringValue :
    (page.loop timeStamp isOpen).1.targetSteeringValue = page.targetSteeringValue := by
  simp only [loop]
  split <;> rfl

@[simp] theorem loop_targetThrottleValue :
    (page.loop timeStamp isOpen).1.targetThrottleValue = page.targetThrottleValue := by
  simp only [loop]
  split <;> rfl

@[simp] theorem loop_moveFactor : (page.loop timeStamp isOpen).1.moveFactor = page.moveFactor := by
  simp only [loop]
  split <;> rfl

@[simp] theorem loop_moveFactor2 :
    (page.loop timeStamp isOpen).1.moveFactor2 = page.moveFactor2 := by
  simp only [loop]
  split <;> rfl

@[simp] theorem loop_previousTime :
    (page.loop timeStamp isOpen).1.previousTime = some timeStamp := by
  simp only [loop]
  split <;> rfl

variable {page timeStamp isOpen}

theorem loop_sent {sent : Int × Int} (sends : (page.loop timeStamp isOpen).2 = some sent) :
    sent = (round (page.loop timeStamp isOpen).1.dataX, round (page.loop timeStamp isOpen).1.dataY) := by
  simp only [loop] at sends ⊢
  split at sends
  · rename_i due
    rw [if_pos due]
    cases isOpen with
    | true => exact (Option.some.inj sends).symm
    | false => cases sends
  · cases sends

end Page

end RcControl.Control
