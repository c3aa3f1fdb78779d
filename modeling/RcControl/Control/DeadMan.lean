import RcControl.Control.Page

namespace RcControl.Control

open RcControl.Data

/-! The throttle while none of its controls is held. -/

inductive PageControl where
  | keyA | keyD | keyW | keyS
  | btnUp | btnDown | btnLeft | btnRight
deriving DecidableEq, Repr

def PageControl.throttle : PageControl → Bool
  | .keyW | .keyS | .btnUp | .btnDown => true
  | .keyA | .keyD | .btnLeft | .btnRight => false

def Code.control? : Code → Option PageControl
  | .keyA => some .keyA
  | .keyD => some .keyD
  | .keyW => some .keyW
  | .keyS => some .keyS
  | .other _ => none

def Button.control : Button → PageControl
  | .up => .btnUp
  | .down => .btnDown
  | .left => .btnLeft
  | .right => .btnRight

def PageEvent.press? : PageEvent → Option PageControl
  | .keydown code => code.control?
  | .mousedown button => some button.control
  | _ => none

def PageEvent.release? : PageEvent → Option PageControl
  | .keyup code => code.control?
  | .mouseup button => some button.control
  | _ => none

def hold (held : PageControl → Bool) (event : PageEvent) (control : PageControl) : Bool :=
  if event.press? = some control then true
  else if event.release? = some control then false
  else held control

def heldAfter (events : List PageEvent) : PageControl → Bool := events.foldl hold fun _ => false

def ThrottleReleased (held : PageControl → Bool) : Prop :=
  ∀ control : PageControl, control.throttle = true → held control = false

def Page.Neutral (page : Page) : Prop := page.targetThrottleValue = 1500 ∧ page.dataY = 1500

theorem not_released_of_press {held : PageControl → Bool} {event : PageEvent}
    (control : PageControl) (presses : event.press? = some control) (throttle : control.throttle = true) :
    ¬ ThrottleReleased (hold held event) := by
  intro released
  have let_go := released control throttle
  rw [hold, if_pos presses] at let_go
  cases let_go

theorem released_before {held : PageControl → Bool} (event : PageEvent)
    (other : ∀ control, event.release? = some control → control.throttle = false)
    (released : ThrottleReleased (hold held event)) : ThrottleReleased held := by
  intro control throttle
  have now := released control throttle
  unfold hold at now
  split at now
  · cases now
  · split at now
    · rename_i releases
      rw [other control releases] at throttle
      cases throttle
    · exact now

theorem releaseThrottle_neutral (page : Page) : page.releaseThrottle.Neutral := ⟨rfl, rfl⟩

theorem loop_neutral {page : Page} (neutral : page.Neutral) (timeStamp : ℚ) (isOpen : Bool) :
    (page.loop timeStamp isOpen).1.Neutral := by
  obtain ⟨target, value⟩ := neutral
  refine ⟨by rw [Page.loop_targetThrottleValue, target], ?_⟩
  rw [Page.loop_dataY, target, value, Relaxation.step_self]

/-- One event: either it presses a throttle control, or it snaps the throttle back, or it
keeps a neutral throttle neutral and releases no throttle control. -/
theorem next_neutral {page : Page} {held : PageControl → Bool}
    (neutral : ThrottleReleased held → page.Neutral) (event : PageEvent)
    (released : ThrottleReleased (hold held event)) : (page.next event).Neutral := by
  cases event with
  | keydown code =>
      have before := released_before (.keydown code) (fun control none => by cases none) released
      cases code with
      | keyW => exact absurd released (not_released_of_press .keyW rfl rfl)
      | keyS => exact absurd released (not_released_of_press .keyS rfl rfl)
      | keyA | keyD | other => exact neutral before
  | keyup code =>
      cases code with
      | keyW | keyS => exact releaseThrottle_neutral page
      | keyA | keyD =>
          exact neutral (released_before (.keyup _) (fun control same => by cases same; rfl) released)
      | other code =>
          exact neutral (released_before (.keyup _) (fun control none => by cases none) released)
  | mousedown button =>
      have before := released_before (.mousedown button) (fun control none => by cases none) released
      cases button with
      | up => exact absurd released (not_released_of_press .btnUp rfl rfl)
      | down => exact absurd released (not_released_of_press .btnDown rfl rfl)
      | left | right => exact neutral before
  | mouseup button =>
      cases button with
      | up | down => exact releaseThrottle_neutral page
      | left | right =>
          exact neutral (released_before (.mouseup _) (fun control same => by cases same; rfl) released)
  | frame timeStamp isOpen =>
      have before := released_before (.frame timeStamp isOpen) (fun control none => by cases none) released
      exact loop_neutral (neutral before) timeStamp isOpen

theorem run_neutral (events : List PageEvent) (released : ThrottleReleased (heldAfter events)) :
    (controlPage.run Page.initial events).Neutral := by
  induction events using List.reverseRecOn with
  | nil => exact ⟨rfl, rfl⟩
  | append_singleton front event ih =>
      rw [heldAfter, List.foldl_append] at released
      rw [Machine.run_concat]
      exact next_neutral ih event released

/-- After any events, if no throttle control is held, target and throttle value are 1500
and a message sent by the next frame says 1500. -/
theorem released_throttle_neutral (events : List PageEvent)
    (released : ThrottleReleased (heldAfter events)) :
    (controlPage.run Page.initial events).targetThrottleValue = 1500 ∧
      (controlPage.run Page.initial events).dataY = 1500 ∧
      ∀ timeStamp isOpen sent,
        controlPage.emit (controlPage.run Page.initial events) (.frame timeStamp isOpen) = some sent →
          sent.2 = 1500 := by
  have neutral := run_neutral events released
  refine ⟨neutral.1, neutral.2, fun timeStamp isOpen sent sends => ?_⟩
  have value := (loop_neutral neutral timeStamp isOpen).2
  rw [Page.loop_sent sends, value]
  exact round_intCast 1500

theorem released_throttle_neutral_overlap :
    (controlPage.run Page.initial [.keydown .keyW, .frame 0 true, .mousedown .up, .frame 16 true,
      .keyup .keyW, .frame 33 true, .mouseup .up]).dataY = 1500 :=
  (released_throttle_neutral _ (by
    intro control throttle
    cases control <;> rfl)).2.1

end RcControl.Control
