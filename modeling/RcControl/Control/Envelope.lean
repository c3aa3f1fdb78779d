import RcControl.Control.Page

namespace RcControl.Control

open RcControl.Data

/-! The range of the control values, from the page's state to the car's servos.

The page does not clamp its values and the server does not clamp what it is sent, so
the range is kept by the relaxation steps alone, and they keep it only while a long
frame does not throw a value past its target by more than the room behind it. -/

def steerRange : Set ℚ := Set.Icc steerMin steerMax

def throttleRange : Set ℚ := Set.Icc throttleMin throttleMax

def Page.InEnvelope (page : Page) : Prop := page.dataX ∈ steerRange ∧ page.dataY ∈ throttleRange

def Command.InEnvelope (command : Command) : Prop :=
  match command.servo with
  | .steer => (command.pwm : ℚ) ∈ steerRange
  | .bldc => (command.pwm : ℚ) ∈ throttleRange

/-- Both values of a message, and every pulse width the server makes of them. -/
def SentInEnvelope (sent : Int × Int) : Prop :=
  (sent.1 : ℚ) ∈ steerRange ∧ (sent.2 : ℚ) ∈ throttleRange ∧
    ∀ command ∈ (onMessage (stringify sent.1 sent.2)).commands, command.InEnvelope

def StaysInEnvelope (events : List PageEvent) : Prop :=
  controlPage.Always Page.InEnvelope Page.initial events ∧
    ∀ output ∈ controlPage.outputs Page.initial events, ∀ sent, output = some sent →
      SentInEnvelope sent

def FrameStaysWithin (page : Page) : PageEvent → Prop
  | .frame timeStamp _ =>
      Relaxation.StaysWithin steerMin steerMax page.dataX page.targetSteeringValue
          (page.steeringFactor timeStamp) ∧
        Relaxation.StaysWithin throttleMin throttleMax page.dataY page.targetThrottleValue
          (page.throttleFactor timeStamp)
  | _ => True

def timeStamps (events : List PageEvent) : List ℚ :=
  events.filterMap fun
    | .frame timeStamp _ => some timeStamp
    | _ => none

def Forward (page : Page) : PageEvent → Prop
  | .frame timeStamp _ => 0 ≤ page.dt timeStamp
  | _ => True

structure Page.Aimed (page : Page) : Prop where
  steering : page.targetSteeringValue ∈ steerRange
  throttle : page.targetThrottleValue ∈ throttleRange
  moveFactor : 0 ≤ page.moveFactor
  moveFactor2 : 0 ≤ page.moveFactor2

section Aim

variable {page : Page} (aimed : page.Aimed)

include aimed

theorem aimSteering_aimed {target factor : ℚ} (inside : target ∈ steerRange) (nonneg : 0 ≤ factor) :
    (page.aimSteering target factor).Aimed :=
  ⟨inside, aimed.throttle, nonneg, aimed.moveFactor2⟩

theorem aimThrottle_aimed {target factor : ℚ} (inside : target ∈ throttleRange)
    (nonneg : 0 ≤ factor) : (page.aimThrottle target factor).Aimed :=
  ⟨aimed.steering, inside, aimed.moveFactor, nonneg⟩

theorem releaseThrottle_aimed : page.releaseThrottle.Aimed :=
  ⟨aimed.steering, by norm_num [Page.releaseThrottle, throttleRange, throttleMin, throttleMid,
    throttleMax], aimed.moveFactor, aimed.moveFactor2⟩

theorem next_aimed (event : PageEvent) : (page.next event).Aimed := by
  have steerTargets : steerMin ∈ steerRange ∧ steerMid ∈ steerRange ∧ steerMax ∈ steerRange := by
    norm_num [steerRange, steerMin, steerMid, steerMax]
  have throttleTargets : throttleMin ∈ throttleRange ∧ throttleMax ∈ throttleRange := by
    norm_num [throttleRange, throttleMin, throttleMax]
  obtain ⟨low, middle, high⟩ := steerTargets
  obtain ⟨least, most⟩ := throttleTargets
  cases event with
  | keydown code =>
      cases code with
      | keyA => exact aimSteering_aimed aimed low (by norm_num)
      | keyD => exact aimSteering_aimed aimed high (by norm_num)
      | keyW => exact aimThrottle_aimed aimed least (by norm_num)
      | keyS => exact aimThrottle_aimed aimed most (by norm_num)
      | other code => exact aimed
  | keyup code =>
      cases code with
      | keyA | keyD => exact aimSteering_aimed aimed middle (by norm_num)
      | keyW | keyS => exact releaseThrottle_aimed aimed
      | other code => exact aimed
  | mousedown button =>
      cases button with
      | up => exact aimThrottle_aimed aimed least (by norm_num)
      | down => exact aimThrottle_aimed aimed most (by norm_num)
      | left => exact aimSteering_aimed aimed low (by norm_num)
      | right => exact aimSteering_aimed aimed high (by norm_num)
  | mouseup button =>
      cases button with
      | up | down => exact releaseThrottle_aimed aimed
      | left | right => exact aimSteering_aimed aimed middle (by norm_num)
  | frame timeStamp isOpen =>
      constructor
      · simpa [Page.next] using aimed.steering
      · simpa [Page.next] using aimed.throttle
      · simpa [Page.next] using aimed.moveFactor
      · simpa [Page.next] using aimed.moveFactor2

theorem frame_inEnvelope_iff (inside : page.InEnvelope) {timeStamp : ℚ} (isOpen : Bool)
    (forward : 0 ≤ page.dt timeStamp) :
    FrameStaysWithin page (.frame timeStamp isOpen) ↔
      (page.next (.frame timeStamp isOpen)).InEnvelope := by
  have steering : 0 ≤ page.steeringFactor timeStamp := by
    have := mul_nonneg aimed.moveFactor forward
    rw [Page.steeringFactor]
    positivity
  have throttle : 0 ≤ page.throttleFactor timeStamp := by
    have := mul_nonneg aimed.moveFactor2 forward
    rw [Page.throttleFactor]
    positivity
  rw [Page.InEnvelope, Page.next, Page.loop_dataX, Page.loop_dataY]
  exact and_congr (Relaxation.step_mem_iff inside.1 aimed.steering steering)
    (Relaxation.step_mem_iff inside.2 aimed.throttle throttle)

end Aim

theorem next_inEnvelope {page : Page} (inside : page.InEnvelope) {event : PageEvent}
    (handler : ∀ timeStamp isOpen, event ≠ .frame timeStamp isOpen) :
    (page.next event).InEnvelope := by
  have released : page.releaseThrottle.InEnvelope :=
    ⟨inside.1, by norm_num [Page.releaseThrottle, throttleRange, throttleMin, throttleMax]⟩
  cases event with
  | keydown code => cases code <;> exact inside
  | keyup code =>
      cases code with
      | keyW | keyS => exact released
      | keyA | keyD | other => exact inside
  | mousedown button => cases button <;> exact inside
  | mouseup button =>
      cases button with
      | up | down => exact released
      | left | right => exact inside
  | frame timeStamp isOpen => exact absurd rfl (handler timeStamp isOpen)

theorem next_inEnvelope_iff (page : Page) (event : PageEvent)
    (guarded : page.Aimed ∧ Forward page event) (inside : page.InEnvelope) :
    FrameStaysWithin page event ↔ (page.next event).InEnvelope := by
  cases event with
  | frame timeStamp isOpen => exact frame_inEnvelope_iff guarded.1 inside isOpen guarded.2
  | keydown | keyup | mousedown | mouseup =>
      exact iff_of_true trivial (next_inEnvelope inside (by simp))

theorem round_mem (lower upper : Int) {value : ℚ} (inside : value ∈ Set.Icc (lower : ℚ) upper) :
    (round value : ℚ) ∈ Set.Icc (lower : ℚ) upper := by
  have mono {first second : ℚ} (ordered : first ≤ second) : round first ≤ round second := by
    rw [round_eq, round_eq]
    exact Int.floor_mono (by linarith)
  have above := mono inside.1
  have below := mono inside.2
  rw [round_intCast] at above below
  exact ⟨by exact_mod_cast above, by exact_mod_cast below⟩

/-- A message sent from inside the envelope commands pulse widths inside it. -/
theorem emit_inEnvelope (page : Page) (event : PageEvent) (inside : (page.next event).InEnvelope) :
    ∀ sent, page.emit event = some sent → SentInEnvelope sent := by
  intro sent sends
  cases event with
  | keydown | keyup | mousedown | mouseup => cases sends
  | frame timeStamp isOpen =>
      obtain ⟨steering, throttle⟩ := inside
      have x : (sent.1 : ℚ) ∈ steerRange := by
        rw [Page.loop_sent sends]
        exact round_mem 1350 1750 steering
      have y : (sent.2 : ℚ) ∈ throttleRange := by
        rw [Page.loop_sent sends]
        exact round_mem 1200 1600 throttle
      refine ⟨x, y, ?_⟩
      have xLower : (1350 : ℚ) ≤ sent.1 := x.1
      have xUpper : (sent.1 : ℚ) ≤ 1750 := x.2
      have yLower : (1200 : ℚ) ≤ sent.2 := y.1
      have yUpper : (sent.2 : ℚ) ≤ 1600 := y.2
      norm_cast at xLower xUpper yLower yUpper
      rw [onMessage_stringify (Int.bmod_eq_of_le (by omega) (by omega))
        (Int.bmod_eq_of_le (by omega) (by omega))]
      simp only [List.forall_mem_cons, List.not_mem_nil, false_imp_iff, implies_true, and_true]
      exact ⟨x, y⟩

theorem guarded_of_sorted {page : Page} {events : List PageEvent} (aimed : page.Aimed)
    (sorted : (timeStamps events).Pairwise (· ≤ ·))
    (later : ∀ previous, page.previousTime = some previous →
      ∀ timeStamp ∈ timeStamps events, previous ≤ timeStamp) :
    controlPage.Along (fun page event => page.Aimed ∧ Forward page event) page events := by
  induction events generalizing page with
  | nil => trivial
  | cons event events ih =>
      have kept : (page.next event).Aimed := next_aimed aimed event
      cases event with
      | frame timeStamp isOpen =>
          obtain ⟨first, rest⟩ := List.pairwise_cons.mp sorted
          refine ⟨⟨aimed, ?_⟩, ih kept rest ?_⟩
          · rw [Forward, Page.dt]
            cases previousTime : page.previousTime with
            | none => rfl
            | some previous =>
                have ordered := later previous previousTime timeStamp List.mem_cons_self
                exact sub_nonneg.mpr ordered
          · intro previous found
            have same : some timeStamp = some previous :=
              (Page.loop_previousTime page timeStamp isOpen).symm.trans found
            rw [← Option.some.inj same]
            exact first
      | keydown code =>
          refine ⟨⟨aimed, trivial⟩, ih kept sorted fun previous found => later previous ?_⟩
          cases code <;> exact found
      | keyup code =>
          refine ⟨⟨aimed, trivial⟩, ih kept sorted fun previous found => later previous ?_⟩
          cases code <;> exact found
      | mousedown button =>
          refine ⟨⟨aimed, trivial⟩, ih kept sorted fun previous found => later previous ?_⟩
          cases button <;> exact found
      | mouseup button =>
          refine ⟨⟨aimed, trivial⟩, ih kept sorted fun previous found => later previous ?_⟩
          cases button <;> exact found

theorem initial_aimed : Page.initial.Aimed := by
  constructor <;> norm_num [Page.initial, steerRange, throttleRange, steerMin, steerMax, throttleMin,
    throttleMax]

theorem initial_inEnvelope : Page.initial.InEnvelope := by
  constructor <;> norm_num [Page.initial, steerRange, throttleRange, steerMin, steerMax, throttleMin,
    throttleMax]

/-- In every run whose frames do not go back in time, all control values, sent values and
pulse widths stay in range exactly when each frame is a fraction of the way to the target
or overshoots by no more than the room behind it. -/
theorem stays_in_envelope_iff (events : List PageEvent)
    (sorted : (timeStamps events).Pairwise (· ≤ ·)) :
    StaysInEnvelope events ↔ controlPage.Along FrameStaysWithin Page.initial events := by
  have guarded := guarded_of_sorted initial_aimed sorted (fun previous found => by cases found)
  rw [controlPage.along_iff_always next_inEnvelope_iff guarded initial_inEnvelope]
  apply Iff.intro
  · intro stays
    exact stays.1
  · intro always
    exact ⟨always, controlPage.outputs_of_always emit_inEnvelope always⟩

theorem stays_in_envelope_short_frames :
    StaysInEnvelope
      [.keydown .keyA, .frame 0 true, .frame 16 true, .keyup .keyA, .frame 33 true] := by
  refine (stays_in_envelope_iff _ (by simp [timeStamps]; norm_num)).mpr
    ⟨trivial, ⟨.inl ?_, .inl ?_⟩, ⟨.inl ?_, .inl ?_⟩, trivial, ⟨.inl ?_, .inl ?_⟩, trivial⟩ <;>
    norm_num [Page.steeringFactor, Page.throttleFactor, Page.dt, controlPage, Page.next,
      Page.keydown, Page.keyup, Page.aimSteering, Page.initial]

/-- A steering key held over a gap of one second throws the value out of range. -/
theorem not_stays_in_envelope :
    ¬ ∀ events : List PageEvent, (timeStamps events).Pairwise (· ≤ ·) → StaysInEnvelope events := by
  intro stays
  have inside := (stays [.keydown .keyA, .frame 0 true, .frame 1000 true] (by simp [timeStamps])).1
  obtain ⟨-, -, -, last⟩ := inside
  have low := last.1.1
  norm_num [controlPage, Page.next, Page.loop_dataX, Page.loop, Page.keydown, Page.aimSteering,
    Page.initial, Page.dt, Page.updateSteeringValue, Page.updateThrottleValue, steerMin,
    sendDCInterval] at low

end RcControl.Control
