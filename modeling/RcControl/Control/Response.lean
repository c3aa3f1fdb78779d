import RcControl.Control.Envelope

namespace RcControl.Control

open RcControl.Data

/-! How fast the page answers: how often it sends, and how soon the values reach their
targets. -/

section Rate

/-- The times of the frames that sent a message. -/
def sendTimes (page : Page) (events : List PageEvent) : List ℚ :=
  (events.zip (controlPage.outputs page events)).filterMap fun
    | (.frame timeStamp _, some _) => some timeStamp
    | _ => none

/-- Every frame finds the data channel open. -/
def ChannelOpen (events : List PageEvent) : Prop :=
  ∀ timeStamp isOpen, .frame timeStamp isOpen ∈ events → isOpen = true

/-- The timer shows how long ago the last message was due. -/
def Timed (page : Page) (since : ℚ) : Prop :=
  ∃ previous, page.previousTime = some previous ∧ page.timerSendDC = previous - since ∧
    page.timerSendDC < sendDCInterval ∧ since ≤ previous

variable {page : Page} {since timeStamp : ℚ}

theorem sendTimes_frame (page : Page) (timeStamp : ℚ) (isOpen : Bool) (events : List PageEvent) :
    sendTimes page (.frame timeStamp isOpen :: events) =
      (if (page.loop timeStamp isOpen).2.isSome then [timeStamp] else []) ++
        sendTimes (page.loop timeStamp isOpen).1 events := by
  simp only [sendTimes, Machine.outputs_cons, List.zip_cons_cons, controlPage, Page.emit, Page.next]
  cases sent : (page.loop timeStamp isOpen).2 <;> simp

theorem sendTimes_other (page : Page) {event : PageEvent}
    (handler : ∀ timeStamp isOpen, event ≠ .frame timeStamp isOpen) (events : List PageEvent) :
    sendTimes page (event :: events) = sendTimes (page.next event) events := by
  simp only [sendTimes, Machine.outputs_cons, List.zip_cons_cons, controlPage]
  cases event with
  | frame timeStamp isOpen => exact absurd rfl (handler timeStamp isOpen)
  | keydown | keyup | mousedown | mouseup => rfl

theorem timeStamps_other {event : PageEvent}
    (handler : ∀ timeStamp isOpen, event ≠ .frame timeStamp isOpen) (events : List PageEvent) :
    timeStamps (event :: events) = timeStamps events := by
  cases event with
  | frame timeStamp isOpen => exact absurd rfl (handler timeStamp isOpen)
  | keydown | keyup | mousedown | mouseup => rfl

/-- The keys and buttons do not touch the timer. -/
theorem next_timer (page : Page) {event : PageEvent}
    (handler : ∀ timeStamp isOpen, event ≠ .frame timeStamp isOpen) :
    (page.next event).previousTime = page.previousTime ∧ (page.next event).timerSendDC = page.timerSendDC := by
  cases event with
  | frame timeStamp isOpen => exact absurd rfl (handler timeStamp isOpen)
  | keydown code | keyup code => cases code <;> exact ⟨rfl, rfl⟩
  | mousedown button | mouseup button => cases button <;> exact ⟨rfl, rfl⟩

theorem Timed.next (timed : Timed page since) {event : PageEvent}
    (handler : ∀ timeStamp isOpen, event ≠ .frame timeStamp isOpen) : Timed (page.next event) since := by
  obtain ⟨previous, timer⟩ := next_timer page handler
  rw [Timed, previous, timer]
  exact timed

theorem loop_due (isOpen : Bool) (due : sendDCInterval ≤ page.timerSendDC + page.dt timeStamp) :
    (page.loop timeStamp isOpen).1.timerSendDC = 0 ∧ (page.loop timeStamp isOpen).2.isSome = isOpen := by
  simp only [Page.loop]
  split
  · cases isOpen <;> exact ⟨rfl, rfl⟩
  · rename_i early
    exact absurd due early

theorem loop_early (isOpen : Bool)
    (early : page.timerSendDC + page.dt timeStamp < sendDCInterval) :
    (page.loop timeStamp isOpen).1.timerSendDC = page.timerSendDC + page.dt timeStamp ∧
      (page.loop timeStamp isOpen).2 = none := by
  simp only [Page.loop]
  split
  · rename_i due
    exact absurd early (not_lt_of_ge due)
  · exact ⟨rfl, rfl⟩

/-- One frame: either the message is due, and the time counts from here, or it is not yet. -/
theorem loop_timed (timed : Timed page since) (isOpen : Bool)
    (later : ∀ previous, page.previousTime = some previous → previous ≤ timeStamp) :
    since + 20 ≤ timeStamp ∧ (page.loop timeStamp isOpen).2.isSome = isOpen ∧
        Timed (page.loop timeStamp isOpen).1 timeStamp ∨
      since ≤ timeStamp ∧ timeStamp < since + 20 ∧ (page.loop timeStamp isOpen).2 = none ∧
        Timed (page.loop timeStamp isOpen).1 since := by
  obtain ⟨previous, found, timer, short, started⟩ := timed
  have forward := later previous found
  have elapsed : page.timerSendDC + page.dt timeStamp = timeStamp - since := by
    rw [timer, Page.dt, found]
    ring
  have frame := Page.loop_previousTime page timeStamp isOpen
  rcases le_or_gt sendDCInterval (page.timerSendDC + page.dt timeStamp) with due | early
  · obtain ⟨reset, sent⟩ := loop_due isOpen due
    rw [elapsed, sendDCInterval] at due
    refine .inl ⟨by linarith, sent, timeStamp, frame, ?_, ?_, le_rfl⟩
    · rw [reset, sub_self]
    · rw [reset, sendDCInterval]
      norm_num
  · obtain ⟨counted, unsent⟩ := loop_early isOpen early
    rw [elapsed] at counted early
    refine .inr ⟨started.trans forward, ?_, unsent, timeStamp, frame, counted, ?_, started.trans forward⟩
    · rw [sendDCInterval] at early
      linarith
    · rw [counted]
      exact early

/-- Messages are at least 20 ms apart, and while the channel is open each frame is less than
20 ms behind one, or behind the first frame. -/
structure Paced (since : ℚ) (sends : List ℚ) (frames : List ℚ) (isOpen : Prop) : Prop where
  first : ∀ send ∈ sends, since + 20 ≤ send
  apart : sends.Pairwise fun earlier later => earlier + 20 ≤ later
  fresh : isOpen → ∀ frame ∈ frames, ∃ send ∈ since :: sends, send ≤ frame ∧ frame < send + 20

theorem Paced.sent {sends frames : List ℚ} {isOpen : Prop} (due : since + 20 ≤ timeStamp)
    (paced : Paced timeStamp sends frames isOpen) : Paced since (timeStamp :: sends) (timeStamp :: frames) isOpen where
  first send member := by
    rcases List.mem_cons.mp member with rfl | further
    · exact due
    · have gap := paced.first send further
      linarith
  apart := List.pairwise_cons.mpr ⟨paced.first, paced.apart⟩
  fresh opened frame member := by
    rcases List.mem_cons.mp member with rfl | further
    · exact ⟨frame, List.mem_cons_of_mem _ List.mem_cons_self, le_rfl, by linarith⟩
    · obtain ⟨send, found, fresh⟩ := paced.fresh opened frame further
      exact ⟨send, List.mem_cons_of_mem _ found, fresh⟩

theorem Paced.unsent {sends frames : List ℚ} {isOpen : Prop} (started : since ≤ timeStamp)
    (early : timeStamp < since + 20) (paced : Paced since sends frames isOpen) :
    Paced since sends (timeStamp :: frames) isOpen where
  first := paced.first
  apart := paced.apart
  fresh opened frame member := by
    rcases List.mem_cons.mp member with rfl | further
    · exact ⟨since, List.mem_cons_self, started, early⟩
    · exact paced.fresh opened frame further

theorem Paced.opened {sends frames : List ℚ} {event : PageEvent} {events : List PageEvent}
    (paced : Paced since sends frames (ChannelOpen events)) :
    Paced since sends frames (ChannelOpen (event :: events)) :=
  ⟨paced.first, paced.apart, fun opened => paced.fresh fun timeStamp isOpen inside =>
    opened timeStamp isOpen (List.mem_cons_of_mem _ inside)⟩

theorem paced_of_timed {events : List PageEvent} (timed : Timed page since)
    (sorted : (timeStamps events).Pairwise (· ≤ ·))
    (later : ∀ previous, page.previousTime = some previous →
      ∀ timeStamp ∈ timeStamps events, previous ≤ timeStamp) :
    Paced since (sendTimes page events) (timeStamps events) (ChannelOpen events) := by
  induction events generalizing page since with
  | nil =>
      refine ⟨?_, List.Pairwise.nil, ?_⟩
      · intro send member
        cases member
      · intro _ frame member
        cases member
  | cons event events ih =>
      by_cases frame : ∃ timeStamp isOpen, event = .frame timeStamp isOpen
      case pos =>
          obtain ⟨timeStamp, isOpen, rfl⟩ := frame
          obtain ⟨first, rest⟩ := List.pairwise_cons.mp sorted
          have ahead : ∀ previous, (page.loop timeStamp isOpen).1.previousTime = some previous →
              ∀ later ∈ timeStamps events, previous ≤ later := by
            intro previous found
            rw [Page.loop_previousTime] at found
            obtain rfl := Option.some.inj found
            exact first
          have now := loop_timed timed isOpen fun previous found =>
            later previous found timeStamp List.mem_cons_self
          rw [sendTimes_frame]
          rcases now with ⟨due, sent, timedNext⟩ | ⟨started, early, unsent, timedNext⟩
          · have paced := ih timedNext rest ahead
            rw [sent]
            cases isOpen with
            | true => exact (paced.sent due).opened
            | false =>
                refine ⟨fun send member => ?_, paced.apart, fun opened => ?_⟩
                · have gap := paced.first send member
                  linarith
                · cases opened timeStamp false List.mem_cons_self
          · rw [unsent]
            exact ((ih timedNext rest ahead).unsent started early).opened
      case neg =>
          have handler : ∀ timeStamp isOpen, event ≠ .frame timeStamp isOpen :=
            fun timeStamp isOpen same => frame ⟨timeStamp, isOpen, same⟩
          rw [timeStamps_other handler] at sorted later ⊢
          rw [sendTimes_other page handler]
          rw [← (next_timer page handler).1] at later
          exact (ih (timed.next handler) sorted later).opened

/-- Before the first frame no time has been counted. -/
def Unstarted (page : Page) : Prop := page.previousTime = none ∧ page.timerSendDC = 0

theorem loop_unstarted (unstarted : Unstarted page) (timeStamp : ℚ) (isOpen : Bool) :
    (page.loop timeStamp isOpen).2 = none ∧ Timed (page.loop timeStamp isOpen).1 timeStamp := by
  obtain ⟨previous, timer⟩ := unstarted
  have nothing : page.timerSendDC + page.dt timeStamp = 0 := by
    rw [timer, Page.dt, previous, add_zero]
  have early : page.timerSendDC + page.dt timeStamp < sendDCInterval := by
    rw [nothing, sendDCInterval]
    norm_num
  obtain ⟨counted, unsent⟩ := loop_early isOpen early
  refine ⟨unsent, timeStamp, Page.loop_previousTime page timeStamp isOpen, ?_, ?_, le_rfl⟩
  · rw [counted, nothing, sub_self]
  · rw [counted, nothing, sendDCInterval]
    norm_num

theorem paced_of_unstarted {events : List PageEvent} (unstarted : Unstarted page)
    (sorted : (timeStamps events).Pairwise (· ≤ ·)) :
    ∀ start ∈ (timeStamps events).head?,
      Paced start (sendTimes page events) (timeStamps events) (ChannelOpen events) := by
  induction events generalizing page with
  | nil =>
      intro start none
      cases none
  | cons event events ih =>
      intro start first
      by_cases frame : ∃ timeStamp isOpen, event = .frame timeStamp isOpen
      case pos =>
          obtain ⟨timeStamp, isOpen, rfl⟩ := frame
          obtain rfl := Option.mem_some_iff.mp first
          obtain ⟨ahead, rest⟩ := List.pairwise_cons.mp sorted
          obtain ⟨unsent, timed⟩ := loop_unstarted unstarted timeStamp isOpen
          have paced := paced_of_timed timed rest fun previous found => by
            rw [Page.loop_previousTime] at found
            obtain rfl := Option.some.inj found
            exact ahead
          rw [sendTimes_frame, unsent]
          exact (paced.unsent le_rfl (by linarith)).opened
      case neg =>
          have handler : ∀ timeStamp isOpen, event ≠ .frame timeStamp isOpen :=
            fun timeStamp isOpen same => frame ⟨timeStamp, isOpen, same⟩
          obtain ⟨previous, timer⟩ := next_timer page handler
          rw [timeStamps_other handler] at sorted first ⊢
          rw [sendTimes_other page handler]
          exact (ih ⟨previous.trans unstarted.1, timer.trans unstarted.2⟩ sorted start first).opened

end Rate

/-- Messages are at least 20 ms apart, the first one behind the first frame, and as long as
the channel is open no frame leaves the last one, or the first frame, 20 ms behind. -/
theorem sends_paced (events : List PageEvent) (sorted : (timeStamps events).Pairwise (· ≤ ·)) :
    ∀ start ∈ (timeStamps events).head?,
      Paced start (sendTimes Page.initial events) (timeStamps events) (ChannelOpen events) :=
  paced_of_unstarted ⟨rfl, rfl⟩ sorted

theorem sends_paced_sixty_hertz :
    Paced 0 (sendTimes Page.initial [.frame 0 true, .frame 17 true, .keydown .keyW, .frame 33 true,
      .frame 50 true, .frame 67 true]) [0, 17, 33, 50, 67] (ChannelOpen [.frame 0 true, .frame 17 true,
      .keydown .keyW, .frame 33 true, .frame 50 true, .frame 67 true]) :=
  sends_paced _ (by simp [timeStamps]; norm_num) 0 rfl

section Convergence

/-- A frame that is short enough not to overshoot. -/
def ShortFrame (page : Page) (event : PageEvent) : Prop :=
  ∃ timeStamp isOpen, event = .frame timeStamp isOpen ∧
    page.steeringFactor timeStamp ≤ 1 ∧ page.throttleFactor timeStamp ≤ 1

/-- How much of the distance to its target a value may have left when it has been moved with
this factor for so many milliseconds. -/
noncomputable def remaining (factor elapsed : ℚ) : ℝ := Real.exp (-((factor * elapsed * 60 / 1000 : ℚ) : ℝ))

theorem remaining_add (factor first second : ℚ) :
    remaining factor (first + second) = remaining factor first * remaining factor second := by
  rw [remaining, remaining, remaining, ← Real.exp_add]
  congr 1
  push_cast
  ring

theorem distance_frame {value target moved factor elapsed : ℚ}
    (step : moved = Relaxation.step value target (factor * elapsed * 60 / 1000))
    (fraction : factor * elapsed * 60 / 1000 ≤ 1) :
    |(moved : ℝ) - target| ≤ |(value : ℝ) - target| * remaining factor elapsed := by
  have real : ((moved : ℚ) : ℝ) =
      Relaxation.step (value : ℝ) target ((factor * elapsed * 60 / 1000 : ℚ) : ℝ) := by
    rw [step, Relaxation.step, Relaxation.step]
    push_cast
    ring
  rw [real, remaining]
  exact Relaxation.distance_step_le (by exact_mod_cast fraction)

/-- How the values have moved since `start`. -/
structure Approaches (before after : Page) (elapsed : ℚ) : Prop where
  steering : |(after.dataX : ℝ) - before.targetSteeringValue| ≤
    |(before.dataX : ℝ) - before.targetSteeringValue| * remaining before.moveFactor elapsed
  throttle : |(after.dataY : ℝ) - before.targetThrottleValue| ≤
    |(before.dataY : ℝ) - before.targetThrottleValue| * remaining before.moveFactor2 elapsed

theorem approaches_refl (page : Page) : Approaches page page 0 := by
  have all (factor : ℚ) : remaining factor 0 = 1 := by simp [remaining]
  constructor <;> rw [all, mul_one]

theorem loop_approaches {page : Page} {timeStamp start : ℚ} (isOpen : Bool)
    (found : page.previousTime = some start) (steering : page.steeringFactor timeStamp ≤ 1)
    (throttle : page.throttleFactor timeStamp ≤ 1) :
    Approaches page (page.loop timeStamp isOpen).1 (timeStamp - start) := by
  have dt : page.dt timeStamp = timeStamp - start := by rw [Page.dt, found]
  rw [Page.steeringFactor, dt] at steering
  rw [Page.throttleFactor, dt] at throttle
  constructor
  · refine distance_frame ?_ steering
    rw [Page.loop_dataX, Page.steeringFactor, dt]
  · refine distance_frame ?_ throttle
    rw [Page.loop_dataY, Page.throttleFactor, dt]

/-- Two spans, when the first one ends with the aims it started with. -/
theorem Approaches.trans {before middle after : Page} {first second : ℚ}
    (earlier : Approaches before middle first) (later : Approaches middle after second)
    (steering : middle.targetSteeringValue = before.targetSteeringValue)
    (throttle : middle.targetThrottleValue = before.targetThrottleValue)
    (moveFactor : middle.moveFactor = before.moveFactor)
    (moveFactor2 : middle.moveFactor2 = before.moveFactor2) : Approaches before after (first + second) := by
  have positive (factor elapsed : ℚ) : 0 ≤ remaining factor elapsed := (Real.exp_pos _).le
  constructor
  · have rest := later.steering
    rw [steering, moveFactor] at rest
    rw [remaining_add, ← mul_assoc]
    exact rest.trans (mul_le_mul_of_nonneg_right earlier.steering (positive _ _))
  · have rest := later.throttle
    rw [throttle, moveFactor2] at rest
    rw [remaining_add, ← mul_assoc]
    exact rest.trans (mul_le_mul_of_nonneg_right earlier.throttle (positive _ _))

end Convergence

/-- While nothing is pressed or released, both values approach their targets at least as fast
as an exponential in the time that has passed, whatever the frame rate. -/
theorem frames_approach (page : Page) {start finish : ℚ} (events : List PageEvent)
    (begun : page.previousTime = some start) (short : controlPage.Along ShortFrame page events)
    (ended : (controlPage.run page events).previousTime = some finish) :
    Approaches page (controlPage.run page events) (finish - start) := by
  induction events generalizing page start with
  | nil =>
      rw [Machine.run_nil, begun] at ended
      rw [Option.some.inj ended, sub_self]
      exact approaches_refl page
  | cons event events ih =>
      obtain ⟨⟨timeStamp, isOpen, rfl, steering, throttle⟩, rest⟩ := short
      have first := loop_approaches isOpen begun steering throttle
      have later := ih (page.loop timeStamp isOpen).1 (Page.loop_previousTime page timeStamp isOpen) rest ended
      have both := first.trans later (Page.loop_targetSteeringValue page timeStamp isOpen)
        (Page.loop_targetThrottleValue page timeStamp isOpen) (Page.loop_moveFactor page timeStamp isOpen)
        (Page.loop_moveFactor2 page timeStamp isOpen)
      rw [add_comm, sub_add_sub_cancel] at both
      exact both

/-- The page with the left key held since its first frame. -/
def leftKeyHeld : Page := ({ Page.initial with previousTime := some 0 }).keydown .keyA

theorem frames_approach_left_key :
    Approaches leftKeyHeld (controlPage.run leftKeyHeld [.frame 20 true, .frame 50 true]) (50 - 0) := by
  refine frames_approach leftKeyHeld _ rfl ⟨⟨20, true, rfl, ?_, ?_⟩, ⟨50, true, rfl, ?_, ?_⟩, trivial⟩
    (Page.loop_previousTime _ 50 true) <;>
    norm_num [leftKeyHeld, controlPage, Page.next, Page.keydown, Page.aimSteering, Page.initial,
      Page.steeringFactor, Page.throttleFactor, Page.dt]

end RcControl.Control
