import RcControl.Control.DeadMan

namespace RcControl.Control

open RcControl.Data

/-! Which of the held controls the targets follow.

The page keeps no record of what is held: a press aims at its own extreme, and a release at
the middle, whatever else is held. -/

/-- What a control acts on. -/
inductive Axis where
  | throttle | steering
deriving DecidableEq, Repr

def PageControl.axis (control : PageControl) : Axis :=
  if control.throttle then .throttle else .steering

def PageControl.extreme : PageControl → ℚ
  | .keyW | .btnUp => throttleMin
  | .keyS | .btnDown => throttleMax
  | .keyA | .btnLeft => steerMin
  | .keyD | .btnRight => steerMax

def Axis.mid : Axis → ℚ
  | .throttle => throttleMid
  | .steering => steerMid

def Page.target (page : Page) : Axis → ℚ
  | .throttle => page.targetThrottleValue
  | .steering => page.targetSteeringValue

def PageEvent.presses (event : PageEvent) (axis : Axis) : Bool :=
  event.press?.any (·.axis = axis)

def PageEvent.releases (event : PageEvent) (axis : Axis) : Bool :=
  event.release?.any (·.axis = axis)

def holdInOrder (held : List PageControl) (event : PageEvent) : List PageControl :=
  match event.press? with
  | some control => control :: held.erase control
  | none =>
      match event.release? with
      | some control => held.erase control
      | none => held

/-- The controls that are held, the most recently pressed one first. -/
def heldInOrder (events : List PageEvent) : List PageControl := events.foldl holdInOrder []

/-- The extreme of the first of them, for one axis. -/
def Axis.followed (axis : Axis) (held : List PageControl) : ℚ :=
  match held.find? (·.axis = axis) with
  | some control => control.extreme
  | none => axis.mid

def letGo (axis : Axis) (released : Bool) (event : PageEvent) : Bool :=
  if event.presses axis then false else event.releases axis || released

/-- A control of the axis has been released since the last press of one. -/
def releasedLast (axis : Axis) (events : List PageEvent) : Bool :=
  events.foldl (letGo axis) false

/-- Each release is delivered to a control that is held. -/
def Delivered (held : PageControl → Bool) : List PageEvent → Prop
  | [] => True
  | event :: events =>
      (∀ control, event.release? = some control → held control = true) ∧
        Delivered (hold held event) events

section Held

/-- One event keeps the order free of repetitions and in step with what is held. -/
theorem holdInOrder_spec {order : List PageControl} {held : PageControl → Bool}
    (distinct : order.Nodup) (same : ∀ control, control ∈ order ↔ held control = true)
    (event : PageEvent) :
    (holdInOrder order event).Nodup ∧
      ∀ control, control ∈ holdInOrder order event ↔ hold held event control = true := by
  unfold holdInOrder hold
  cases presses : event.press? with
  | some pressed =>
      refine ⟨List.nodup_cons.mpr ⟨distinct.not_mem_erase, distinct.erase pressed⟩, ?_⟩
      intro control
      have released : event.release? = none := by
        cases event <;> first | rfl | cases presses
      rw [List.mem_cons, distinct.mem_erase_iff, same, released]
      by_cases here : control = pressed
      · simp [here]
      · simp [here, Ne.symm here]
  | none =>
      cases releases : event.release? with
      | some released =>
          refine ⟨distinct.erase released, ?_⟩
          intro control
          rw [distinct.mem_erase_iff, same]
          by_cases here : control = released
          · simp [here]
          · simp [here, Ne.symm here]
      | none => exact ⟨distinct, by simpa using same⟩

/-- The controls in the order are those that are held. -/
theorem mem_heldInOrder (events : List PageEvent) :
    (heldInOrder events).Nodup ∧
      ∀ control, control ∈ heldInOrder events ↔ heldAfter events control = true := by
  induction events using List.reverseRecOn with
  | nil => exact ⟨List.nodup_nil, by simp [heldInOrder, heldAfter]⟩
  | append_singleton front event ih =>
      rw [heldInOrder, heldAfter, List.foldl_concat, List.foldl_concat]
      exact holdInOrder_spec ih.1 ih.2 event

theorem find?_erase_of_not {Item : Type*} [DecidableEq Item] {select : Item → Bool} {item : Item}
    (unselected : select item = false) (items : List Item) :
    (items.erase item).find? select = items.find? select := by
  induction items with
  | nil => rfl
  | cons first rest ih =>
      by_cases same : first = item
      · subst same
        rw [List.erase_cons_head, List.find?_cons_of_neg (by simp [unselected])]
      · rw [List.erase_cons_tail (by simpa using same), List.find?_cons, List.find?_cons, ih]

end Held

section Step

variable {page : Page} {event : PageEvent} {control : PageControl} {axis : Axis}

/-- A press aims at the extreme of its control. -/
theorem next_target_press (page : Page) (presses : event.press? = some control) :
    (page.next event).target control.axis = control.extreme := by
  cases event with
  | keydown code => cases code <;> cases presses <;> rfl
  | mousedown button => cases button <;> cases presses <;> rfl
  | keyup | mouseup | frame => cases presses

/-- A release aims at the middle, whatever else is held. -/
theorem next_target_release (page : Page) (releases : event.release? = some control) :
    (page.next event).target control.axis = control.axis.mid := by
  cases event with
  | keyup code => cases code <;> cases releases <;> rfl
  | mouseup button => cases button <;> cases releases <;> rfl
  | keydown | mousedown | frame => cases releases

/-- No other event changes a target. -/
theorem next_target_other (page : Page) (unpressed : event.presses axis = false)
    (unreleased : event.releases axis = false) :
    (page.next event).target axis = page.target axis := by
  cases event with
  | keydown code => cases axis <;> cases code <;> first | rfl | cases unpressed
  | keyup code => cases axis <;> cases code <;> first | rfl | cases unreleased
  | mousedown button => cases axis <;> cases button <;> first | rfl | cases unpressed
  | mouseup button => cases axis <;> cases button <;> first | rfl | cases unreleased
  | frame timeStamp isOpen =>
      cases axis with
      | throttle => exact page.loop_targetThrottleValue timeStamp isOpen
      | steering => exact page.loop_targetSteeringValue timeStamp isOpen

end Step

section Followed

variable {event : PageEvent} {control : PageControl} {axis : Axis} {held : List PageControl}

theorem presses_eq_true : event.presses axis = true ↔
    ∃ control, event.press? = some control ∧ control.axis = axis := by
  simp [PageEvent.presses, Option.any_eq_true]

theorem releases_eq_true : event.releases axis = true ↔
    ∃ control, event.release? = some control ∧ control.axis = axis := by
  simp [PageEvent.releases, Option.any_eq_true]

/-- The control that was pressed last is followed. -/
theorem followed_press (presses : event.press? = some control) (held : List PageControl) :
    control.axis.followed (holdInOrder held event) = control.extreme := by
  simp [holdInOrder, presses, Axis.followed]

theorem followed_cons (elsewhere : control.axis ≠ axis) (held : List PageControl) :
    axis.followed (control :: held) = axis.followed held := by
  rw [Axis.followed, List.find?_cons_of_neg (by simpa using elsewhere), Axis.followed]

theorem followed_erase (elsewhere : control.axis ≠ axis) (held : List PageControl) :
    axis.followed (held.erase control) = axis.followed held := by
  have unmoved : (held.erase control).find? (fun other => other.axis = axis) =
      held.find? fun other => other.axis = axis :=
    find?_erase_of_not (by simpa using elsewhere) held
  rw [Axis.followed, unmoved, Axis.followed]

/-- An event of the other axis leaves the followed control as it is. -/
theorem followed_other (unpressed : event.presses axis = false)
    (unreleased : event.releases axis = false) (held : List PageControl) :
    axis.followed (holdInOrder held event) = axis.followed held := by
  unfold holdInOrder
  cases presses : event.press? with
  | some pressed =>
      have elsewhere : pressed.axis ≠ axis := by simpa [PageEvent.presses, presses] using unpressed
      rw [followed_cons elsewhere, followed_erase elsewhere]
  | none =>
      cases releases : event.release? with
      | some released =>
          have elsewhere : released.axis ≠ axis := by
            simpa [PageEvent.releases, releases] using unreleased
          exact followed_erase elsewhere held
      | none => rfl

theorem extreme_ne_mid (control : PageControl) : control.extreme ≠ control.axis.mid := by
  cases control <;> norm_num [PageControl.extreme, PageControl.axis, PageControl.throttle, Axis.mid,
    throttleMin, throttleMid, throttleMax, steerMin, steerMid, steerMax]

theorem followed_eq_mid_iff :
    axis.followed held = axis.mid ↔ ∀ control ∈ held, control.axis ≠ axis := by
  unfold Axis.followed
  cases found : held.find? (·.axis = axis) with
  | none =>
      have none_held := List.find?_eq_none.mp found
      exact iff_of_true rfl (by simpa using none_held)
  | some control =>
      have member := List.mem_of_find?_eq_some found
      have same : control.axis = axis := by simpa using List.find?_some found
      apply iff_of_false
      · rw [← same]
        exact extreme_ne_mid control
      · exact fun none_held => none_held control member same

end Followed

/-- The induction is on the last event: a press and a release of the axis settle its target,
and every other event leaves the target and the followed control alone. -/
theorem run_target (events : List PageEvent) (axis : Axis)
    (pressed : ∃ event ∈ events, event.presses axis = true) :
    (controlPage.run Page.initial events).target axis =
      if releasedLast axis events then axis.mid else axis.followed (heldInOrder events) := by
  induction events using List.reverseRecOn with
  | nil => simp at pressed
  | append_singleton front event ih =>
      rw [Machine.run_concat, releasedLast, heldInOrder, List.foldl_concat, List.foldl_concat]
      change (Page.next _ event).target axis = _
      cases presses : event.presses axis with
      | true =>
          obtain ⟨control, press, rfl⟩ := presses_eq_true.mp presses
          rw [letGo, if_pos presses, next_target_press _ press, followed_press press]
          rfl
      | false =>
          have earlier : ∃ event ∈ front, event.presses axis = true := by
            obtain ⟨other, member, before⟩ := pressed
            rcases List.mem_append.mp member with old | new
            · exact ⟨other, old, before⟩
            · rw [List.mem_singleton.mp new, presses] at before
              cases before
          cases releases : event.releases axis with
          | true =>
              obtain ⟨control, release, rfl⟩ := releases_eq_true.mp releases
              simp only [letGo, presses, releases, Bool.true_or, if_true, Bool.false_eq_true, if_false]
              exact next_target_release _ release
          | false =>
              simp only [letGo, presses, releases, Bool.false_or, Bool.false_eq_true, if_false]
              rw [next_target_other _ presses releases, followed_other presses releases]
              exact ih earlier

/-- After a press of an axis its target is the middle, if one of its controls has been
released since, and otherwise follows the held control that was pressed last.  So it strays
from the held controls exactly where a release has left one of them behind. -/
theorem target_follows (events : List PageEvent) (axis : Axis)
    (pressed : ∃ event ∈ events, event.presses axis = true) :
    (controlPage.run Page.initial events).target axis =
        (if releasedLast axis events then axis.mid else axis.followed (heldInOrder events)) ∧
      ((controlPage.run Page.initial events).target axis = axis.followed (heldInOrder events) ↔
        (releasedLast axis events = true → ∀ control, heldAfter events control = true →
          control.axis ≠ axis)) := by
  have target := run_target events axis pressed
  refine ⟨target, ?_⟩
  rw [target]
  cases releasedLast axis events with
  | true =>
      rw [if_pos rfl, eq_comm, followed_eq_mid_iff]
      simp only [true_imp_iff, (mem_heldInOrder events).2]
  | false => simp

/-- The forward key is held, and the backward key pressed and released. -/
theorem target_follows_overlap :
    (controlPage.run Page.initial [.keydown .keyW, .keydown .keyS, .keyup .keyS]).target .throttle =
      throttleMid :=
  (target_follows _ .throttle ⟨.keydown .keyW, List.mem_cons_self, rfl⟩).1

/-- The forward key is held, but the throttle is at its middle. -/
theorem not_target_followed :
    ¬ ∀ events : List PageEvent, Delivered (fun _ => false) events → ∀ axis : Axis,
      (∃ event ∈ events, event.presses axis = true) →
        (controlPage.run Page.initial events).target axis = axis.followed (heldInOrder events) := by
  intro follows
  let events : List PageEvent := [.keydown .keyW, .keydown .keyS, .keyup .keyS]
  have delivered : Delivered (fun _ => false) events := by
    refine ⟨?_, ?_, ?_, trivial⟩ <;> intro control releases <;> cases releases
    rfl
  have followed := follows events delivered .throttle ⟨.keydown .keyW, List.mem_cons_self, rfl⟩
  have aims : (controlPage.run Page.initial events).target .throttle = 1500 := rfl
  have holds : Axis.throttle.followed (heldInOrder events) = 1200 := rfl
  rw [aims, holds] at followed
  norm_num at followed

end RcControl.Control
