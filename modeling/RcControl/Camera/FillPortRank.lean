import RcControl.Camera.FillPortWaits

namespace RcControl.Camera

open RcControl.Data RcControl.Mmal

/-! How far a call of `fill_port_from_pool` is from its end.

While a callback is inside the lock of the pool's queue, the main loop may read a length above
zero and get nothing, again and again.  A callback that is inside gets on, and there are only
so many.  Otherwise the header that a length has promised is there, and each send is of
another header. -/

variable {headersNum : Pool → Nat} {port : Port} {pool : Pool} {offered gone : List Header}
  {passed : Queue → Multiset Header} {contents : Queue → List Header} {state : Circuit} {caller : Caller}
  {queue : Queue} {thread : Nat} {call : Call Header} {stage : Mmal.Thread Header} {header : Header}

namespace Circuit

/-- What the main loop has left in a round.  It may have to begin a new one while it is
blocked. -/
def mainLeft (state : Circuit) (port : Port) : Nat :=
  if state.blocked port.source then 19
  else
    match state.main, state.callers.stage .mainLoop with
    | .sending _ _, _ => 8
    | .getting _, some (.returned none) => 19
    | _, some stage => stage.left
    | _, none => 0

/-- What the callback of a header has left in a queue. -/
def putLeft (state : Circuit) (queue : Queue) (header : Header) : Nat :=
  match state.callers.calls (.callback header) with
  | some (place, _, _) =>
      if place = queue then ((state.callers.stage (.callback header)).map Mmal.Thread.left).getD 0 else 0
  | none => 0

/-- A header that the encoder's input holds may be put into the queue yet. -/
def comes (state : Circuit) (queue : Queue) (header : Header) : Nat :=
  (if header ∈ state.held .encoderInput then 8 else 0) + state.putLeft queue header

/-- At most `limit` headers are offered to the port. -/
def rank (headersNum : Pool → Nat) (port : Port) (limit : Nat) (state : Circuit) : Nat :=
  if state.main.InCall port then
    1 + state.mainLeft port + 11 * (limit - (state.offered port).length) +
      20 * ((allHeaders headersNum).map (state.comes port.source)).sum
  else 0

/-- Who can take a step towards the end of the call. -/
def Enabled (port : Port) (state : Circuit) : Caller → Prop
  | .mainLoop => state.main.InCall port ∧ state.blocked port.source = false
  | .callback header =>
      state.main.InCall port ∧ ∃ thread call stage,
        state.callers.calls (.callback header) = some (port.source, thread, call) ∧
        state.callers.stage (.callback header) = some stage ∧ stage.inside = true

def Event.Serves : Event → Caller → Prop
  | .main _ _, caller => caller = .mainLoop
  | .callback header, caller => caller = .callback header
  | .returns _ _, _ => False

end Circuit

section Left

theorem mainLeft_le (state : Circuit) (port : Port) : state.mainLeft port ≤ 19 := by
  unfold Circuit.mainLeft
  split
  · exact le_rfl
  · split
    · decide
    · exact le_rfl
    · exact (Mmal.Thread.left_le _).trans (by decide)
    · decide

theorem mainLeft_of_blocked (blocked : state.blocked port.source = true) : state.mainLeft port = 19 := by
  rw [Circuit.mainLeft, if_pos blocked]

end Left

section Steps

/-! The headers that may come back. -/

theorem putLeft_eq (called : state.callers.calls (.callback header) = some (queue, thread, call))
    (other : Queue) :
    state.putLeft other header =
      if queue = other then ((state.callers.stage (.callback header)).map Mmal.Thread.left).getD 0 else 0 := by
  rw [Circuit.putLeft, called]

theorem comes_congr {after : Circuit} (held : after.held .encoderInput = state.held .encoderInput)
    (calls : after.callers.calls (.callback header) = state.callers.calls (.callback header))
    (stage : after.callers.stage (.callback header) = state.callers.stage (.callback header)) :
    after.comes queue header = state.comes queue header := by
  rw [Circuit.comes, Circuit.comes, Circuit.putLeft, Circuit.putLeft, held, calls, stage]

theorem comes_step (stands : state.Stands headersNum passed contents)
    (called : state.callers.calls caller = some (queue, thread, call))
    (found : (state.callers.queues queue).threads[thread]? = some stage) (other : Queue) (header : Header) :
    (state.stepOf caller).comes other header ≤ state.comes other header := by
  by_cases own : caller = .callback header
  · subst own
    have after : (state.stepOf (.callback header)).callers.stage (.callback header) = some _ :=
      Callers.step_stage_self called found
    have before : state.callers.stage (.callback header) = some stage :=
      (Callers.stage_eq called).trans found
    rw [Circuit.comes, Circuit.comes, putLeft_eq called, putLeft_eq (Callers.step_called called), after,
      before]
    refine Nat.add_le_add_left ?_ _
    split
    · exact (stands.puts called found).left_next_le
    · exact le_rfl
  · have same : (state.stepOf caller).comes other header = state.comes other header :=
      comes_congr rfl (congrFun Callers.step_calls _) (stepOf_stage_other stands (Ne.symm own))
    exact same.le

/-- A callback that gets on in the queue. -/
theorem comes_step_lt (called : state.callers.calls (.callback header) = some (queue, thread, call))
    (found : (state.callers.queues queue).threads[thread]? = some stage)
    (ready : stage.Ready (state.callers.queues queue)) :
    (state.stepOf (.callback header)).comes queue header < state.comes queue header := by
  have after : (state.stepOf (.callback header)).callers.stage (.callback header) = some _ :=
    Callers.step_stage_self called found
  have before : state.callers.stage (.callback header) = some stage := (Callers.stage_eq called).trans found
  rw [Circuit.comes, Circuit.comes, putLeft_eq called, putLeft_eq (Callers.step_called called), after, before,
    if_pos rfl, if_pos rfl]
  exact Nat.add_lt_add_left (Mmal.Thread.left_next_lt ready) _

/-- A callback that has returned, or has not begun, has nothing left. -/
theorem putLeft_of_idle (stands : state.Stands headersNum passed contents)
    (idle : state.callers.busy (.callback header) = false) (queue : Queue) :
    state.putLeft queue header = 0 := by
  cases called : state.callers.calls (.callback header) with
  | none => rw [Circuit.putLeft, called]
  | some record =>
      obtain ⟨place, thread, call⟩ := record
      obtain ⟨stage, found, -⟩ := stands.sound.reaches _ _ _ _ called
      have at_ : state.callers.stage (.callback header) = some stage := (Callers.stage_eq called).trans found
      have puts := stands.puts called found
      rw [Callers.busy, at_, Option.any_some, Bool.not_eq_false'] at idle
      rw [putLeft_eq called, at_]
      split
      · cases stage with
        | returned result =>
            cases result with
            | none => rfl
            | some buffer => cases puts
        | returnedLength length => cases puts
        | _ => cases idle
      · rfl

theorem comes_le (stands : state.Stands headersNum passed contents) (queue : Queue) (header : Header) :
    state.comes queue header ≤ 8 := by
  rw [Circuit.comes]
  split
  · rename_i held
    rw [putLeft_of_idle stands (stands.callback_idle held)]
  · rw [Nat.zero_add]
    cases called : state.callers.calls (.callback header) with
    | none => simp [Circuit.putLeft, called]
    | some record =>
        obtain ⟨place, thread, call⟩ := record
        obtain ⟨stage, found, -⟩ := stands.sound.reaches _ _ _ _ called
        have at_ : state.callers.stage (.callback header) = some stage := (Callers.stage_eq called).trans found
        rw [putLeft_eq called, at_]
        split
        · exact (stands.puts called found).left_le.trans (by decide)
        · decide

theorem comes_returned (feeds : port.source = .pool pool) (stands : state.Stands headersNum passed contents)
    (from_ : Port) (other header : Header) :
    (state.next (.returns from_ other)).comes port.source header ≤ state.comes port.source header := by
  by_cases held : other ∈ state.held from_
  · have callers := callers_returned held
    by_cases own : header = other
    · subst own
      have idle := stands.callback_idle held
      have after : (state.next (.returns from_ header)).putLeft port.source header ≤
          if from_.returnsTo header = port.source then 7 else 0 := by
        rw [Circuit.putLeft, callers, Callers.enter_calls_self]
        simp only [Callers.enter_stage_self]
        split <;> exact le_rfl
      rw [Circuit.comes, Circuit.comes, putLeft_of_idle stands idle, held_returned held]
      by_cases input : from_ = .encoderInput
      · subst input
        rw [Function.update_self, if_neg (List.Nodup.not_mem_erase (stands.nodup_held _)), if_pos held]
        refine (Nat.add_le_add_left after 0).trans ?_
        split <;> decide
      · have elsewhere : header ∉ state.held .encoderInput := by
          intro inside
          have same : Place.port .encoderInput = .port from_ := stands.unique held inside
          exact input (Place.port.inj same).symm
        have apart : from_.returnsTo header ≠ port.source := by
          rw [feeds]
          cases from_ with
          | videoPort | encoderOutput => simp [Port.returnsTo]
          | encoderInput => exact absurd rfl input
        rw [if_neg apart] at after
        rw [Function.update_of_ne (Ne.symm input), if_neg elsewhere]
        exact Nat.add_le_add_left after 0
    · have same : (state.next (.returns from_ other)).putLeft port.source header =
          state.putLeft port.source header := by
        rw [Circuit.putLeft, callers, Callers.enter_calls_other (by simpa using own),
          stands.sound.enter_stage_other (by simpa using own), Circuit.putLeft]
      have kept : header ∈ (state.next (.returns from_ other)).held .encoderInput ↔
          header ∈ state.held .encoderInput := by
        rw [held_returned held]
        by_cases input : from_ = .encoderInput
        · subst input
          rw [Function.update_self]
          exact List.mem_erase_of_ne own
        · rw [Function.update_of_ne (Ne.symm input)]
      rw [Circuit.comes, Circuit.comes, same, if_congr kept rfl rfl]
  · rw [Circuit.next, if_neg held]

end Steps

section Rank

/-! Each step of the main loop lowers the rank unless a callback has the lock. -/

theorem rank_of_inCall {limit : Nat} (inCall : state.main.InCall port) :
    state.rank headersNum port limit =
      1 + state.mainLeft port + 11 * (limit - (state.offered port).length) +
        20 * ((allHeaders headersNum).map (state.comes port.source)).sum :=
  if_pos inCall

theorem coming_congr {after : Circuit}
    (same : ∀ header, after.comes queue header = state.comes queue header) :
    ((allHeaders headersNum).map (after.comes queue)).sum =
      ((allHeaders headersNum).map (state.comes queue)).sum := by
  rw [funext same]

theorem mainLeft_eq (free : state.blocked port.source = false)
    (at_ : state.callers.stage .mainLoop = some stage)
    (notSending : ∀ own header, state.main ≠ .sending own header)
    (gets : ∀ own, state.main = .getting own → stage ≠ .returned none) :
    state.mainLeft port = stage.left := by
  rw [Circuit.mainLeft, free, if_neg Bool.false_ne_true, at_]
  split
  · exact absurd ‹_› (notSending _ _)
  · rename_i main got
    exact absurd (Option.some.inj got) (gets _ main)
  · rename_i got _ _
    exact congrArg Mmal.Thread.left (Option.some.inj got).symm
  · rename_i got _
    cases got

/-- A step of the main loop does not hand its lock to a callback. -/
theorem free_step (stands : state.Stands headersNum passed contents)
    (called : state.callers.calls .mainLoop = some (queue, thread, call))
    (found : (state.callers.queues queue).threads[thread]? = some stage)
    (free : state.blocked queue = false) : (state.stepOf .mainLoop).blocked queue = false := by
  have sound := stands.sound.queues queue
  have at_ : state.callers.stage .mainLoop = some stage := (Callers.stage_eq called).trans found
  have after : (state.stepOf .mainLoop).callers.stage .mainLoop = some _ :=
    Callers.step_stage_self called found
  have queueAfter : (state.stepOf .mainLoop).callers.queues queue =
      (state.callers.queues queue).step thread := by
    rw [Circuit.stepOf, Callers.step_queues called, Function.update_self]
  have foundAfter : ((state.callers.queues queue).step thread).threads[thread]? =
      some (stage.next (state.callers.queues queue)) := by
    rw [step_threads found, List.getElem?_set_self (List.getElem?_eq_some_iff.mp found).1]
  rw [Circuit.blocked, at_, Option.any_some, Bool.and_eq_false_iff, Bool.not_eq_false'] at free
  rw [Circuit.blocked, after, Option.any_some, queueAfter, Bool.and_eq_false_iff, Bool.not_eq_false']
  have own : (state.callers.queues queue).owner = none ∨ (state.callers.queues queue).owner = some thread :=
    free.imp (fun none_ => Option.isNone_iff_eq_none.mp (Option.isSome_eq_false_iff.mp none_))
      (sound.guarded.inside_iff found).mp
  rcases step_owner (state.callers.queues queue) thread with same | none_ | owned
  · rcases own with none_ | owned
    · exact .inl (by rw [same, none_]; rfl)
    · exact .inr (((sound.advance found).guarded.inside_iff foundAfter).mpr (same.trans owned))
  · exact .inl (by rw [none_]; rfl)
  · exact .inr (((sound.advance found).guarded.inside_iff foundAfter).mpr owned)

theorem Waiting.mainLeft_step (waiting : Waiting headersNum port offered gone passed contents state)
    (called : state.callers.calls .mainLoop = some (queue, thread, call))
    (found : (state.callers.queues queue).threads[thread]? = some stage) (running : stage.done = false)
    (free : state.blocked port.source = false) :
    (state.stepOf .mainLoop).mainLeft port < state.mainLeft port := by
  have ready := waiting.ready called found running free
  have expects := waiting.stands.expected called found running
  obtain ⟨rfl, -⟩ := waiting.queue_eq called found running
  have at_ : state.callers.stage .mainLoop = some stage := (Callers.stage_eq called).trans found
  have after : (state.stepOf .mainLoop).callers.stage .mainLoop = some _ :=
    Callers.step_stage_self called found
  have notSending : ∀ own header, state.main ≠ .sending own header := by
    intro own header here
    rw [here] at expects
    cases expects
  have getting : ∀ own, state.main = .getting own → call = .get := by
    intro own here
    rw [here] at expects
    exact (Prod.mk.inj (Option.some.inj expects)).2.symm
  have before : ∀ own, state.main = .getting own → stage ≠ .returned none := by
    rintro own - rfl
    cases running
  have later : ∀ own, state.main = .getting own →
      stage.next (state.callers.queues port.source) ≠ .returned none := by
    intro own here next
    obtain rfl := getting own here
    rcases next_eq_returned next running with rfl | ⟨rfl, none_⟩
    · obtain ⟨stage', found', reaches⟩ := waiting.stands.sound.reaches _ _ _ _ called
      obtain rfl := Option.some.inj (found.symm.trans found')
      rcases reaches with reaches | reaches <;> cases reaches
    · exact ready none_
  rw [mainLeft_eq free at_ notSending before,
    mainLeft_eq (free_step waiting.stands called found free) after notSending later]
  exact Mmal.Thread.left_next_lt ready

theorem blocked_enter (idle : state.callers.busy .mainLoop = false) {after : Circuit}
    (entered : after.callers = state.callers.enter .mainLoop queue call) (other : Queue) :
    after.blocked other = state.blocked other := by
  have outside : ∀ stage, after.callers.stage .mainLoop = some stage → stage.inside = false := by
    intro stage at_
    rw [entered, Callers.enter_stage_self] at at_
    obtain rfl := Option.some.inj at_
    cases call <;> rfl
  rw [blocked_of_outside outside, blocked_of_outside (outside_of_idle idle), entered, Callers.enter_queues]
  by_cases same : other = queue
  · subst same
    rw [Function.update_self]
    rfl
  · rw [Function.update_of_ne same]

theorem coming_enter (stands : state.Stands headersNum passed contents) {after : Circuit}
    (entered : after.callers = state.callers.enter .mainLoop queue call)
    (held : after.held .encoderInput = state.held .encoderInput) (other : Queue) :
    ((allHeaders headersNum).map (after.comes other)).sum =
      ((allHeaders headersNum).map (state.comes other)).sum := by
  refine coming_congr fun header => comes_congr held ?_ ?_
  · rw [entered, Callers.enter_calls_other (by simp)]
  · rw [entered, stands.sound.enter_stage_other (by simp)]

/-- What is left when the main loop enters a function. -/
theorem mainLeft_enter {after : Circuit} (free : after.blocked port.source = false)
    (entered : after.callers = state.callers.enter .mainLoop queue call)
    (notSending : ∀ own header, after.main ≠ .sending own header) :
    after.mainLeft port = call.start.left := by
  refine mainLeft_eq free (by rw [entered, Callers.enter_stage_self]) notSending fun own here => ?_
  cases call <;> simp [Call.start]

theorem mainLeft_sending (here : state.main = .sending port header)
    (free : state.blocked port.source = false) :
    state.mainLeft port = 8 := by
  rw [Circuit.mainLeft, free, if_neg Bool.false_ne_true, here]

theorem length_addOffered (state : Circuit) (port : Port) (header : Header) :
    ((state.addOffered port header).offered port).length = (state.offered port).length + 1 := by
  change (Function.update state.offered port (state.offered port ++ [header]) port).length = _
  rw [Function.update_self, List.length_append, List.length_singleton]

/-- The rank falls, or a callback has the lock and it does not rise. -/
def Falls (headersNum : Pool → Nat) (port : Port) (limit : Nat) (state after : Circuit) : Prop :=
  after.rank headersNum port limit ≤ state.rank headersNum port limit ∧
    (state.blocked port.source = false →
      after.rank headersNum port limit < state.rank headersNum port limit)

section Falls

variable {after : Circuit} {limit : Nat}

theorem falls_of_mainLeft (during : state.main.InCall port) (inCall : after.main.InCall port)
    (offers : after.offered port = state.offered port)
    (coming : ((allHeaders headersNum).map (after.comes port.source)).sum =
      ((allHeaders headersNum).map (state.comes port.source)).sum)
    (lower : state.blocked port.source = false → after.mainLeft port < state.mainLeft port) :
    Falls headersNum port limit state after := by
  have most := mainLeft_le after port
  rw [Falls, rank_of_inCall during, rank_of_inCall inCall, offers, coming]
  cases blocked : state.blocked port.source with
  | true =>
      have left := mainLeft_of_blocked blocked
      exact ⟨by omega, fun free => by cases free⟩
  | false =>
      have left := lower blocked
      exact ⟨by omega, fun _ => by omega⟩

/-- A send is paid for by the header that is offered. -/
theorem falls_of_offered (during : state.main.InCall port) (inCall : after.main.InCall port)
    (offers : (after.offered port).length = (state.offered port).length + 1)
    (room : (after.offered port).length ≤ limit)
    (coming : ((allHeaders headersNum).map (after.comes port.source)).sum =
      ((allHeaders headersNum).map (state.comes port.source)).sum)
    (rises : state.blocked port.source = false → after.mainLeft port ≤ state.mainLeft port + 10) :
    Falls headersNum port limit state after := by
  have most := mainLeft_le after port
  rw [Falls, rank_of_inCall during, rank_of_inCall inCall, coming]
  rw [offers] at room ⊢
  cases blocked : state.blocked port.source with
  | true =>
      have left := mainLeft_of_blocked blocked
      exact ⟨by omega, fun free => by cases free⟩
  | false =>
      have left := rises blocked
      exact ⟨by omega, fun _ => by omega⟩

theorem falls_goes (feeds : port.source = .pool pool) (stands : state.Stands headersNum passed contents)
    (idle : state.callers.busy .mainLoop = false) (during : state.main.InCall port)
    (goes : state.Goes port after) (inCall : after.main.InCall port)
    (room : (after.offered port).length ≤ limit) : Falls headersNum port limit state after := by
  cases goes with
  | gets here read =>
      have entered : (state.sendBufferFromQueue port).callers =
          state.callers.enter .mainLoop port.source .get := rfl
      refine falls_of_mainLeft during inCall rfl (coming_enter stands entered rfl port.source) fun free => ?_
      rw [mainLeft_enter ((blocked_enter idle entered _).trans free) entered (by rintro own header ⟨⟩),
        mainLeft_eq free read (by simp [here]) (by simp [here])]
      exact Nat.lt_succ_self 16
  | ends here read => exact absurd inCall ((Leaves.emptied here read rfl).not_inCall feeds)
  | repeats here got =>
      have entered : (state.fill port).callers = state.callers.enter .mainLoop port.source .length := rfl
      refine falls_of_mainLeft during inCall rfl (coming_enter stands entered rfl port.source) fun free => ?_
      have before : state.mainLeft port = 19 := by
        rw [Circuit.mainLeft, free, if_neg Bool.false_ne_true, here, got]
      rw [mainLeft_enter ((blocked_enter idle entered _).trans free) entered (by rintro own header ⟨⟩),
        before]
      exact Nat.lt_succ_self 18
  | @got header here got =>
      refine falls_of_mainLeft during inCall rfl rfl fun free => ?_
      have after : (state.goTo (.sending port header)).mainLeft port = 8 := mainLeft_sending rfl free
      rw [after, mainLeft_eq free got (by simp [here]) (by simp)]
      exact Nat.lt_succ_self 8
  | @sent header here =>
      have entered : (((state.addOffered port header).setHeld port (state.held port ++ [header])).fill
          port).callers = state.callers.enter .mainLoop port.source .length := rfl
      have held : (((state.addOffered port header).setHeld port (state.held port ++ [header])).fill
          port).held .encoderInput = state.held .encoderInput := by
        refine Function.update_of_ne ?_ _ _
        rintro rfl
        cases feeds
      refine falls_of_offered during inCall (length_addOffered state port header) room
        (coming_enter stands entered held port.source) fun free => ?_
      rw [mainLeft_enter ((blocked_enter idle entered _).trans free) entered (by rintro own header ⟨⟩),
        mainLeft_sending here free]
      exact le_rfl
  | @refused header here =>
      have entered : ((state.addOffered port header).calls port.source (.putBack header)
          (.puttingBack port header)).callers =
          state.callers.enter .mainLoop port.source (.putBack header) := rfl
      refine falls_of_offered during inCall (length_addOffered state port header) room
        (coming_enter stands entered rfl port.source) fun free => ?_
      rw [mainLeft_enter ((blocked_enter idle entered _).trans free) entered (by rintro own header ⟨⟩),
        mainLeft_sending here free]
      simp [Call.start, Mmal.Thread.left]
  | stops here => exact inCall.elim

theorem rank_left_lt (during : state.main.InCall port) (left : ¬ after.main.InCall port) :
    after.rank headersNum port limit < state.rank headersNum port limit := by
  have zero : after.rank headersNum port limit = 0 := if_neg left
  rw [zero, rank_of_inCall during]
  omega

theorem Waiting.falls_main (feeds : port.source = .pool pool)
    (waiting : Waiting headersNum port offered gone passed contents state)
    (limit_ : limit = offered.length + headersNum pool) (stop sent : Bool) :
    Falls headersNum port limit state (state.mainStep stop sent) := by
  have during := waiting.here.inCall
  have stands := waiting.stands
  rw [Circuit.mainStep]
  split
  · rename_i busy
    rw [Callers.busy] at busy
    cases called : state.callers.calls .mainLoop with
    | none => simp [Callers.stage, called] at busy
    | some record =>
        obtain ⟨queue, thread, call⟩ := record
        obtain ⟨stage, found, -⟩ := stands.sound.reaches _ _ _ _ called
        rw [Callers.stage_eq called, found, Option.any_some, Bool.not_eq_true'] at busy
        refine falls_of_mainLeft during during rfl (coming_congr fun header => ?_)
          (waiting.mainLeft_step called found busy)
        exact comes_congr rfl (congrFun Callers.step_calls _) (stepOf_stage_other stands (by simp))
  · rename_i idle
    rw [Bool.not_eq_true] at idle
    obtain ⟨passed', standsAfter⟩ := stands.goOn idle stop sent
    have goes := stands.goes feeds idle during stop sent
    rcases waiting.toFilling.goes feeds idle goes standsAfter with ⟨gone', filling⟩ | ⟨leaves, -⟩
    · refine falls_goes feeds stands idle during goes filling.here.inCall ?_
      obtain ⟨sends, offers, -, most⟩ := filling.sent feeds
      rw [offers, List.length_append]
      omega
    · have left := leaves.not_inCall feeds
      exact ⟨(rank_left_lt during left).le, fun _ => rank_left_lt during left⟩

/-- A header whose callback is under way is one of the headers. -/
theorem mem_of_busy (stands : state.Stands headersNum passed contents)
    (called : state.callers.calls (.callback header) = some (queue, thread, call))
    (busy : state.callers.busy (.callback header) = true) : header ∈ allHeaders headersNum := by
  have stored := stands.stored _ _ _ _ called busy
  have member : header ∈ Ledger.total (state.ledger contents) := Ledger.mem_total.mpr ⟨_, stored⟩
  rw [stands.whole] at member
  exact member

theorem mainLeft_congr (main : after.main = state.main)
    (stage : after.callers.stage .mainLoop = state.callers.stage .mainLoop)
    (blocked : after.blocked port.source = state.blocked port.source) :
    after.mainLeft port = state.mainLeft port := by
  rw [Circuit.mainLeft, Circuit.mainLeft, main, stage, blocked]

theorem rank_le (during : state.main.InCall port) (main : after.main = state.main)
    (offers : after.offered = state.offered)
    (stage : after.callers.stage .mainLoop = state.callers.stage .mainLoop)
    (blocked : after.blocked port.source = state.blocked port.source)
    (comes : ∀ header, after.comes port.source header ≤ state.comes port.source header) :
    after.rank headersNum port limit ≤ state.rank headersNum port limit := by
  have coming := List.sum_le_sum (l := allHeaders headersNum) fun header _ => comes header
  rw [rank_of_inCall during, rank_of_inCall (main ▸ during), mainLeft_congr main stage blocked, offers]
  omega

/-- A callback that gets on lowers the rank, wherever the main loop has to begin again. -/
theorem Waiting.falls_ready (waiting : Waiting headersNum port offered gone passed contents state)
    (called : state.callers.calls (.callback header) = some (port.source, thread, call))
    (found : (state.callers.queues port.source).threads[thread]? = some stage)
    (ready : stage.Ready (state.callers.queues port.source)) :
    (state.stepOf (.callback header)).rank headersNum port limit < state.rank headersNum port limit := by
  have stands := waiting.stands
  have during := waiting.here.inCall
  have busy : state.callers.busy (.callback header) = true := by
    rw [Callers.busy, Callers.stage_eq called, found, Option.any_some]
    cases stage with
    | returned result | returnedLength length => exact ready.elim
    | _ => rfl
  have coming := List.sum_lt_sum _ _ (fun header _ => comes_step stands called found port.source header)
    ⟨header, mem_of_busy stands called busy, comes_step_lt called found ready⟩
  have most := mainLeft_le (state.stepOf (.callback header)) port
  have offers : (state.stepOf (.callback header)).offered = state.offered := rfl
  rw [rank_of_inCall during,
    rank_of_inCall (show (state.stepOf (.callback header)).main.InCall port from during), offers]
  omega

theorem Waiting.falls_callback (waiting : Waiting headersNum port offered gone passed contents state)
    (header : Header) :
    (state.stepOf (.callback header)).rank headersNum port limit < state.rank headersNum port limit ∨
      (state.stepOf (.callback header)).rank headersNum port limit ≤ state.rank headersNum port limit ∧
        (state.stepOf (.callback header)).blocked port.source = state.blocked port.source := by
  have stands := waiting.stands
  have during := waiting.here.inCall
  rcases stands.stepOf_cases (.callback header) with same | ⟨queue, thread, call, stage, called, found⟩
  · rw [same]
    exact .inr ⟨le_rfl, rfl⟩
  by_cases ready : stage.Ready (state.callers.queues queue)
  · by_cases own : queue = port.source
    · subst own
      exact .inl (waiting.falls_ready called found ready)
    · right
      have stageMain : (state.stepOf (.callback header)).callers.stage .mainLoop =
          state.callers.stage .mainLoop := stepOf_stage_other stands (by simp)
      have blocked : (state.stepOf (.callback header)).blocked port.source = state.blocked port.source := by
        rw [Circuit.blocked, stageMain, Circuit.stepOf, Callers.step_queues called,
          Function.update_of_ne (Ne.symm own), Circuit.blocked]
      exact ⟨rank_le during rfl rfl stageMain blocked fun other => comes_step stands called found _ other,
        blocked⟩
  · -- It waits for the lock, or has returned.
    have same : state.stepOf (.callback header) = state := by
      rw [Circuit.stepOf, Callers.step, called]
      simp only [step_of_not_ready found (stands.puts called found) ready, Function.update_eq_self]
    rw [same]
    exact .inr ⟨le_rfl, rfl⟩

theorem Waiting.falls_returned (feeds : port.source = .pool pool)
    (waiting : Waiting headersNum port offered gone passed contents state) (from_ : Port) (other : Header) :
    (state.next (.returns from_ other)).rank headersNum port limit ≤ state.rank headersNum port limit ∧
      (state.next (.returns from_ other)).blocked port.source = state.blocked port.source := by
  have stands := waiting.stands
  have stageMain : (state.next (.returns from_ other)).callers.stage .mainLoop =
      state.callers.stage .mainLoop := by
    by_cases held : other ∈ state.held from_
    · rw [callers_returned held, stands.sound.enter_stage_other (by simp)]
    · rw [Circuit.next, if_neg held]
  have blocked : (state.next (.returns from_ other)).blocked port.source = state.blocked port.source := by
    rw [Circuit.blocked, stageMain, Circuit.blocked]
    by_cases held : other ∈ state.held from_
    · rw [callers_returned held, Callers.enter_queues]
      by_cases own : port.source = from_.returnsTo other
      · rw [own, Function.update_self]
        rfl
      · rw [Function.update_of_ne own]
    · rw [Circuit.next, if_neg held]
  exact ⟨rank_le waiting.here.inCall (main_returned _ _) (offered_returned _ _) stageMain blocked
    fun header => comes_returned feeds stands from_ other header, blocked⟩

end Falls

end Rank

end RcControl.Camera
