import RcControl.Vcos.EventProgress

namespace RcControl.Vcos

open RcControl.Data

/-! Without new calls the threads come to rest, however they are scheduled.

Each step of a thread or of a timer makes the rank of the flags smaller: a loop over the list
has fewer nodes before it, and everything else goes forward. -/

variable {Id : Type*} {flags after : EventFlags Id} {group : Group Id 32} {nodes front back : List Id}
  {consumed : Unsigned} {waking : Option Id} {id : Id}

section Ranks

variable {size : Nat} {ahead other : Link Id → Nat}

/-- At most so many steps are left to the thread, if so many nodes are before each link. -/
def Stage.rank (size : Nat) (ahead : Link Id → Nat) : Stage Id → Nat
  | .idle => 0
  | .returned _ => 1
  | .setUnlock | .getUnlock _ _ | .timerClear _ _ => 2
  | .setConsume _ | .timerCancel _ _ => 3
  | .woken _ => 4
  | .sleep _ => 5
  | .sleepUnlock _ => 6
  | .setWalk _ _ current => 2 * ahead current + 4
  | .setWake _ _ current _ => 2 * ahead current + 5
  | .setEvents _ _ => 2 * size + 5
  | .setLock _ _ => 2 * size + 6
  -- The timer that is started has its own steps before it.
  | .timerStart _ => size + 20
  | .timerSet _ => size + 21
  | .getTest _ _ _ => size + 22
  | .getLock _ _ _ => size + 23

def TimerStage.rank (size : Nat) (ahead : Link Id → Nat) : TimerStage Id → Nat
  | .waiting => 0
  | .clear => 1
  | .post _ => 2
  | .unlock _ => 3
  | .walk _ _ plist => ahead plist + 4
  | .lock _ => size + 5
  | .expired => size + 6

def Timer.rank (size : Nat) (ahead : Link Id → Nat) (timer : Timer Id) : Nat :=
  if timer.expires then size + 7 else timer.stage.rank size ahead

def Thread.rank (size : Nat) (ahead : Link Id → Nat) (thread : Thread Id) : Nat :=
  thread.stage.rank size ahead + thread.timer.rank size ahead

/-- The nodes behind a link matter to those who are inside. -/
theorem Stage.rank_outside {stage : Stage Id} (outside : stage.inside = false) :
    stage.rank size ahead = stage.rank size other := by
  cases stage with
  | setWalk | setWake => cases outside
  | _ => rfl

theorem Timer.rank_outside {timer : Timer Id} (outside : timer.stage.inside = false) :
    timer.rank size ahead = timer.rank size other := by
  unfold Timer.rank
  cases found : timer.stage with
  | walk =>
      rw [found] at outside
      cases outside
  | _ => rfl

theorem Timer.rank_of_unarmed {timer : Timer Id} (unarmed : timer.expires = false) :
    timer.rank size ahead = timer.stage.rank size ahead := by
  rw [Timer.rank, unarmed]
  rfl

theorem Stage.rank_le (stage : Stage Id) (few : ∀ link, ahead link ≤ size) :
    stage.rank size ahead ≤ 2 * size + 23 := by
  cases stage with
  | setWalk _ _ current | setWake _ _ current _ =>
      have := few current
      simp only [Stage.rank]
      omega
  | _ =>
      simp only [Stage.rank]
      omega

theorem Timer.rank_le (timer : Timer Id) (few : ∀ link, ahead link ≤ size) :
    timer.rank size ahead ≤ size + 7 := by
  unfold Timer.rank
  split
  · exact Nat.le_refl _
  · cases found : timer.stage with
    | walk _ _ plist =>
        have := few plist
        simp only [TimerStage.rank]
        omega
    | _ =>
        simp only [TimerStage.rank]
        omega

end Ranks

section Lock

variable [DecidableEq Id]

/-- Nobody else is inside. -/
theorem Sound.alone (sound : Sound flags group nodes consumed waking) {worker second : Worker Id}
    (inside : flags.inside worker = true) (different : second ≠ worker) : flags.inside second = false := by
  have owned := sound.guarded.owned inside
  by_contra within
  have same := sound.guarded.owned (Bool.of_not_eq_false within)
  rw [owned] at same
  exact different (Option.some.inj same).symm

end Lock

section Remaining

variable [Fintype Id]

/-- The nodes behind a link. -/
def EventFlags.remaining (flags : EventFlags Id) (link : Link Id) : Nat :=
  (walk flags.waiters.next (Fintype.card Id) (flags.waiters.load link)).length

theorem remaining_le (flags : EventFlags Id) (link : Link Id) : flags.remaining link ≤ Fintype.card Id :=
  length_walk_le ..

theorem remaining_of_holds (flags : EventFlags Id) (holds : flags.waiters.Holds (front ++ back))
    (nodup : (front ++ back).Nodup) : flags.remaining (LinkedList.lastOf front) = back.length := by
  obtain ⟨middle, before, behind⟩ := segment_append.mp holds.linked
  have fits : back.length ≤ Fintype.card Id := (List.nodup_append.mp nodup).2.1.length_le_card
  obtain ⟨extra, total⟩ := Nat.exists_eq_add_of_le fits
  rw [EventFlags.remaining, TailedList.load_lastOf before, total, walk_segment behind]

def EventFlags.rank (flags : EventFlags Id) : Nat :=
  ∑ id, (flags.thread id).rank (Fintype.card Id) flags.remaining

theorem rank_le (flags : EventFlags Id) :
    flags.rank ≤ Fintype.card Id * (3 * Fintype.card Id + 30) := by
  have each : ∀ id ∈ Finset.univ, (flags.thread id).rank (Fintype.card Id) flags.remaining ≤
      3 * Fintype.card Id + 30 := by
    intro id _
    have ofStage := (flags.thread id).stage.rank_le (remaining_le flags)
    have ofTimer := (flags.thread id).timer.rank_le (remaining_le flags)
    rw [Thread.rank]
    omega
  have total := Finset.sum_le_card_nsmul Finset.univ _ _ each
  rw [smul_eq_mul, Finset.card_univ] at total
  exact total

/-- One thread goes forward, and the others stay where they are. -/
theorem rank_lt_of_thread (id : Id)
    (others : ∀ other, other ≠ id → (after.thread other).rank (Fintype.card Id) after.remaining =
      (flags.thread other).rank (Fintype.card Id) flags.remaining)
    (own : (after.thread id).rank (Fintype.card Id) after.remaining <
      (flags.thread id).rank (Fintype.card Id) flags.remaining) : after.rank < flags.rank := by
  refine Finset.sum_lt_sum (fun other _ => ?_) ⟨id, Finset.mem_univ id, own⟩
  by_cases here : other = id
  · rw [here]
    exact Nat.le_of_lt own
  · exact Nat.le_of_eq (others other here)

theorem remaining_congr (same : after.waiters = flags.waiters) : after.remaining = flags.remaining := by
  funext link
  rw [EventFlags.remaining, same, EventFlags.remaining]

variable [DecidableEq Id] {thread : Thread Id}

/-- A step that leaves the list as it is. -/
theorem rank_lt_of_set (threads : after.thread = (flags.setThread id thread).thread)
    (waiters : after.waiters = flags.waiters)
    (less : thread.rank (Fintype.card Id) flags.remaining <
      (flags.thread id).rank (Fintype.card Id) flags.remaining) : after.rank < flags.rank := by
  refine rank_lt_of_thread id (fun other elsewhere => ?_) ?_
  · rw [threads, setThread_ne elsewhere, remaining_congr waiters]
  · rw [threads, setThread_self, remaining_congr waiters]
    exact less

/-- A step of the owner of the lock, which may change the list. -/
theorem Sound.rank_lt_of_owner (sound : Sound flags group nodes consumed waking) {worker : Worker Id}
    (inside : flags.inside worker = true) (own : worker = .thread id ∨ worker = .timer id)
    (threads : after.thread = (flags.setThread id thread).thread)
    (less : thread.rank (Fintype.card Id) after.remaining <
      (flags.thread id).rank (Fintype.card Id) flags.remaining) : after.rank < flags.rank := by
  refine rank_lt_of_thread id (fun other elsewhere => ?_) ?_
  · have outside : flags.inside (.thread other) = false ∧ flags.inside (.timer other) = false := by
      rcases own with rfl | rfl
      · exact ⟨sound.alone inside (by simpa using elsewhere), sound.alone inside (by simp)⟩
      · exact ⟨sound.alone inside (by simp), sound.alone inside (by simpa using elsewhere)⟩
    rw [threads, setThread_ne elsewhere, Thread.rank, Thread.rank, Stage.rank_outside outside.1,
      Timer.rank_outside outside.2]
  · rw [threads, setThread_self]
    exact less

theorem Sound.rank_lt_of_inside (sound : Sound flags group nodes consumed waking)
    (inside : (flags.thread id).stage.inside = true)
    (threads : after.thread = (flags.setThread id thread).thread)
    (timer : thread.timer = (flags.thread id).timer)
    (less : thread.stage.rank (Fintype.card Id) after.remaining <
      (flags.thread id).stage.rank (Fintype.card Id) flags.remaining) : after.rank < flags.rank := by
  have within : flags.inside (.thread id) = true := inside
  have outside : flags.inside (.timer id) = false := sound.alone within (by simp)
  have same : thread.timer.rank (Fintype.card Id) after.remaining =
      (flags.thread id).timer.rank (Fintype.card Id) flags.remaining := by
    rw [timer]
    exact Timer.rank_outside outside
  refine sound.rank_lt_of_owner within (.inl rfl) threads ?_
  rw [Thread.rank, Thread.rank, same]
  exact Nat.add_lt_add_right less _

theorem Sound.rank_lt_of_timerInside (sound : Sound flags group nodes consumed waking)
    (inside : (flags.thread id).timer.stage.inside = true)
    (threads : after.thread = (flags.setThread id thread).thread)
    (stage : thread.stage = (flags.thread id).stage)
    (less : thread.timer.rank (Fintype.card Id) after.remaining <
      (flags.thread id).timer.rank (Fintype.card Id) flags.remaining) : after.rank < flags.rank := by
  have within : flags.inside (.timer id) = true := inside
  have outside : flags.inside (.thread id) = false := sound.alone within (by simp)
  have same : thread.stage.rank (Fintype.card Id) after.remaining =
      (flags.thread id).stage.rank (Fintype.card Id) flags.remaining := by
    rw [stage]
    exact Stage.rank_outside outside
  refine sound.rank_lt_of_owner within (.inr rfl) threads ?_
  rw [Thread.rank, Thread.rank, same]
  exact Nat.add_lt_add_left less _

end Remaining

section Steps

variable [Fintype Id] [DecidableEq Id]

theorem rank_lt_of_goTo {stage : Stage Id} (threads : after.thread = (flags.goTo id stage).thread)
    (waiters : after.waiters = flags.waiters)
    (less : stage.rank (Fintype.card Id) flags.remaining <
      (flags.thread id).stage.rank (Fintype.card Id) flags.remaining) : after.rank < flags.rank :=
  rank_lt_of_set threads waiters (Nat.add_lt_add_right less _)

theorem rank_lt_of_lock {stage : Stage Id} (step : (flags.goTo id stage).lock (.thread id) = some after)
    (less : stage.rank (Fintype.card Id) flags.remaining <
      (flags.thread id).stage.rank (Fintype.card Id) flags.remaining) : after.rank < flags.rank := by
  unfold EventFlags.lock at step
  split at step
  · obtain rfl := Option.some.inj step
    exact rank_lt_of_goTo rfl rfl less
  · cases step

theorem Sound.rank_lt_of_walk (sound : Sound flags group nodes consumed waking) {sofar : Unsigned}
    {prev : Option Id} {current : Link Id} (found : (flags.thread id).stage = .setWalk sofar prev current)
    (step : flags.threadStep id = some after) : after.rank < flags.rank := by
  have inside : (flags.thread id).stage.inside = true := by
    rw [found]
    rfl
  have scene := sound.ownScene inside
  rw [found] at scene
  obtain ⟨-, -, front, behind, -⟩ := scene
  obtain ⟨back, rfl, loaded⟩ := behind.next sound.holds
  obtain ⟨-, rfl, rfl⟩ := behind
  have before := remaining_of_holds flags sound.holds sound.nodup
  cases back with
  | nil =>
      simp only [EventFlags.threadStep, found, loaded, List.head?_nil, Option.some.injEq] at step
      subst step
      refine rank_lt_of_goTo rfl rfl ?_
      simp only [found, Stage.rank]
      omega
  | cons node back =>
      rw [List.length_cons] at before
      simp only [EventFlags.threadStep, found, loaded, List.head?_cons] at step
      split at step
      · have stepped := Option.some.inj step
        have holds : after.waiters.Holds (front ++ back) := by
          rw [← stepped]
          exact sound.holds.unlink sound.nodup
        have fewer := remaining_of_holds after holds
          (sound.nodup.sublist (List.Sublist.append_left (List.sublist_cons_self node back) front))
        refine sound.rank_lt_of_inside inside (congrArg EventFlags.thread stepped).symm rfl ?_
        simp only [Thread.goTo, found, Stage.rank]
        omega
      · obtain rfl := Option.some.inj step
        refine rank_lt_of_goTo rfl rfl ?_
        have split : front ++ node :: back = (front ++ [node]) ++ back := by simp
        have further := remaining_of_holds flags (split ▸ sound.holds) (split ▸ sound.nodup)
        rw [LinkedList.lastOf_concat] at further
        simp only [found, Stage.rank]
        omega

theorem Sound.rank_lt_of_test (sound : Sound flags group nodes consumed waking) {bitmask op suspend : Unsigned}
    (found : (flags.thread id).stage = .getTest bitmask op suspend)
    (step : flags.threadStep id = some after) : after.rank < flags.rank := by
  have inside : (flags.thread id).stage.inside = true := by
    rw [found]
    rfl
  simp only [EventFlags.threadStep, found, Option.some.injEq, EventFlags.getTest] at step
  split at step
  · subst step
    refine rank_lt_of_goTo rfl rfl ?_
    simp only [found, Stage.rank]
    omega
  · split at step
    · subst step
      refine sound.rank_lt_of_inside inside rfl rfl ?_
      rw [found]
      change (if suspend ≠ vcosSuspend then Stage.timerSet suspend else Stage.sleepUnlock suspend).rank _ _ < _
      split <;> simp only [Stage.rank] <;> omega
    · subst step
      refine rank_lt_of_goTo rfl rfl ?_
      simp only [found, Stage.rank]
      omega

/-- A set posts a thread, which stays where it is. -/
theorem rank_lt_of_wake {sofar : Unsigned} {prev : Option Id} {current : Link Id} {waiter : Id}
    (found : (flags.thread id).stage = .setWake sofar prev current waiter)
    (step : flags.threadStep id = some after) : after.rank < flags.rank := by
  simp only [EventFlags.threadStep, found, Option.some.injEq] at step
  generalize record : ((flags.thread waiter).wake flags.events).post = woken at step
  have same : ∀ other, ((flags.setThread waiter woken).thread other).rank (Fintype.card Id) flags.remaining =
      (flags.thread other).rank (Fintype.card Id) flags.remaining := by
    intro other
    by_cases here : other = waiter
    · subst here
      rw [setThread_self, ← record]
      rfl
    · rw [setThread_ne here]
  have keeps : (flags.setThread waiter woken).rank = flags.rank :=
    Finset.sum_congr rfl fun other _ => same other
  rw [← keeps]
  subst step
  have stage : ((flags.setThread waiter woken).thread id).stage = .setWake sofar prev current waiter := by
    by_cases here : id = waiter
    · subst here
      rw [setThread_self, ← record]
      exact found
    · rw [setThread_ne here, found]
  refine rank_lt_of_goTo rfl rfl ?_
  simp only [stage, Stage.rank]
  exact Nat.lt_succ_self _

theorem Sound.rank_lt_of_threadStep (sound : Sound flags group nodes consumed waking)
    (step : flags.threadStep id = some after) : after.rank < flags.rank := by
  have few := remaining_le flags
  cases found : (flags.thread id).stage with
  | setWalk sofar prev current => exact sound.rank_lt_of_walk found step
  | setWake sofar prev current waiter => exact rank_lt_of_wake found step
  | getTest bitmask op suspend => exact sound.rank_lt_of_test found step
  | idle => simp only [EventFlags.threadStep, found, reduceCtorEq] at step
  | setLock bitmask op | getLock bitmask op suspend =>
      simp only [EventFlags.threadStep, found] at step
      refine rank_lt_of_lock step ?_
      simp only [found, Stage.rank]
      omega
  | setEvents bitmask op =>
      simp only [EventFlags.threadStep, found, Option.some.injEq] at step
      subst step
      refine rank_lt_of_goTo rfl rfl ?_
      have := few .first
      simp only [found]
      split <;> simp only [Stage.rank] <;> omega
  | setConsume | setUnlock | getUnlock | sleepUnlock | returned =>
      simp only [EventFlags.threadStep, found, Option.some.injEq] at step
      subst step
      refine rank_lt_of_goTo rfl rfl ?_
      simp only [found, Stage.rank]
      omega
  | timerSet suspend =>
      simp only [EventFlags.threadStep, found, Option.some.injEq] at step
      subst step
      refine rank_lt_of_set rfl rfl ?_
      simp only [Thread.rank, Timer.rank, found, Stage.rank]
      omega
  | timerClear status bits =>
      simp only [EventFlags.threadStep, found, Option.some.injEq] at step
      subst step
      refine rank_lt_of_set rfl rfl ?_
      simp only [Thread.rank, Timer.rank, found, Stage.rank]
      omega
  | timerStart suspend =>
      simp only [EventFlags.threadStep, found] at step
      split at step
      · obtain rfl := Option.some.inj step
        refine rank_lt_of_goTo rfl rfl ?_
        simp only [found, Stage.rank]
        omega
      · split at step
        · obtain rfl := Option.some.inj step
          refine rank_lt_of_set rfl rfl ?_
          simp only [Thread.rank, Timer.rank, found, Stage.rank, if_true]
          omega
        · cases step
  | sleep suspend =>
      simp only [EventFlags.threadStep, found] at step
      split at step
      · cases step
      · obtain rfl := Option.some.inj step
        refine rank_lt_of_set rfl rfl (Nat.add_lt_add_right ?_ _)
        simp only [found, Stage.rank]
        omega
  | woken suspend =>
      simp only [EventFlags.threadStep, found] at step
      split at step
      all_goals
        obtain rfl := Option.some.inj step
        refine rank_lt_of_goTo rfl rfl ?_
        simp only [found, Stage.rank]
        omega
  | timerCancel status bits =>
      simp only [EventFlags.threadStep, found] at step
      split at step
      · rename_i waiting
        obtain rfl := Option.some.inj step
        refine rank_lt_of_set rfl rfl ?_
        simp only [Thread.rank, found, Stage.rank, Timer.rank_of_unarmed, waiting, TimerStage.rank]
        omega
      · cases step

theorem rank_lt_of_timerGoTo {stage : TimerStage Id} (unarmed : (flags.thread id).timer.expires = false)
    (threads : after.thread = (flags.timerGoTo id stage).thread) (waiters : after.waiters = flags.waiters)
    (less : stage.rank (Fintype.card Id) flags.remaining <
      (flags.thread id).timer.stage.rank (Fintype.card Id) flags.remaining) : after.rank < flags.rank := by
  have later : ((flags.thread id).timerGoTo stage).timer.expires = false := unarmed
  refine rank_lt_of_set threads waiters (Nat.add_lt_add_left ?_ _)
  rw [Timer.rank_of_unarmed later, Timer.rank_of_unarmed unarmed]
  exact less

theorem Sound.rank_lt_of_timerWalk (sound : Sound flags group nodes consumed waking) {prev : Option Id}
    {plist : Link Id} (found : (flags.thread id).timer.stage = .walk id prev plist)
    (unarmed : (flags.thread id).timer.expires = false) (step : flags.timerStep id = some after) :
    after.rank < flags.rank := by
  have inside : (flags.thread id).timer.stage.inside = true := by
    rw [found]
    rfl
  have within : flags.inside (.timer id) = true := inside
  have scene := sound.scene
  simp only [EventFlags.Scene, sound.guarded.owned within, found] at scene
  obtain ⟨-, front, behind, -⟩ := scene
  obtain ⟨back, rfl, loaded⟩ := behind.next sound.holds
  obtain ⟨-, rfl, rfl⟩ := behind
  have before := remaining_of_holds flags sound.holds sound.nodup
  cases back with
  | nil =>
      simp only [EventFlags.timerStep, found, loaded, List.head?_nil, Option.some.injEq] at step
      subst step
      refine rank_lt_of_timerGoTo unarmed rfl rfl ?_
      simp only [found, TimerStage.rank]
      omega
  | cons node back =>
      rw [List.length_cons] at before
      simp only [EventFlags.timerStep, found, loaded, List.head?_cons] at step
      split at step
      · have stepped := Option.some.inj step
        have later : ((flags.thread id).timerGoTo (.unlock (some node))).timer.expires = false := unarmed
        refine sound.rank_lt_of_timerInside inside (congrArg EventFlags.thread stepped).symm rfl ?_
        rw [Timer.rank_of_unarmed later, Timer.rank_of_unarmed unarmed, found]
        simp only [Thread.timerGoTo, TimerStage.rank]
        omega
      · obtain rfl := Option.some.inj step
        have split : front ++ node :: back = (front ++ [node]) ++ back := by simp
        have further := remaining_of_holds flags (split ▸ sound.holds) (split ▸ sound.nodup)
        rw [LinkedList.lastOf_concat] at further
        refine rank_lt_of_timerGoTo unarmed rfl rfl ?_
        simp only [found, TimerStage.rank]
        omega

theorem Sound.rank_lt_of_timerStep (sound : Sound flags group nodes consumed waking)
    (step : flags.timerStep id = some after) : after.rank < flags.rank := by
  have few := remaining_le flags
  by_cases waiting : (flags.thread id).timer.stage = .waiting
  · simp only [EventFlags.timerStep, waiting] at step
    split at step
    · rename_i armed
      obtain rfl := Option.some.inj step
      refine rank_lt_of_set rfl rfl (Nat.add_lt_add_left ?_ _)
      simp only [Timer.rank, armed, TimerStage.rank, Bool.false_eq_true, if_false, if_true]
      omega
    · cases step
  obtain ⟨ticking, -⟩ := (sound.timers id).busy (.inr waiting)
  obtain ⟨place, unarmed, -⟩ := ticking.under_way waiting
  cases found : (flags.thread id).timer.stage with
  | waiting => exact absurd found waiting
  | expired =>
      simp only [EventFlags.timerStep, found] at step
      split at step
      · cases step
      · obtain rfl := Option.some.inj step
        refine rank_lt_of_timerGoTo unarmed rfl rfl ?_
        simp only [found, TimerStage.rank]
        omega
  | lock waitreq =>
      simp only [EventFlags.timerStep, found, EventFlags.lock] at step
      split at step
      · obtain rfl := Option.some.inj step
        have := few .first
        refine rank_lt_of_timerGoTo unarmed rfl rfl ?_
        simp only [found, TimerStage.rank]
        omega
      · cases step
  | walk waitreq prev plist =>
      rw [found] at place
      rcases place with same | ⟨passed, -⟩
      · obtain rfl : waitreq = id := same
        exact sound.rank_lt_of_timerWalk found unarmed step
      · cases passed
  | unlock thread =>
      simp only [EventFlags.timerStep, found, Option.some.injEq] at step
      subst step
      refine rank_lt_of_timerGoTo unarmed rfl rfl ?_
      cases thread <;> simp only [found, TimerStage.rank, Option.elim] <;> omega
  | post thread =>
      rw [found] at place
      rcases place with seeks | ⟨passed, -⟩
      · cases seeks
      · obtain rfl : thread = id := passed
        simp only [EventFlags.timerStep, found, timerGoTo_setThread, Option.some.injEq] at step
        subst step
        refine rank_lt_of_set rfl rfl (Nat.add_lt_add_left ?_ _)
        simp only [Thread.post, Thread.timerGoTo, Timer.rank, unarmed, found, TimerStage.rank,
          Bool.false_eq_true, if_false]
        omega
  | clear =>
      simp only [EventFlags.timerStep, found, Option.some.injEq] at step
      subst step
      refine rank_lt_of_set rfl rfl (Nat.add_lt_add_left ?_ _)
      simp only [Timer.rank, unarmed, found, TimerStage.rank, Bool.false_eq_true, if_false]
      omega

theorem Sound.rank_lt (sound : Sound flags group nodes consumed waking) {worker : Worker Id}
    (step : flags.step worker = some after) : after.rank < flags.rank := by
  cases worker with
  | thread id => exact sound.rank_lt_of_threadStep step
  | timer id => exact sound.rank_lt_of_timerStep step

end Steps

section Schedules

variable [DecidableEq Id] {events : List (Event Id)} {workers : List (Worker Id)}

/-- The workers can take their steps in this order. -/
def EventFlags.Schedule (flags : EventFlags Id) : List (Worker Id) → Prop
  | [] => True
  | worker :: workers => ∃ after, flags.step worker = some after ∧ after.Schedule workers

theorem Sound.stepped (sound : Sound flags group nodes consumed waking) {worker : Worker Id}
    (step : flags.step worker = some after) :
    ∃ group nodes consumed waking, Sound after group nodes consumed waking := by
  have next : flags.next (.step worker) = after := by rw [EventFlags.next, step, Option.getD_some]
  obtain ⟨actions, ⟨nodes, consumed, waking, soundAfter⟩, -⟩ :=
    sound.event (show ValidCall flags (.step worker) from trivial)
  rw [next] at soundAfter
  exact ⟨_, nodes, consumed, waking, soundAfter⟩

variable [Fintype Id]

theorem Sound.schedule_le (sound : Sound flags group nodes consumed waking)
    (schedule : flags.Schedule workers) : workers.length ≤ flags.rank := by
  induction workers generalizing flags group nodes consumed waking with
  | nil => exact Nat.zero_le _
  | cons worker workers ih =>
      obtain ⟨after, step, rest⟩ := schedule
      obtain ⟨_, _, _, _, soundAfter⟩ := sound.stepped step
      exact Nat.succ_le_of_lt (Nat.lt_of_le_of_lt (ih soundAfter rest) (sound.rank_lt step))

/-- The workers that have a step take it, until none has one. -/
theorem Sound.comes_to_rest (sound : Sound flags group nodes consumed waking) :
    ∃ workers : List (Worker Id), flags.Schedule workers ∧
      ∀ id, ((eventFlags Id).run flags (workers.map .step)).Blocked id := by
  induction bound : flags.rank using Nat.strong_induction_on generalizing flags group nodes consumed waking with
  | _ bound ih =>
      subst bound
      by_cases stuck : ∀ worker, flags.step worker = none
      · exact ⟨[], trivial, fun id => ((sound.blocked stuck).2 id).1⟩
      · obtain ⟨worker, goesOn⟩ := not_forall.mp stuck
        obtain ⟨after, step⟩ := Option.ne_none_iff_exists'.mp goesOn
        obtain ⟨_, _, _, _, soundAfter⟩ := sound.stepped step
        obtain ⟨workers, schedule, rests⟩ := ih after.rank (sound.rank_lt step) soundAfter rfl
        refine ⟨worker :: workers, ⟨after, step, schedule⟩, fun id => ?_⟩
        have next : (eventFlags Id).next flags (.step worker) = after := by
          change (flags.step worker).getD flags = after
          rw [step, Option.getD_some]
        rw [List.map_cons, Machine.run_cons, next]
        exact rests id

/-- However the threads and timers are scheduled, they have no step left after so many, and then no
call is under way that does not wait for events that are not there. -/
theorem calls_complete (valid : (eventFlags Id).Along ValidCall (EventFlags.create Id) events) :
    (∀ workers, ((eventFlags Id).run (EventFlags.create Id) events).Schedule workers →
      workers.length ≤ Fintype.card Id * (3 * Fintype.card Id + 30)) ∧
    ∃ workers : List (Worker Id), ((eventFlags Id).run (EventFlags.create Id) events).Schedule workers ∧
      ∀ id, ((eventFlags Id).run (EventFlags.create Id) (events ++ workers.map .step)).Blocked id := by
  obtain ⟨actions, ⟨nodes, consumed, waking, sound⟩, -⟩ := create_sound.run valid
  refine ⟨fun workers schedule => (sound.schedule_le schedule).trans (rank_le _), ?_⟩
  obtain ⟨workers, schedule, rests⟩ := sound.comes_to_rest
  refine ⟨workers, schedule, fun id => ?_⟩
  rw [Machine.run_append]
  exact rests id

/-- A set has the lock and is about to go through the waiters. -/
def insideSet : List (Event Bool) :=
  oneWaits ++ [.call true (.set 1 vcosOr), .step (.thread true), .step (.thread true)]

theorem calls_complete_insideSet :
    ((eventFlags Bool).run (EventFlags.create Bool) insideSet).step (.thread true) ≠ none ∧
    (∀ workers, ((eventFlags Bool).run (EventFlags.create Bool) insideSet).Schedule workers →
      workers.length ≤ Fintype.card Bool * (3 * Fintype.card Bool + 30)) ∧
    ∃ workers : List (Worker Bool), ((eventFlags Bool).run (EventFlags.create Bool) insideSet).Schedule workers ∧
      ∀ id, ((eventFlags Bool).run (EventFlags.create Bool) (insideSet ++ workers.map .step)).Blocked id := by
  refine ⟨?_, calls_complete (by decide +kernel)⟩
  exact fun stuck => by cases stuck

end Schedules

end RcControl.Vcos
