import RcControl.Camera.Handshake
import RcControl.Camera.Resources
import RcControl.Data.Turns

namespace RcControl.Camera

open RcControl.Data RcControl.Data.Lifetime

/-! When the result of the set-up is handed over.

A camcorder thread that comes to its end posts on the way, and `start_mmalcam`, which waits
for the post and then for the thread, comes back too.  One that calls for a resource it has
destroyed already stops before its only post. -/

def Starter.rank : Starter → Nat
  | .createSemaphore => 7
  | .createThread => 6
  | .wait => 5
  | .check => 4
  | .report => 3
  | .join => 2
  | .delete => 1
  | .returned => 0

namespace Handshake

/-- How many steps the two threads have yet to take, at most. -/
def rank (state : Handshake) : Nat :=
  state.pending.length + state.starter.rank

/-- The camcorder thread has been created. -/
def Created (state : Handshake) : Prop :=
  ¬ (state.starter = .createSemaphore ∨ state.starter = .createThread)

/-- Whether a party waits for nothing. -/
def Enabled (state : Handshake) : Party → Prop
  | .starter =>
      match state.starter with
      | .wait => state.count ≠ 0
      | .join => state.pending = []
      | .returned => False
      | .createSemaphore | .createThread | .check | .report | .delete => True
  | .camcorder => state.Created ∧ state.pending ≠ []

/-- All that the camcorder thread has yet to do comes back. -/
structure Comes (trace : Trace) (state : Handshake) : Prop where
  stands : ∃ done, state.Stands trace done
  legal : Legal state.lives state.pending

end Handshake

section Steps

variable {good : Bool} {trace before after done : Trace} {state : Handshake} {op : Op Resource Note}
  {rest : Trace}

theorem starterNext_pending : state.starterNext.pending = state.pending := by
  unfold Handshake.starterNext
  cases state.starter with
  | wait | join =>
      dsimp only
      split <;> rfl
  | createSemaphore | createThread | check | report | delete | returned => rfl

theorem starterNext_lives : state.starterNext.lives = state.lives := by
  unfold Handshake.starterNext
  cases state.starter with
  | wait | join =>
      dsimp only
      split <;> rfl
  | createSemaphore | createThread | check | report | delete | returned => rfl

@[simp] theorem perform_pending : (state.perform op rest).pending = rest := by
  obtain ⟨_, _, _, _, _, _, pending⟩ := state
  rw [perform_eq op pending rest]

@[simp] theorem perform_lives : (state.perform op rest).lives = apply state.lives op := by
  obtain ⟨_, _, _, _, _, _, pending⟩ := state
  rw [perform_eq op pending rest]

@[simp] theorem perform_starter : (state.perform op rest).starter = state.starter := by
  obtain ⟨_, _, _, _, _, _, pending⟩ := state
  rw [perform_eq op pending rest]

theorem perform_count : state.count ≤ (state.perform op rest).count := by
  obtain ⟨_, _, _, _, _, _, pending⟩ := state
  rw [perform_eq op pending rest]
  exact Nat.le_add_right _ _

/-- The camcorder thread waits to be created, has ended, or does the next operation. -/
theorem camcorderNext_cases (legal : Legal state.lives state.pending) :
    state.camcorderNext = state ∧ (¬ state.Created ∨ state.pending = []) ∨
      ∃ op rest, state.pending = op :: rest ∧ state.Created ∧ Allowed state.lives op ∧
        state.camcorderNext = state.perform op rest := by
  by_cases created : state.Created
  · cases next : state.pending with
    | nil =>
        refine .inl ⟨?_, .inr rfl⟩
        rw [Handshake.camcorderNext, if_neg created, next]
    | cons op rest =>
        rw [next] at legal
        refine .inr ⟨op, rest, rfl, created, legal.1, ?_⟩
        rw [Handshake.camcorderNext, if_neg created, next]
        exact if_pos legal.1
  · refine .inl ⟨?_, .inl created⟩
    rw [Handshake.camcorderNext, if_pos (not_not.mp created)]

theorem starterNext_rank (enabled : state.Enabled .starter) : state.starterNext.rank < state.rank := by
  rw [Handshake.rank, starterNext_pending, Handshake.rank]
  apply Nat.add_lt_add_left
  unfold Handshake.Enabled at enabled
  unfold Handshake.starterNext
  cases stage : state.starter with
  | createSemaphore | createThread | report | delete => simp [Starter.rank]
  | wait =>
      rw [stage] at enabled
      dsimp only
      rw [if_neg enabled]
      simp [Starter.rank]
  | check =>
      dsimp only
      split <;> simp [Starter.rank]
  | join =>
      rw [stage] at enabled
      dsimp only at enabled ⊢
      rw [enabled]
      simp [Starter.rank]
  | returned =>
      rw [stage] at enabled
      cases enabled

theorem starterNext_blocked (blocked : ¬ state.Enabled .starter) : state.starterNext = state := by
  unfold Handshake.Enabled at blocked
  unfold Handshake.starterNext
  cases stage : state.starter with
  | createSemaphore | createThread | check | report | delete =>
      rw [stage] at blocked
      exact absurd trivial blocked
  | wait =>
      rw [stage] at blocked
      exact if_pos (not_not.mp blocked)
  | join =>
      rw [stage] at blocked
      exact if_neg (by simpa using blocked)
  | returned => rfl

theorem perform_rank (next : state.pending = op :: rest) : (state.perform op rest).rank < state.rank := by
  rw [Handshake.rank, Handshake.rank, perform_pending, perform_starter, next, List.length_cons]
  omega

/-- Once the camcorder thread is created, it stays so. -/
theorem created_starterNext (created : state.Created) : state.starterNext.Created := by
  unfold Handshake.Created at created ⊢
  unfold Handshake.starterNext
  cases stage : state.starter with
  | createSemaphore => exact absurd (.inl stage) created
  | createThread => exact absurd (.inr stage) created
  | wait =>
      dsimp only
      split
      · exact created
      · simp
  | check =>
      dsimp only
      split <;> simp
  | join =>
      dsimp only
      split
      · simp
      · exact created
  | report | delete => simp
  | returned => exact created

/-- What the camcorder thread does keeps `start_mmalcam` from nothing. -/
theorem enabled_perform (next : state.pending = op :: rest) (enabled : state.Enabled .starter) :
    (state.perform op rest).Enabled .starter := by
  unfold Handshake.Enabled at enabled ⊢
  rw [perform_starter]
  cases stage : state.starter with
  | createSemaphore | createThread | check | report | delete => exact trivial
  | wait =>
      rw [stage] at enabled
      have more : state.count ≤ (state.perform op rest).count := perform_count
      dsimp only at enabled ⊢
      omega
  | join =>
      rw [stage, next] at enabled
      cases enabled
  | returned =>
      rw [stage] at enabled
      cases enabled

theorem comes_next (posts : PostsResult good trace before after) (comes : state.Comes trace)
    (party : Party) : (state.next party).Comes trace := by
  refine ⟨stands_next posts party comes.stands, ?_⟩
  cases party with
  | starter =>
      rw [Handshake.next, starterNext_lives, starterNext_pending]
      exact comes.legal
  | camcorder =>
      obtain ⟨same, -⟩ | ⟨op, rest, next, -, -, step⟩ := camcorderNext_cases comes.legal
      · rw [Handshake.next, same]
        exact comes.legal
      · have legal := comes.legal
        rw [next] at legal
        rw [Handshake.next, step, perform_lives, perform_pending]
        exact legal.2

/-- Whoever is not done yet finds one of the two threads able to go on. -/
theorem comes_goesOn (posts : PostsResult good trace before after) (comes : state.Comes trace)
    (left : 0 < state.rank) : ∃ party, state.Enabled party := by
  obtain ⟨done, stands⟩ := comes.stands
  have handed := handed_of_stands posts stands
  by_cases created : state.Created
  · by_cases finished : state.pending = []
    · refine ⟨.starter, ?_⟩
      unfold Handshake.Enabled
      cases stage : state.starter with
      | createSemaphore | createThread | check | report | delete => exact trivial
      | wait => exact (handed.woken finished stage).ne'
      | join => exact finished
      | returned =>
          rw [Handshake.rank, finished, stage] at left
          cases left
    · exact ⟨.camcorder, created, finished⟩
  · refine ⟨.starter, ?_⟩
    unfold Handshake.Enabled
    rcases not_not.mp created with stage | stage
    · rw [stage]
      exact trivial
    · rw [stage]
      exact trivial

theorem handshake_descends (posts : PostsResult good trace before after) :
    handshake.Descends (Handshake.Comes trace) Handshake.rank (· = ·) Set.univ Handshake.Enabled where
  kept _ party comes := comes_next posts comes party
  falls state party comes := by
    cases party with
    | starter =>
        by_cases enabled : state.Enabled .starter
        · exact (starterNext_rank enabled).le
        · exact (congrArg Handshake.rank (starterNext_blocked enabled)).le
    | camcorder =>
        obtain ⟨same, -⟩ | ⟨op, rest, next, -, -, step⟩ := camcorderNext_cases comes.legal
        · exact (congrArg Handshake.rank same).le
        · exact ((congrArg Handshake.rank step).trans_lt (perform_rank next)).le
  lowers state party served comes enabled same := by
    subst same
    cases party with
    | starter => exact starterNext_rank enabled
    | camcorder =>
        obtain ⟨-, blocked⟩ | ⟨op, rest, next, -, -, step⟩ := camcorderNext_cases comes.legal
        · exact absurd enabled (by
            rintro ⟨created, left⟩
            exact blocked.elim (· created) left)
        · exact (congrArg Handshake.rank step).trans_lt (perform_rank next)
  stays state other party comes enabled different := by
    left
    cases party with
    | starter =>
        cases other with
        | starter => exact absurd rfl different
        | camcorder =>
            change state.camcorderNext.Enabled .starter
            obtain ⟨same, -⟩ | ⟨op, rest, next, -, -, step⟩ := camcorderNext_cases comes.legal
            · rw [same]
              exact enabled
            · rw [step]
              exact enabled_perform next enabled
    | camcorder =>
        cases other with
        | starter =>
            obtain ⟨created, left⟩ := enabled
            exact ⟨created_starterNext created, starterNext_pending.symm ▸ left⟩
        | camcorder => exact absurd rfl different
  goesOn _ comes left := by
    obtain ⟨party, enabled⟩ := comes_goesOn posts comes left
    exact ⟨party, Set.mem_univ party, enabled⟩

end Steps

section HandOver

variable {good : Bool} {trace before after done : Trace} {state : Handshake}

/-- Where `start_mmalcam` has come back, the post is made, taken and answered. -/
theorem answered_of_rank (posts : PostsResult good trace before after) (comes : state.Comes trace)
    (ended : state.rank = 0) : state.Answered (resultAfter .success trace) := by
  obtain ⟨done, stands⟩ := comes.stands
  have single := posts.count_done stands
  have returned : state.starter = .returned := by
    have none : state.starter.rank = 0 := (Nat.add_eq_zero_iff.mp ended).2
    cases stage : state.starter with
    | returned => rfl
    | createSemaphore | createThread | wait | check | report | join | delete =>
        rw [stage] at none
        cases none
  have stage := stands.stage
  rw [Handshake.Stage, returned] at stage
  obtain ⟨-, counted, read, finished⟩ := stage
  rw [finished, List.count_nil] at single
  refine ⟨?_, by omega, read⟩
  rw [finished]
  exact List.not_mem_nil

theorem start_comes (legal : Legal (fun _ => .unborn) trace) : (Handshake.start trace).Comes trace :=
  ⟨⟨[], stands_start trace⟩, legal⟩

theorem legal_of_notMem_posted (posts : PostsResult false trace before after)
    (stands : state.Stands trace done) (posted : .note .post ∉ state.pending) :
    Legal (fun _ => .unborn) trace := by
  have none : state.pending = [] := by
    have history := stands.history
    have split := posts.split
    rw [posts.last rfl] at split
    by_contra left
    have last : .note .post = state.pending.getLast left := by
      have same : (done ++ state.pending).getLast (by simp [left]) = .note .post := by
        simp only [← history, split, List.getLast_append_singleton]
      rw [← same, List.getLast_append_of_ne_nil _ left]
    exact posted (last ▸ List.getLast_mem left)
  have legal := stands.legal
  have history := stands.history
  rw [none, List.append_nil] at history
  rw [history]
  exact legal

end HandOver

section Outcomes

variable {outcomes : Outcomes} {behaviour : Behaviour} {rounds : List Round}

/-- Whoever has set everything up has been answered well. -/
theorem wellAnswered_of_setUp (good : setUp outcomes behaviour = true) :
    WellAnswered outcomes behaviour := by
  simp only [setUp, Bool.and_eq_true] at good
  obtain ⟨flags, camera, encoder, connected, -⟩ := good
  refine ⟨flags, ?_, fun _ _ => ?_, fun _ _ set => ?_⟩
  · intro dangling
    simp [cameraCreated, created, dangling] at camera
  · intro dangling
    simp [encoderCreated, created, dangling] at encoder
  · simp only [outParametersSet, Bool.and_eq_true, Bool.not_eq_true'] at set
    simp only [portsConnected, Bool.and_eq_true, set.1.2] at connected
    rw [if_neg Bool.false_ne_true, Bool.and_eq_true] at connected
    exact connected.2.2

/-- In a legal trace nothing is destroyed twice, or without having been created. -/
theorem wellAnswered_of_legal
    (legal : Legal (fun _ => .unborn) (mmalStartCamcorder outcomes behaviour rounds)) :
    WellAnswered outcomes behaviour := by
  have destroyed := destroyed_le_of_legal legal
  exact wellAnswered_of_destroyed destroyed

/-- Where the post comes, the calls have been answered well. -/
theorem wellAnswered_of_handsOver
    (hands : HandsOver outcomes behaviour (mmalStartCamcorder outcomes behaviour rounds)) :
    WellAnswered outcomes behaviour := by
  obtain ⟨before, after, posts⟩ := (mmalStartCamcorder_ends outcomes behaviour rounds).postsResult
  cases good : setUp outcomes behaviour with
  | true => exact wellAnswered_of_setUp good
  | false =>
      rw [good] at posts
      -- The threads take turns.
      let turns := List.replicate ((mmalStartCamcorder outcomes behaviour rounds).length + 7)
        [Party.starter, .camcorder]
      have everybody : ∀ turn ∈ turns, ∀ party, party ∈ turn := by
        intro turn member party
        rw [List.eq_of_mem_replicate member]
        cases party <;> decide
      have answered := hands.comes turns everybody List.length_replicate.ge
      obtain ⟨done, stands⟩ := run_stands posts turns.flatten
      exact wellAnswered_of_legal (legal_of_notMem_posted posts stands answered.posted)

end Outcomes

theorem result_handed_over (outcomes : Outcomes) (behaviour : Behaviour) (rounds : List Round) :
    HandsOver outcomes behaviour (mmalStartCamcorder outcomes behaviour rounds) ↔
      WellAnswered outcomes behaviour := by
  apply Iff.intro wellAnswered_of_handsOver
  intro answered
  obtain ⟨before, after, posts⟩ := (mmalStartCamcorder_ends outcomes behaviour rounds).postsResult
  have comes := start_comes (mmalStartCamcorder_clean rounds answered).legal
  constructor
  · exact posts.once
  · intro front back split
    obtain ⟨rfl, -⟩ := posts.unique split
    exact posts.final.symm
  · rw [posts.final]
    exact posts.success_iff
  · exact posts.enters_iff
  · exact posts.rereads
  · exact always_handed posts
  · intro turns everybody enough
    have descends := handshake_descends posts
    exact answered_of_rank posts (descends.invariant_run comes turns.flatten)
      (descends.ends comes (fun turn member party _ => ⟨party, everybody turn member party, rfl⟩) enough)

/-- The encoder's input cannot be enabled: the thread destroys the pool a second time before
it would post. -/
theorem not_result_handed_over :
    ¬ ∀ outcomes behaviour rounds,
      HandsOver outcomes behaviour (mmalStartCamcorder outcomes behaviour rounds) := by
  intro every
  let outcomes : Outcomes :=
    { status := fun site => if site = .inputPortEnable then .failure else .success
      create := fun _ => .created }
  let behaviour : Behaviour :=
    { zeroCopy := true, tunneling := false, changeHdr := false, vformatParses := true,
      cameraOutputs := true, encoderPorts := true }
  have answered := wellAnswered_of_handsOver (every outcomes behaviour [])
  exact absurd (answered.input (by decide) (by decide) (by decide)) (by decide)

end RcControl.Camera
