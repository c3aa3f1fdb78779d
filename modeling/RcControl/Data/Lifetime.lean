import RcControl.Data.Machine

namespace RcControl.Data

/-! Lifetimes of resources.

A trace says when a thread creates, uses, shares and destroys resources.  Once a
resource is shared, other threads use it when they like. -/

inductive Op (Resource Note : Type*) where
  | create (resource : Resource)
  | use (resource : Resource)
  | share (resource : Resource)
  | destroy (resource : Resource)
  /-- Anything that touches no resource. -/
  | note (note : Note)
deriving DecidableEq, Repr

inductive Life where
  | unborn
  | alive
  | dead
deriving DecidableEq, Repr

namespace Lifetime

variable {Resource Note : Type*} [DecidableEq Resource]

def Allowed (lives : Resource → Life) : Op Resource Note → Prop
  | .create resource => lives resource = .unborn
  | .use resource | .share resource | .destroy resource => lives resource = .alive
  | .note _ => True

instance (lives : Resource → Life) : DecidablePred fun op : Op Resource Note => Allowed lives op
  | .create _ | .use _ | .share _ | .destroy _ => inferInstanceAs (Decidable (_ = _))
  | .note _ => .isTrue trivial

def apply (lives : Resource → Life) : Op Resource Note → Resource → Life
  | .create resource => Function.update lives resource .alive
  | .destroy resource => Function.update lives resource .dead
  | .use _ | .share _ | .note _ => lives

def after : (Resource → Life) → List (Op Resource Note) → Resource → Life
  | lives, [] => lives
  | lives, op :: ops => after (apply lives op) ops

def Legal : (Resource → Life) → List (Op Resource Note) → Prop
  | _, [] => True
  | lives, op :: ops => Allowed lives op ∧ Legal (apply lives op) ops

/-- A legal trace that leaves nothing alive. -/
structure Clean (lives : Resource → Life) (ops : List (Op Resource Note)) : Prop where
  legal : Legal lives ops
  ended : ∀ resource, after lives ops resource ≠ .alive

/-- Each resource is destroyed once if it was created, else never, and used only in
between. -/
structure Disciplined [DecidableEq Note] (ops : List (Op Resource Note)) : Prop where
  destroyed : ∀ resource, ops.count (.destroy resource) = if .create resource ∈ ops then 1 else 0
  ended : ∀ front resource back, ops = front ++ .destroy resource :: back → .create resource ∈ front
  used : ∀ front resource back, ops = front ++ .use resource :: back →
    .create resource ∈ front ∧ .destroy resource ∉ front

variable {lives : Resource → Life} {op : Op Resource Note} {front back ops : List (Op Resource Note)}

section Traces

theorem after_append (lives : Resource → Life) (front back : List (Op Resource Note)) :
    after lives (front ++ back) = after (after lives front) back := by
  induction front generalizing lives with
  | nil => rfl
  | cons op front ih => exact ih (apply lives op)

theorem legal_append :
    Legal lives (front ++ back) ↔ Legal lives front ∧ Legal (after lives front) back := by
  induction front generalizing lives with
  | nil => simp [Legal, after]
  | cons op front ih => simp only [List.cons_append, Legal, after, ih, and_assoc]

theorem clean_append :
    Clean lives (front ++ back) ↔ Legal lives front ∧ Clean (after lives front) back := by
  apply Iff.intro
  · intro clean
    obtain ⟨legal, ended⟩ := clean
    rw [legal_append] at legal
    rw [after_append] at ended
    exact ⟨legal.1, legal.2, ended⟩
  · intro both
    obtain ⟨first, legal, ended⟩ := both
    constructor
    · exact legal_append.mpr ⟨first, legal⟩
    · rwa [after_append]

theorem clean_cons : Clean lives (op :: ops) ↔ Allowed lives op ∧ Clean (apply lives op) ops := by
  rw [← List.singleton_append, clean_append]
  simp only [Legal, after, and_true]

/-- An operation that is allowed and changes no life. -/
def Idle (lives : Resource → Life) (op : Op Resource Note) : Prop :=
  Allowed lives op ∧ apply lives op = lives

theorem legal_idle (idle : ∀ op ∈ front, Idle lives op) : Legal lives front ∧ after lives front = lives := by
  induction front with
  | nil => exact ⟨trivial, rfl⟩
  | cons op front ih =>
      obtain ⟨⟨allowed, same⟩, rest⟩ := List.forall_mem_cons.mp idle
      simp only [Legal, after, same]
      exact ⟨⟨allowed, (ih rest).1⟩, (ih rest).2⟩

theorem clean_idle (idle : ∀ op ∈ front, Idle lives op) (clean : Clean lives back) :
    Clean lives (front ++ back) := by
  obtain ⟨legal, same⟩ := legal_idle idle
  exact clean_append.mpr ⟨legal, same.symm ▸ clean⟩

end Traces

section Ownership

/-- What is owned is alive, and the rest is to come. -/
def living (has : Resource → Bool) (resource : Resource) : Life :=
  if has resource then .alive else .unborn

def adding (has : Resource → Bool) (target resource : Resource) : Bool :=
  has resource || resource = target

/-- What is owned is alive; some of the rest may have come and gone. -/
def Holds (lives : Resource → Life) (owned : Resource → Prop) : Prop :=
  ∀ resource, lives resource = .alive ↔ owned resource

variable {owned : Resource → Prop} {has : Resource → Bool} {target : Resource}

theorem adding_comm (has : Resource → Bool) (first second : Resource) :
    adding (adding has first) second = adding (adding has second) first := by
  funext resource
  exact Bool.or_right_comm _ _ _

theorem living_adding (has : Resource → Bool) (target : Resource) :
    Function.update (living has) target .alive = living (adding has target) := by
  funext resource
  by_cases same : resource = target
  · simp [same, living, adding]
  · simp [same, living, adding]

omit [DecidableEq Resource] in
theorem holds_living (has : Resource → Bool) : Holds (living has) (has · = true) := by
  intro resource
  cases owns : has resource <;> simp [living, owns]

theorem Holds.dead (holds : Holds lives owned) (target : Resource) :
    Holds (Function.update lives target .dead) fun resource => owned resource ∧ resource ≠ target := by
  intro resource
  by_cases same : resource = target
  · simp [same]
  · simp [same, holds resource]

omit [DecidableEq Resource] in
theorem Holds.none (holds : Holds lives owned) (unowned : ¬ owned target) :
    Holds lives fun resource => owned resource ∧ resource ≠ target := by
  intro resource
  rw [holds resource]
  apply Iff.intro
  · exact fun owns => ⟨owns, fun same => unowned (same ▸ owns)⟩
  · exact And.left

/-- What was created and destroyed is gone. -/
theorem Holds.without (unborn : has target = false)
    (holds : Holds lives fun resource => adding has target resource = true ∧ resource ≠ target) :
    Holds lives (has · = true) := by
  intro resource
  refine (holds resource).trans ?_
  by_cases same : resource = target
  · simp [same, unborn]
  · simp [same, adding]

theorem idle_use (holds : Holds lives owned) (owns : owned target) :
    Idle lives (.use target : Op Resource Note) :=
  ⟨(holds target).mpr owns, rfl⟩

theorem clean_nothing (holds : Holds lives owned) (nothing : ∀ resource, ¬ owned resource) :
    Clean lives ([] : List (Op Resource Note)) where
  legal := trivial
  ended resource alive := nothing resource ((holds resource).mp alive)

theorem clean_create (unborn : has target = false) (next : Clean (living (adding has target)) ops) :
    Clean (living has) (.create target :: ops) := by
  have allowed : Allowed (living has) (.create target : Op Resource Note) := by
    simp [Allowed, living, unborn]
  rw [clean_cons, apply, living_adding]
  exact ⟨allowed, next⟩

theorem clean_use (owns : has target = true) (next : Clean (living has) ops) :
    Clean (living has) (.use target :: ops) :=
  clean_cons.mpr ⟨(holds_living has target).mpr owns, next⟩

theorem clean_destroy (holds : Holds lives (adding has target · = true)) (unborn : has target = false)
    (next : ∀ lives, Holds lives (has · = true) → Clean lives ops) :
    Clean lives (.destroy target :: ops) := by
  have owns : adding has target target = true := by simp [adding]
  have remaining := (holds.dead target).without unborn
  exact clean_cons.mpr ⟨(holds target).mpr owns, next _ remaining⟩

end Ownership

section Discipline

variable [DecidableEq Note]

/-- What the life of a resource says about the trace so far. -/
def Reflects (ops : List (Op Resource Note)) (resource : Resource) : Life → Prop
  | .unborn => .create resource ∉ ops ∧ .destroy resource ∉ ops
  | .alive => .create resource ∈ ops ∧ .destroy resource ∉ ops
  | .dead => .create resource ∈ ops ∧ ops.count (.destroy resource) = 1

theorem Reflects.other {resource : Resource} {life : Life} (reflects : Reflects ops resource life)
    (notCreate : op ≠ .create resource) (notDestroy : op ≠ .destroy resource) :
    Reflects (ops ++ [op]) resource life := by
  cases life with
  | unborn | alive => simpa [Reflects, notCreate.symm, notDestroy.symm] using reflects
  | dead => simpa [Reflects, notCreate.symm, List.count_singleton, notDestroy] using reflects

theorem reflects_of_legal (legal : Legal (fun _ => .unborn) ops) (resource : Resource) :
    Reflects ops resource (after (fun _ => .unborn) ops resource) := by
  induction ops using List.reverseRecOn with
  | nil => simp [Reflects, after]
  | append_singleton ops op ih =>
      obtain ⟨earlier, allowed, -⟩ := legal_append.mp legal
      have before := ih earlier
      rw [after_append]
      cases op with
      | create other =>
          by_cases same : other = resource
          · subst same
            simp only [Allowed] at allowed
            rw [allowed] at before
            simpa [after, apply, Reflects] using before.2
          · have kept : Reflects (ops ++ [.create other]) resource _ :=
              before.other (by simpa using same) (by simp)
            simpa [after, apply, Ne.symm same] using kept
      | destroy other =>
          by_cases same : other = resource
          · subst same
            simp only [Allowed] at allowed
            rw [allowed] at before
            simpa [after, apply, Reflects, List.count_eq_zero] using before
          · have kept : Reflects (ops ++ [.destroy other]) resource _ :=
              before.other (by simp) (by simpa using same)
            simpa [after, apply, Ne.symm same] using kept
      | use other | share other | note other => exact before.other (by simp) (by simp)

theorem destroyed_le_of_legal (legal : Legal (fun _ => .unborn) ops) (resource : Resource) :
    ops.count (.destroy resource) ≤ if .create resource ∈ ops then 1 else 0 := by
  have reflects := reflects_of_legal legal resource
  cases life : after (fun _ => .unborn) ops resource with
  | unborn | alive =>
      rw [life] at reflects
      rw [List.count_eq_zero.mpr reflects.2]
      exact Nat.zero_le _
  | dead =>
      rw [life] at reflects
      rw [if_pos reflects.1, reflects.2]

theorem Clean.disciplined (clean : Clean (fun _ => .unborn) ops) : Disciplined ops := by
  obtain ⟨legal, ended⟩ := clean
  have alive : ∀ front op back resource, ops = front ++ op :: back →
      (op = .use resource ∨ op = .destroy resource) →
        .create resource ∈ front ∧ .destroy resource ∉ front := by
    intro front op back resource split which
    rw [split] at legal
    obtain ⟨earlier, allowed, -⟩ := legal_append.mp legal
    have reflects := reflects_of_legal earlier resource
    rcases which with use | destroy
    · subst use
      rw [allowed] at reflects
      exact reflects
    · subst destroy
      rw [allowed] at reflects
      exact reflects
  constructor
  · intro resource
    have reflects := reflects_of_legal legal resource
    cases life : after (fun _ => .unborn) ops resource with
    | unborn =>
        rw [life] at reflects
        rw [if_neg reflects.1, List.count_eq_zero]
        exact reflects.2
    | alive => exact absurd life (ended resource)
    | dead =>
        rw [life] at reflects
        rw [if_pos reflects.1]
        exact reflects.2
  · intro front resource back split
    exact (alive front _ back resource split (.inr rfl)).1
  · intro front resource back split
    exact alive front _ back resource split (.inl rfl)

end Discipline

end Lifetime

/-! A thread that runs its trace while other threads visit what it has shared. -/

structure Session (Resource Note : Type*) where
  performed : List (Op Resource Note)
  pending : List (Op Resource Note)

inductive Turn (Resource : Type*) where
  | own
  | visit (resource : Resource)
deriving DecidableEq, Repr

namespace Session

variable {Resource Note : Type*} [DecidableEq Resource] [DecidableEq Note]

def next (session : Session Resource Note) : Turn Resource → Session Resource Note
  | .own =>
      match session.pending with
      | [] => session
      | op :: pending => ⟨session.performed ++ [op], pending⟩
  | .visit resource =>
      if .share resource ∈ session.performed then
        { session with performed := session.performed ++ [.use resource] }
      else session

def machine (Resource Note : Type*) [DecidableEq Resource] [DecidableEq Note] :
    Machine (Session Resource Note) (Turn Resource) Unit where
  next := next
  emit _ _ := ()

def start (trace : List (Op Resource Note)) : Session Resource Note := ⟨[], trace⟩

/-- The whole trace, when the thread runs on to its end. -/
def whole (session : Session Resource Note) : List (Op Resource Note) :=
  session.performed ++ session.pending

/-- A visit comes before the resource is destroyed, or finds nothing shared. -/
def InTime (session : Session Resource Note) (turn : Turn Resource) : Prop :=
  ∀ resource, turn = .visit resource → .share resource ∈ session.performed →
    .destroy resource ∉ session.performed

variable {session : Session Resource Note} {turn : Turn Resource}

theorem next_own : (session.next .own).whole = session.whole := by
  simp only [next]
  split
  · rfl
  · rename_i op pending split
    simp only [whole, split, List.append_assoc, List.singleton_append]

theorem visit_whole {resource : Resource} (shared : .share resource ∈ session.performed) :
    (session.next (.visit resource)).whole =
      session.performed ++ .use resource :: session.pending := by
  simp only [next, if_pos shared, whole, List.append_assoc, List.singleton_append]

theorem visit_unshared {resource : Resource} (unshared : .share resource ∉ session.performed) :
    session.next (.visit resource) = session := by
  rw [next, if_neg unshared]

/-- A visit adds a use, and nothing else. -/
theorem count_next {op : Op Resource Note} (notUse : ∀ resource, op ≠ .use resource) :
    (session.next turn).whole.count op = session.whole.count op := by
  cases turn with
  | own => rw [next_own]
  | visit resource =>
      by_cases shared : .share resource ∈ session.performed
      · rw [visit_whole shared]
        simp [whole, (notUse resource).symm]
      · rw [visit_unshared shared]

theorem count_run {op : Op Resource Note} (notUse : ∀ resource, op ≠ .use resource)
    (turns : List (Turn Resource)) :
    ((machine Resource Note).run session turns).whole.count op = session.whole.count op := by
  induction turns generalizing session with
  | nil => rfl
  | cons turn turns ih => exact ih.trans (count_next notUse)

theorem performed_next : session.performed <+: (session.next turn).performed := by
  cases turn with
  | own =>
      simp only [next]
      split
      · exact List.prefix_rfl
      · exact List.prefix_append _ _
  | visit resource =>
      simp only [next]
      split
      · exact List.prefix_append _ _
      · exact List.prefix_rfl

theorem performed_run (turns : List (Turn Resource)) :
    session.performed <+: ((machine Resource Note).run session turns).whole := by
  induction turns generalizing session with
  | nil => exact List.prefix_append _ _
  | cons turn turns ih => exact performed_next.trans ih

open Lifetime in
theorem next_clean (clean : Clean (fun _ => .unborn) session.whole) (inTime : InTime session turn) :
    Clean (fun _ => .unborn) (session.next turn).whole := by
  cases turn with
  | own =>
      rw [next_own]
      exact clean
  | visit resource =>
      by_cases shared : .share resource ∈ session.performed
      · obtain ⟨legal, rest⟩ := clean_append.mp clean
        have present : after (fun _ => .unborn) session.performed resource = .alive := by
          have undestroyed := inTime resource rfl shared
          have reflects := reflects_of_legal legal resource
          obtain ⟨front, back, split⟩ := List.append_of_mem shared
          cases life : after (fun _ => .unborn) session.performed resource with
          | alive => rfl
          | dead =>
              rw [life] at reflects
              have gone := List.one_le_count_iff.mp reflects.2.ge
              exact absurd gone undestroyed
          | unborn =>
              rw [life] at reflects
              rw [split] at legal
              obtain ⟨earlier, allowed, -⟩ := legal_append.mp legal
              have born := reflects_of_legal earlier resource
              rw [allowed] at born
              exact absurd (split ▸ List.mem_append_left _ born.1) reflects.1
        rw [visit_whole shared, clean_append]
        exact ⟨legal, clean_cons.mpr ⟨present, rest⟩⟩
      · rw [visit_unshared shared]
        exact clean

theorem run_clean {turns : List (Turn Resource)}
    (clean : Lifetime.Clean (fun _ => .unborn) session.whole)
    (inTime : (machine Resource Note).Along InTime session turns) :
    Lifetime.Clean (fun _ => .unborn) ((machine Resource Note).run session turns).whole := by
  induction turns generalizing session with
  | nil => exact clean
  | cons turn turns ih => exact ih (next_clean clean inTime.1) inTime.2

/-- No discipline without visits in time. -/
theorem along_inTime {turns : List (Turn Resource)}
    (disciplined : Lifetime.Disciplined ((machine Resource Note).run session turns).whole) :
    (machine Resource Note).Along InTime session turns := by
  rw [Machine.along_iff_split]
  intro front turn back split resource visiting shared
  subst visiting split
  rw [Machine.run_append] at disciplined
  have visited := @performed_run _ Note _ _
    (((machine Resource Note).run session front).next (.visit resource)) back
  obtain ⟨rest, continued⟩ := visited
  have after_visit : (((machine Resource Note).run session front).next (.visit resource)).performed ++
      rest = ((machine Resource Note).run session front).performed ++ .use resource :: rest := by
    simp only [next, if_pos shared, List.append_assoc, List.singleton_append]
  have used := disciplined.used ((machine Resource Note).run session front).performed resource rest
  exact (used (continued.symm.trans after_visit)).2

/-- The visits leave the creations and destructions of the thread as they are. -/
theorem destroyed_of_run {trace : List (Op Resource Note)} {turns : List (Turn Resource)}
    (disciplined : Lifetime.Disciplined ((machine Resource Note).run (start trace) turns).whole)
    (resource : Resource) :
    trace.count (.destroy resource) = if .create resource ∈ trace then 1 else 0 := by
  have destroyed := disciplined.destroyed resource
  have creates := @count_run _ _ _ _ (start trace) (.create resource) (by simp) turns
  rw [count_run (by simp)] at destroyed
  have same : .create resource ∈ ((machine Resource Note).run (start trace) turns).whole ↔
      .create resource ∈ trace := by
    rw [← List.count_pos_iff, creates, List.count_pos_iff]
    rfl
  simp only [same] at destroyed
  exact destroyed

end Session

end RcControl.Data
