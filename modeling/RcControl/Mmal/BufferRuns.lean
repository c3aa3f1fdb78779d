import RcControl.Mmal.BufferLifetime

namespace RcControl.Mmal

open RcControl.Data RcControl.Data.References

/-! What clients can rely on between their calls. -/

variable {Header Pool Payload : Type*} [DecidableEq Header] [Fintype Header]
  {pools : Pools Header Pool} {callbacks : Callbacks Header}
  {buffers after : Buffers Header Pool Payload} {header : Header} {pool : Pool}

structure Circulating (pools : Pools Header Pool) (buffers : Buffers Header Pool Payload) : Prop where
  counted : Counted pools ∅ none buffers
  acyclic : ∃ rank, Ranked rank buffers

section Calls

omit [Fintype Header] in
theorem effective_empty (buffers : Buffers Header Pool Payload) : effective buffers ∅ = buffers.reference :=
  funext fun header => if_neg (Finset.notMem_empty header)

theorem Counted.nonneg (counted : Counted pools ∅ none buffers) (header : Header) :
    0 ≤ buffers.refcount header := by
  rw [counted.exactly header]
  exact Int.natCast_nonneg _

theorem Circulating.acquire (circulating : Circulating pools buffers) (held : 0 < buffers.held header)
    (room : buffers.HasRoom header) : Circulating pools ((buffers.acquire header).hold header) := by
  obtain ⟨counted, rank, ranked⟩ := circulating
  have away := counted.not_queued (.inr (.inl held))
  have acquired := acquire_refcount (counted.nonneg header) room
  refine ⟨⟨?_, counted.placed, counted.distinct, ?_, ?_, counted.once, counted.apart, counted.copies, ?_⟩,
    rank, ranked⟩
  · intro other
    have counts := counted.exactly other
    change (buffers.acquire header).refcount other =
      ((Function.update buffers.held header (buffers.held header + 1) other +
        referencers (effective buffers ∅) other +
        (buffers.queue (pools.owner other)).count other : Nat) : Int)
    rw [expected] at counts
    rw [acquired]
    by_cases same : other = header
    · subst same
      rw [Function.update_self, Function.update_self]
      omega
    · rw [Function.update_of_ne same, Function.update_of_ne same, counts]
  · intro place other queued
    have different : other ≠ header := fun same => away place (same ▸ queued)
    change (buffers.acquire header).refcount other = 1 ∧ _
    rw [acquired, Function.update_of_ne different]
    exact counted.idle place other queued
  · intro other
    change (buffers.acquire header).refcount other = 0 ↔ _
    rw [acquired]
    by_cases same : other = header
    · subst same
      have counts := counted.exactly other
      rw [expected] at counts
      rw [Function.update_self]
      refine iff_of_false (by omega) fun waits => ?_
      have zero := (counted.waiting other).mpr waits
      omega
    · rw [Function.update_of_ne same]
      exact counted.waiting other
  · intro other
    change (buffers.acquire header).refcount other < _
    rw [acquired]
    by_cases same : other = header
    · subst same
      rw [Function.update_self]
      exact room
    · rw [Function.update_of_ne same]
      exact counted.small other

/-- Giving up a reference makes the count one too many. -/
theorem Counted.giveUp (counted : Counted pools ∅ none buffers) (held : 0 < buffers.held header) :
    Counted pools ∅ (some header) (buffers.giveUp header) := by
  refine ⟨?_, counted.placed, counted.distinct, counted.idle, counted.waiting, counted.once,
    counted.apart, counted.copies, counted.small⟩
  intro other
  have counts := counted.exactly other
  change buffers.refcount other = ((Function.update buffers.held header (buffers.held header - 1) other +
    referencers (effective buffers ∅) other + (buffers.queue (pools.owner other)).count other +
    (if some header = some other then 1 else 0) : Nat) : Int)
  rw [expected] at counts
  by_cases same : other = header
  · subst same
    rw [Function.update_self, if_pos rfl]
    omega
  · rw [Function.update_of_ne same, if_neg (by simpa using Ne.symm same), counts, Nat.add_zero]

theorem Circulating.replicate (circulating : Circulating pools buffers) {dest src : Header}
    (destHeld : 0 < buffers.held dest) (alone : buffers.refcount dest = 1)
    (srcHeld : 0 < buffers.held src) (different : dest ≠ src) (room : buffers.HasRoom src) :
    Circulating pools (buffers.replicate dest src).1 := by
  obtain ⟨counted, rank, ranked⟩ := circulating
  unfold Buffers.replicate
  split
  · exact ⟨counted, rank, ranked⟩
  rename_i free
  rw [not_not] at free
  have unreferenced : ∀ replica, buffers.reference replica ≠ some dest := by
    intro replica refers
    have counts := counted.exactly dest
    rw [alone, expected, effective_empty] at counts
    have referenced := referencers_pos refers
    omega
  have original_ne : ∀ replica original, buffers.reference replica = some original → original ≠ dest := by
    rintro replica _ refers rfl
    exact unreferenced replica refers
  have acquired := acquire_refcount (counted.nonneg src) room
  refine ⟨⟨?_, counted.placed, counted.distinct, ?_, ?_, counted.once, counted.apart, ?_, ?_⟩,
    Function.update rank dest (rank src + 1), ?_⟩
  · intro other
    have counts := counted.exactly other
    have referred := referencers_update buffers.reference dest (some src) other
    rw [expected, effective_empty] at counts
    rw [free, if_neg (by simp)] at referred
    rw [expected, effective_empty]
    change (buffers.acquire src).refcount other =
      ((buffers.held other + referencers (Function.update buffers.reference dest (some src)) other +
        (buffers.queue (pools.owner other)).count other : Nat) : Int)
    rw [acquired]
    by_cases same : other = src
    · subst same
      rw [if_pos rfl] at referred
      rw [Function.update_self]
      omega
    · rw [if_neg (by simpa using Ne.symm same)] at referred
      rw [Function.update_of_ne same]
      omega
  · intro place other queued
    have notSrc : other ≠ src := fun same => counted.not_queued (.inr (.inl srcHeld)) place (same ▸ queued)
    have notDest : other ≠ dest := fun same => counted.not_queued (.inr (.inl destHeld)) place (same ▸ queued)
    change (buffers.acquire src).refcount other = 1 ∧
      Function.update buffers.reference dest (some src) other = none
    rw [acquired, Function.update_of_ne notSrc, Function.update_of_ne notDest]
    exact counted.idle place other queued
  · intro other
    have waits := counted.waiting other
    change (buffers.acquire src).refcount other = 0 ↔ _
    rw [acquired]
    by_cases same : other = src
    · subst same
      have counts := counted.exactly other
      rw [expected] at counts
      rw [Function.update_self]
      refine iff_of_false (by omega) fun delayed => ?_
      have zero := waits.mpr delayed
      omega
    · rw [Function.update_of_ne same]
      exact waits
  · intro replica original refers
    change Function.update buffers.reference dest (some src) replica = some original at refers
    change (Function.update buffers.fields dest (buffers.fields src) replica).data =
      (Function.update buffers.fields dest (buffers.fields src) original).data
    by_cases same : replica = dest
    · subst same
      rw [Function.update_self] at refers
      cases refers
      rw [Function.update_self, Function.update_of_ne (Ne.symm different)]
    · rw [Function.update_of_ne same] at refers
      rw [Function.update_of_ne same, Function.update_of_ne (original_ne replica original refers)]
      exact counted.copies replica original refers
  · intro other
    change (buffers.acquire src).refcount other < _
    rw [acquired]
    by_cases same : other = src
    · subst same
      rw [Function.update_self]
      exact room
    · rw [Function.update_of_ne same]
      exact counted.small other
  · intro replica original refers
    change Function.update buffers.reference dest (some src) replica = some original at refers
    by_cases same : replica = dest
    · subst same
      rw [Function.update_self] at refers
      cases refers
      rw [Function.update_self, Function.update_of_ne (Ne.symm different)]
      exact Nat.lt_succ_self _
    · rw [Function.update_of_ne same] at refers
      rw [Function.update_of_ne same, Function.update_of_ne (original_ne replica original refers)]
      exact ranked replica original refers

theorem create_circulating (pools : Pools Header Pool) (fields : Header → Fields Payload) :
    Circulating pools (Buffers.create pools fields) where
  counted := by
    constructor
    case counts =>
      intro header
      have present : (pools.header (pools.owner header)).count header = 1 :=
        List.count_eq_one_of_mem (pools.distinct _) ((pools.owned _ header).mpr rfl)
      change (1 : Int) = ((0 + referencers (effective (Buffers.create pools fields) ∅) header +
        (pools.header (pools.owner header)).count header : Nat) : Int)
      rw [effective_empty, present]
      exact congrArg Nat.cast (congrArg (0 + · + 1) referencers_none.symm)
    case placed => exact fun pool header queued => (pools.owned pool header).mp queued
    case distinct => exact pools.distinct
    case idle => exact fun _ _ _ => ⟨rfl, rfl⟩
    case waiting => exact fun header => iff_of_false one_ne_zero (by simp [Buffers.create])
    case once => exact List.nodup_nil
    case apart => exact fun header waits => absurd waits List.not_mem_nil
    case copies => exact fun replica original refers => by cases refers
    case small => exact fun header => (by decide : (1 : Int) < 2 ^ 31)
  acyclic := ⟨fun _ => 0, fun replica original refers => by cases refers⟩

variable [DecidableEq Pool]

theorem Circulating.get (circulating : Circulating pools buffers) {rest : List Header}
    (head : buffers.queue pool = header :: rest) :
    Circulating pools ({ buffers with queue := Function.update buffers.queue pool rest }.hold header) := by
  obtain ⟨counted, rank, ranked⟩ := circulating
  have owner : pools.owner header = pool := counted.placed pool header (by rw [head]; exact List.mem_cons_self)
  have fewer : ∀ other, (Function.update buffers.queue pool rest other).Sublist (buffers.queue other) := by
    intro other
    by_cases same : other = pool
    · rw [same, Function.update_self, head]
      exact List.sublist_cons_self header rest
    · rw [Function.update_of_ne same]
  refine ⟨⟨?_, ?_, ?_, ?_, counted.waiting, counted.once, counted.apart, counted.copies,
    counted.small⟩, rank, ranked⟩
  · intro other
    have counts := counted.exactly other
    change buffers.refcount other = ((Function.update buffers.held header (buffers.held header + 1) other +
      referencers (effective buffers ∅) other +
      (Function.update buffers.queue pool rest (pools.owner other)).count other : Nat) : Int)
    rw [counts, expected]
    by_cases same : other = header
    · subst same
      rw [owner, Function.update_self, Function.update_self, head, List.count_cons_self]
      omega
    · rw [Function.update_of_ne same]
      by_cases sibling : pools.owner other = pool
      · rw [sibling, Function.update_self, head, List.count_cons_of_ne (Ne.symm same)]
      · rw [Function.update_of_ne sibling]
  · exact fun other queued inside => counted.placed other queued ((fewer other).subset inside)
  · exact fun other => (counted.distinct other).sublist (fewer other)
  · exact fun other queued inside => counted.idle other queued ((fewer other).subset inside)

theorem Circulating.release (circulating : Circulating pools buffers) (held : 0 < buffers.held header) :
    ∃ after, buffers.call pools (.release header callbacks) = some after ∧ Circulating pools after := by
  obtain ⟨counted, rank, ranked⟩ := circulating
  have releases : ∃ after, (buffers.giveUp header).release pools callbacks (Fintype.card Header) header =
      some after ∧ Counted pools ∅ none after ∧ Fewer (buffers.giveUp header) after :=
    release_counted (counted.giveUp held) ranked (by simp) (by simp)
  obtain ⟨after, returned, counted_after, fewer⟩ := releases
  exact ⟨after, returned, counted_after, rank, fun replica original refers =>
    ranked replica original (fewer replica original refers)⟩

theorem Circulating.releaseContinue (circulating : Circulating pools buffers)
    (waits : header ∈ buffers.delayed) :
    ∃ after, buffers.call pools (.releaseContinue header callbacks) = some after ∧
      Circulating pools after := by
  obtain ⟨counted, rank, ranked⟩ := circulating
  suffices continued : ∃ after, { buffers with delayed := buffers.delayed.erase header }.continueWith pools
      callbacks (Buffers.release pools callbacks (Fintype.card Header)) header = some after ∧
      Counted pools ∅ none after ∧ Fewer buffers after by
    obtain ⟨after, returned, counted_after, fewer⟩ := continued
    exact ⟨after, returned, counted_after, rank, fun replica original refers =>
      ranked replica original (fewer replica original refers)⟩
  refine continueWith_counted counted waits rfl fun source refers leaves => ?_
  have below : ∀ other ∈ insert header (∅ : Finset Header), rank source < rank other := by
    intro other inside
    rw [insert_empty_eq, Finset.mem_singleton] at inside
    rw [inside]
    exact ranked header source refers
  exact release_counted leaves ranked below (Nat.le_add_right _ _)

theorem Circulating.call (circulating : Circulating pools buffers) {call : BufferCall Header Pool}
    (owes : buffers.Owes call) :
    ∃ after, buffers.call pools call = some after ∧ Circulating pools after := by
  cases call with
  | get pool =>
      cases head : buffers.queue pool with
      | nil => exact ⟨buffers, by simp only [Buffers.call, head], circulating⟩
      | cons header rest =>
          exact ⟨_, by simp only [Buffers.call, head], circulating.get head⟩
  | acquire header => exact ⟨_, rfl, circulating.acquire owes.1 owes.2⟩
  | release header callbacks => exact circulating.release owes
  | replicate dest src =>
      obtain ⟨destHeld, alone, srcHeld, different, room⟩ := owes
      exact ⟨_, rfl, circulating.replicate destHeld alone srcHeld different room⟩
  | releaseContinue header callbacks => exact circulating.releaseContinue owes

end Calls

/-- A header is in the queue of its own pool, once, exactly when nobody holds it, no header is a
replica of it and its release was not put off.  What a replica refers to, directly or not, is in
no queue and is where the replica's data is. -/
structure Recycled (pools : Pools Header Pool) (buffers : Buffers Header Pool Payload) : Prop where
  back : ∀ header, header ∈ buffers.queue (pools.owner header) ↔
    buffers.held header = 0 ∧ (∀ replica, buffers.reference replica ≠ some header) ∧
      header ∉ buffers.delayed
  home : ∀ pool, ∀ header ∈ buffers.queue pool, pools.owner header = pool
  once : ∀ pool, (buffers.queue pool).Nodup
  kept : ∀ replica original,
    Relation.TransGen (fun header source => buffers.reference header = some source) replica original →
      (∀ pool, original ∉ buffers.queue pool) ∧
        (buffers.fields replica).data = (buffers.fields original).data

theorem Circulating.recycled (circulating : Circulating pools buffers) : Recycled pools buffers := by
  obtain ⟨counted, -⟩ := circulating
  refine ⟨?_, counted.placed, counted.distinct, ?_⟩
  · intro header
    have counts := counted.exactly header
    rw [expected, effective_empty] at counts
    constructor
    · intro queued
      have one := (counted.idle _ header queued).1
      have present := List.count_pos_iff.mpr queued
      refine ⟨by omega, ?_, ?_⟩
      · intro replica refers
        have referenced := referencers_pos refers
        omega
      · intro waits
        have zero := (counted.waiting header).mpr (.inl waits)
        omega
    · rintro ⟨held, unreferenced, settled⟩
      have none : referencers buffers.reference header = 0 := referencers_eq_zero unreferenced
      have some_count : buffers.refcount header ≠ 0 := by
        intro zero
        rcases (counted.waiting header).mp zero with waits | inside
        · exact settled waits
        · cases inside
      have present : 0 < (buffers.queue (pools.owner header)).count header := by omega
      exact List.count_pos_iff.mp present
  · intro replica original path
    induction path with
    | single refers =>
        refine ⟨fun pool => counted.not_queued (.inr (.inr ?_)) pool, counted.copies _ _ refers⟩
        rw [effective_empty]
        exact referencers_pos refers
    | tail _ refers ih =>
        refine ⟨fun pool => counted.not_queued (.inr (.inr ?_)) pool,
          ih.2.trans (counted.copies _ _ refers)⟩
        rw [effective_empty]
        exact referencers_pos refers

variable [DecidableEq Pool]

theorem Circulating.calls (circulating : Circulating pools buffers) {calls : List (BufferCall Header Pool)}
    (owed : (bufferCalls pools Payload).Along Buffers.Owes buffers calls) :
    (bufferCalls pools Payload).Always (Recycled pools) buffers calls ∧
      (bufferCalls pools Payload).Along (fun buffers call => (buffers.call pools call).isSome)
        buffers calls := by
  induction calls generalizing buffers with
  | nil => exact ⟨circulating.recycled, trivial⟩
  | cons call calls ih =>
      obtain ⟨now, later⟩ := owed
      obtain ⟨after, returned, circulates⟩ := circulating.call now
      have next : (bufferCalls pools Payload).next buffers call = after := by
        simp only [bufferCalls, returned, Option.getD_some]
      rw [next] at later
      obtain ⟨always, along⟩ := ih circulates later
      refine ⟨⟨circulating.recycled, ?_⟩, ⟨Option.isSome_of_eq_some returned, ?_⟩⟩
      · rw [next]
        exact always
      · rw [next]
        exact along

/-- Whatever the clients call, every call returns, and between the calls each header is where it
has to be. -/
theorem headers_recycled (pools : Pools Header Pool) (fields : Header → Fields Payload)
    (calls : List (BufferCall Header Pool))
    (owed : (bufferCalls pools Payload).Along Buffers.Owes (Buffers.create pools fields) calls) :
    (bufferCalls pools Payload).Always (Recycled pools) (Buffers.create pools fields) calls ∧
      (bufferCalls pools Payload).Along (fun buffers call => (buffers.call pools call).isSome)
        (Buffers.create pools fields) calls :=
  (create_circulating pools fields).calls owed

/-- The headers 0 and 1 are of the first pool and 2 is of the second. -/
def twoPools : Pools (Fin 3) Bool where
  header pool := (List.finRange 3).filter fun header => decide ((header = 2) = pool)
  owner header := decide (header = 2)
  owned := by decide
  distinct := by decide

def plainFields (header : Fin 3) : Fields (Fin 3) where
  cmd := 0
  allocSize := 0
  data := if header = 2 then none else some header
  offset := 0
  length := 0
  flags := 0
  pts := timeUnknown
  dts := timeUnknown
  type := { planes := 0, offset := fun _ => 0, pitch := fun _ => 0, flags := 0 }

def noCallbacks : Callbacks (Fin 3) where
  preRelease _ := false
  queueBuffer _ := true

/-- A header is replicated, and released before its replica. -/
def replicaOutlives : List (BufferCall (Fin 3) Bool) :=
  [.get false, .get true, .replicate 2 0, .release 0 noCallbacks, .acquire 2, .release 2 noCallbacks,
    .release 2 noCallbacks]

theorem headers_recycled_replicaOutlives :
    (bufferCalls twoPools (Fin 3)).Always (Recycled twoPools) (Buffers.create twoPools plainFields)
        replicaOutlives ∧
      (bufferCalls twoPools (Fin 3)).Along (fun buffers call => (buffers.call twoPools call).isSome)
        (Buffers.create twoPools plainFields) replicaOutlives :=
  headers_recycled twoPools plainFields replicaOutlives (by decide)

example : ((bufferCalls twoPools (Fin 3)).run (Buffers.create twoPools plainFields)
    replicaOutlives).queue false = [1, 0] := by decide

end RcControl.Mmal
