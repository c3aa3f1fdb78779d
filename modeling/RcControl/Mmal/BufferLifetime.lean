import RcControl.Mmal.Buffers

namespace RcControl.Mmal

open RcControl.Data RcControl.Data.References

/-! When a buffer header is back in its pool. -/

variable {Header Pool Payload : Type*} [DecidableEq Header] [Fintype Header]
  {pools : Pools Header Pool} {callbacks : Callbacks Header}
  {buffers after : Buffers Header Pool Payload} {transit : Finset Header} {surplus : Option Header}
  {header source : Header}

/-- The references that count: a header on its way to its pool has given its reference back. -/
def effective (buffers : Buffers Header Pool Payload) (transit : Finset Header) (header : Header) :
    Option Header :=
  if header ∈ transit then none else buffers.reference header

/-- What a header's count has to be. -/
def expected (pools : Pools Header Pool) (buffers : Buffers Header Pool Payload)
    (transit : Finset Header) (header : Header) : Nat :=
  buffers.held header + referencers (effective buffers transit) header +
    (buffers.queue (pools.owner header)).count header

/-- The invariant inside a release: the headers in transit have no references left, and one
header may have been counted once too often. -/
structure Counted (pools : Pools Header Pool) (transit : Finset Header) (surplus : Option Header)
    (buffers : Buffers Header Pool Payload) : Prop where
  counts : ∀ header, buffers.refcount header =
    (expected pools buffers transit header + (if surplus = some header then 1 else 0) : Nat)
  placed : ∀ pool, ∀ header ∈ buffers.queue pool, pools.owner header = pool
  distinct : ∀ pool, (buffers.queue pool).Nodup
  idle : ∀ pool, ∀ header ∈ buffers.queue pool,
    buffers.refcount header = 1 ∧ buffers.reference header = none
  waiting : ∀ header, buffers.refcount header = 0 ↔ header ∈ buffers.delayed ∨ header ∈ transit
  once : buffers.delayed.Nodup
  apart : ∀ header ∈ buffers.delayed, header ∉ transit
  copies : ∀ replica original, buffers.reference replica = some original →
    (buffers.fields replica).data = (buffers.fields original).data
  small : ∀ header, buffers.refcount header < 2 ^ 31

/-- References lead downwards. -/
def Ranked (rank : Header → Nat) (buffers : Buffers Header Pool Payload) : Prop :=
  ∀ replica original, buffers.reference replica = some original → rank original < rank replica

section Release

theorem Counted.not_queued (counted : Counted pools transit surplus buffers)
    (more : surplus = some header ∨ 0 < buffers.held header ∨
      0 < referencers (effective buffers transit) header) (pool : Pool) :
    header ∉ buffers.queue pool := by
  intro queued
  have one := (counted.idle pool header queued).1
  have counts := counted.counts header
  have present := List.count_pos_iff.mpr queued
  rw [one, expected, counted.placed pool header queued] at counts
  rcases more with rfl | held | referenced
  · rw [if_pos rfl] at counts
    omega
  · split at counts <;> omega
  · split at counts <;> omega

theorem Counted.count_surplus (counted : Counted pools transit (some header) buffers) :
    buffers.refcount header = (expected pools buffers transit header + 1 : Nat) := by
  have counts := counted.counts header
  rwa [if_pos rfl] at counts

theorem Counted.exactly (counted : Counted pools transit none buffers) (header : Header) :
    buffers.refcount header = (expected pools buffers transit header : Nat) := counted.counts header

theorem bmod_small {count : Int} (lower : 0 ≤ count) (upper : count < 2 ^ 31) :
    count.bmod (2 ^ 32) = count :=
  Int.bmod_eq_of_le (by omega) (by omega)

omit [Fintype Header] in
/-- A count that does not overflow goes up and down by one. -/
theorem acquire_refcount {buffers : Buffers Header Pool Payload} (lower : 0 ≤ buffers.refcount header)
    (room : buffers.HasRoom header) : (buffers.acquire header).refcount =
      Function.update buffers.refcount header (buffers.refcount header + 1) := by
  rw [Buffers.acquire, bmod_small (by omega) room]

omit [Fintype Header] in
theorem drop_refcount {buffers : Buffers Header Pool Payload} (lower : 0 < buffers.refcount header)
    (upper : buffers.refcount header < 2 ^ 31) : (buffers.drop header).refcount =
      Function.update buffers.refcount header (buffers.refcount header - 1) := by
  rw [Buffers.drop, bmod_small (by omega) (by omega)]

/-- Counting down the header that was counted once too often. -/
theorem Counted.drop_refcount (counted : Counted pools transit (some header) buffers) :
    (buffers.drop header).refcount =
      Function.update buffers.refcount header (buffers.refcount header - 1) := by
  have counts := counted.count_surplus
  exact Mmal.drop_refcount (by omega) (counted.small header)

theorem Counted.drop_small (counted : Counted pools transit (some header) buffers) (other : Header) :
    (buffers.drop header).refcount other < 2 ^ 31 := by
  rw [counted.drop_refcount]
  have before := counted.small other
  by_cases same : other = header
  · subst same
    rw [Function.update_self]
    omega
  · rw [Function.update_of_ne same]
    exact before

theorem Counted.drop_counts (counted : Counted pools transit (some header) buffers) (other : Header) :
    (buffers.drop header).refcount other = (expected pools buffers transit other : Nat) := by
  by_cases same : other = header
  · subst same
    have counts := counted.count_surplus
    rw [counted.drop_refcount, Function.update_self, counts]
    omega
  · have counts := counted.counts other
    rw [if_neg (by simpa using Ne.symm same), Nat.add_zero] at counts
    rwa [counted.drop_refcount, Function.update_of_ne same]

theorem Counted.drop_idle (counted : Counted pools transit (some header) buffers) (pool : Pool)
    (other : Header) (queued : other ∈ buffers.queue pool) :
    (buffers.drop header).refcount other = 1 ∧ buffers.reference other = none := by
  have different : other ≠ header := by
    rintro rfl
    exact counted.not_queued (.inl rfl) pool queued
  rw [counted.drop_refcount, Function.update_of_ne different]
  exact counted.idle pool other queued

theorem Counted.not_waiting (counted : Counted pools transit (some header) buffers) :
    ¬(header ∈ buffers.delayed ∨ header ∈ transit) := by
  intro waits
  have zero := (counted.waiting header).mpr waits
  have counts := counted.count_surplus
  omega

theorem Counted.dropped (counted : Counted pools transit (some header) buffers)
    (more : (buffers.drop header).refcount header ≠ 0) :
    Counted pools transit none (buffers.drop header) where
  counts other := by
    rw [counted.drop_counts other]
    rfl
  placed := counted.placed
  distinct := counted.distinct
  idle := counted.drop_idle
  waiting other := by
    by_cases same : other = header
    · subst same
      exact iff_of_false more counted.not_waiting
    · rw [counted.drop_refcount, Function.update_of_ne same]
      exact counted.waiting other
  once := counted.once
  apart := counted.apart
  copies := counted.copies
  small := counted.drop_small

/-- The last reference is gone and the header waits. -/
theorem Counted.delay (counted : Counted pools transit (some header) buffers)
    (last : (buffers.drop header).refcount header = 0) :
    Counted pools transit none { buffers.drop header with delayed := header :: buffers.delayed } where
  counts other := by
    rw [counted.drop_counts other]
    rfl
  placed := counted.placed
  distinct := counted.distinct
  idle := counted.drop_idle
  waiting other := by
    by_cases same : other = header
    · subst same
      exact iff_of_true last (.inl List.mem_cons_self)
    · change (buffers.drop header).refcount other = 0 ↔ _
      rw [counted.drop_refcount, Function.update_of_ne same, List.mem_cons]
      simpa only [same, false_or] using counted.waiting other
  once := List.nodup_cons.mpr ⟨fun waits => counted.not_waiting (.inl waits), counted.once⟩
  apart other waits := by
    rcases List.mem_cons.mp waits with rfl | earlier
    · exact fun inside => counted.not_waiting (.inr inside)
    · exact counted.apart other earlier
  copies := counted.copies
  small := counted.drop_small

omit [Fintype Header] in
theorem effective_insert :
    effective buffers (insert header transit) =
      Function.update (effective buffers transit) header none := by
  funext other
  by_cases same : other = header
  · rw [same, Function.update_self, effective, if_pos (Finset.mem_insert_self header transit)]
  · rw [Function.update_of_ne same, effective, effective]
    simp only [Finset.mem_insert, same, false_or]

omit [Fintype Header] in
theorem reset_data (buffers : Buffers Header Pool Payload) (header other : Header) :
    ((buffers.reset header).fields other).data = (buffers.fields other).data := by
  by_cases same : other = header
  · simp only [Buffers.reset, same, Function.update_self, Fields.reset]
  · simp only [Buffers.reset, Function.update_of_ne same]

/-- A header that waits sets out to its pool: the one it refers to has been counted once too
often now. -/
theorem Counted.leave (counted : Counted pools transit none buffers) (waits : header ∈ buffers.delayed) :
    Counted pools (insert header transit) (buffers.reference header)
      ({ buffers with delayed := buffers.delayed.erase header }.reset header) where
  counts other := by
    have outside := counted.apart header waits
    have referred := referencers_update (effective buffers transit) header none other
    have own : effective buffers transit header = buffers.reference header := if_neg outside
    have counts := counted.exactly other
    rw [← effective_insert, own] at referred
    rw [expected] at counts
    change buffers.refcount other = ((buffers.held other +
      referencers (effective buffers (insert header transit)) other + _ + _ : Nat) : Int)
    rw [counts]
    simp only [reduceCtorEq, if_false] at referred
    change ((_ : Nat) : Int) = ((buffers.held other + referencers (effective buffers (insert header transit))
      other + (buffers.queue (pools.owner other)).count other + _ : Nat) : Int)
    omega
  placed := counted.placed
  distinct := counted.distinct
  idle := counted.idle
  waiting other := by
    change buffers.refcount other = 0 ↔ other ∈ buffers.delayed.erase header ∨ other ∈ insert header transit
    rw [counted.waiting, counted.once.mem_erase_iff, Finset.mem_insert]
    by_cases same : other = header
    · rw [same]
      exact iff_of_true (.inl waits) (.inr (.inl rfl))
    · simp only [same, ne_eq, not_false_eq_true, true_and, false_or]
  once := counted.once.erase header
  apart other later := by
    have erased := counted.once.mem_erase_iff.mp later
    rw [Finset.mem_insert, not_or]
    exact ⟨erased.1, counted.apart other erased.2⟩
  copies replica original refers := by
    rw [reset_data, reset_data]
    exact counted.copies replica original refers
  small := counted.small

variable [DecidableEq Pool]

omit [Fintype Header] in
theorem effective_recycle : effective (buffers.recycle pools callbacks header) transit =
    effective buffers (insert header transit) := by
  funext other
  have cleared : (buffers.recycle pools callbacks header).reference =
      Function.update buffers.reference header none := by
    unfold Buffers.recycle
    split <;> rfl
  rw [effective, effective, cleared]
  by_cases same : other = header
  · rw [same, Function.update_self, ite_self, if_pos (Finset.mem_insert_self header transit)]
  · rw [Function.update_of_ne same]
    simp only [Finset.mem_insert, same, false_or]

omit [Fintype Header] in
theorem count_recycle (other : Header) :
    (buffers.recycle pools callbacks header).held other +
        ((buffers.recycle pools callbacks header).queue (pools.owner other)).count other =
      buffers.held other + (buffers.queue (pools.owner other)).count other +
        (if other = header then 1 else 0) := by
  unfold Buffers.recycle
  split
  · by_cases same : other = header
    · subst same
      simp only [Function.update_self, List.count_append, List.count_singleton_self, if_true]
      omega
    · by_cases sibling : pools.owner other = pools.owner header
      · simp [sibling, same, Ne.symm same]
      · simp [sibling, same]
  · by_cases same : other = header
    · subst same
      simp only [Buffers.hold, Function.update_self, if_true]
      omega
    · simp only [Buffers.hold, Function.update_of_ne same, if_neg same, Nat.add_zero]

theorem expected_recycle (other : Header) :
    expected pools (buffers.recycle pools callbacks header) transit other =
      expected pools buffers (insert header transit) other + (if other = header then 1 else 0) := by
  have moved : (buffers.recycle pools callbacks header).held other +
      ((buffers.recycle pools callbacks header).queue (pools.owner other)).count other = _ :=
    count_recycle other
  rw [expected, expected, effective_recycle]
  omega

omit [Fintype Header] in
theorem recycle_refcount : (buffers.recycle pools callbacks header).refcount =
    Function.update buffers.refcount header 1 := by
  unfold Buffers.recycle
  split <;> rfl

omit [Fintype Header] in
theorem recycle_reference : (buffers.recycle pools callbacks header).reference =
    Function.update buffers.reference header none := by
  unfold Buffers.recycle
  split <;> rfl

omit [Fintype Header] in
theorem recycle_kept : (buffers.recycle pools callbacks header).fields = buffers.fields ∧
    (buffers.recycle pools callbacks header).delayed = buffers.delayed := by
  unfold Buffers.recycle
  split <;> exact ⟨rfl, rfl⟩

omit [Fintype Header] in
theorem recycle_queue (pools : Pools Header Pool) (callbacks : Callbacks Header)
    (buffers : Buffers Header Pool Payload) (header : Header) (pool : Pool) :
    (buffers.recycle pools callbacks header).queue pool = buffers.queue pool ∨
      pool = pools.owner header ∧
        (buffers.recycle pools callbacks header).queue pool = buffers.queue pool ++ [header] := by
  unfold Buffers.recycle
  split
  · by_cases own : pool = pools.owner header
    · subst own
      exact .inr ⟨rfl, Function.update_self ..⟩
    · exact .inl (Function.update_of_ne own _ _)
  · exact .inl rfl

/-- A header that was in transit is back in its pool, or with the client that kept it. -/
theorem Counted.recycled (counted : Counted pools (insert header transit) none buffers)
    (outside : header ∉ transit) : Counted pools transit none (buffers.recycle pools callbacks header) := by
  have zero := (counted.waiting header).mpr (.inr (Finset.mem_insert_self header transit))
  have counts := counted.exactly header
  rw [zero] at counts
  have nowhere : ∀ pool, header ∉ buffers.queue pool := by
    intro pool queued
    have present := List.count_pos_iff.mpr queued
    rw [expected, counted.placed pool header queued] at counts
    omega
  constructor
  case counts =>
    intro other
    change (buffers.recycle pools callbacks header).refcount other =
      (expected pools (buffers.recycle pools callbacks header) transit other : Nat)
    rw [recycle_refcount, expected_recycle]
    by_cases same : other = header
    · rw [same, Function.update_self, if_pos rfl]
      omega
    · rw [Function.update_of_ne same, if_neg same, counted.exactly other, Nat.add_zero]
  case placed =>
    intro pool other queued
    rcases recycle_queue pools callbacks buffers header pool with kept | ⟨rfl, added⟩
    · rw [kept] at queued
      exact counted.placed pool other queued
    · rw [added, List.mem_append] at queued
      rcases queued with earlier | last
      · exact counted.placed _ other earlier
      · rw [List.mem_singleton.mp last]
  case distinct =>
    intro pool
    rcases recycle_queue pools callbacks buffers header pool with kept | ⟨-, added⟩
    · rw [kept]
      exact counted.distinct pool
    · rw [added]
      exact List.concat_eq_append ▸ (counted.distinct pool).concat (nowhere pool)
  case idle =>
    intro pool other queued
    rw [recycle_refcount, recycle_reference]
    by_cases same : other = header
    · rw [same, Function.update_self, Function.update_self]
      exact ⟨rfl, rfl⟩
    · rw [Function.update_of_ne same, Function.update_of_ne same]
      rcases recycle_queue pools callbacks buffers header pool with kept | ⟨-, added⟩
      · rw [kept] at queued
        exact counted.idle pool other queued
      · rw [added, List.mem_append] at queued
        exact counted.idle pool other (queued.resolve_right fun last => same (List.mem_singleton.mp last))
  case waiting =>
    intro other
    rw [recycle_refcount, recycle_kept.2]
    by_cases same : other = header
    · subst same
      rw [Function.update_self]
      refine iff_of_false one_ne_zero (not_or.mpr ⟨fun waits => ?_, outside⟩)
      exact counted.apart other waits (Finset.mem_insert_self other transit)
    · rw [Function.update_of_ne same, counted.waiting other, Finset.mem_insert]
      simp only [same, false_or]
  case once =>
    rw [recycle_kept.2]
    exact counted.once
  case apart =>
    intro other waits
    rw [recycle_kept.2] at waits
    exact fun inside => counted.apart other waits (Finset.mem_insert_of_mem inside)
  case copies =>
    intro replica original refers
    rw [recycle_reference] at refers
    rw [recycle_kept.1]
    by_cases same : replica = header
    · rw [same, Function.update_self] at refers
      cases refers
    · rw [Function.update_of_ne same] at refers
      exact counted.copies replica original refers
  case small =>
    intro other
    rw [recycle_refcount]
    by_cases same : other = header
    · rw [same, Function.update_self]
      decide
    · rw [Function.update_of_ne same]
      exact counted.small other

/-- No reference is new. -/
def Fewer (buffers after : Buffers Header Pool Payload) : Prop :=
  ∀ replica original, after.reference replica = some original → buffers.reference replica = some original

omit [Fintype Header] in
theorem recycle_fewer (fewer : Fewer buffers after) :
    Fewer buffers (after.recycle pools callbacks header) := by
  intro replica original refers
  rw [recycle_reference] at refers
  by_cases same : replica = header
  · rw [same, Function.update_self] at refers
    cases refers
  · rw [Function.update_of_ne same] at refers
    exact fewer replica original refers

/-- `mmal_buffer_header_release_continue` takes a header that waits to its pool, if it returns from
releasing the reference. -/
theorem continueWith_counted {start : Buffers Header Pool Payload}
    {release : Buffers Header Pool Payload → Header → Option (Buffers Header Pool Payload)}
    (counted : Counted pools transit none buffers) (waits : header ∈ buffers.delayed)
    (begins : start = { buffers with delayed := buffers.delayed.erase header })
    (releases : ∀ source, buffers.reference header = some source →
      Counted pools (insert header transit) (some source) (start.reset header) →
      ∃ after, release (start.reset header) source = some after ∧
        Counted pools (insert header transit) none after ∧ Fewer buffers after) :
    ∃ after, start.continueWith pools callbacks release header = some after ∧
      Counted pools transit none after ∧ Fewer buffers after := by
  subst begins
  have outside := counted.apart header waits
  have leaves := counted.leave waits
  unfold Buffers.continueWith
  cases refers : buffers.reference header with
  | none =>
      rw [refers] at leaves
      exact ⟨_, rfl, leaves.recycled outside, recycle_fewer fun _ _ refers => refers⟩
  | some source =>
      rw [refers] at leaves
      obtain ⟨after, released, counted_after, fewer⟩ := releases source refers leaves
      refine ⟨after.recycle pools callbacks header, ?_, counted_after.recycled outside,
        recycle_fewer fewer⟩
      simp only [released, Option.map_some]

/-- A release returns: the calls nest no deeper than there are headers that are not in transit. -/
theorem release_counted {rank : Header → Nat} {depth : Nat}
    (counted : Counted pools transit (some header) buffers) (ranked : Ranked rank buffers)
    (below : ∀ other ∈ transit, rank header < rank other)
    (deep : Fintype.card Header ≤ depth + transit.card) :
    ∃ after, buffers.release pools callbacks depth header = some after ∧
      Counted pools transit none after ∧ Fewer buffers after := by
  induction depth generalizing buffers transit header with
  | zero =>
      rw [Nat.zero_add] at deep
      have everything : transit = Finset.univ :=
        Finset.card_eq_iff_eq_univ transit |>.mp (le_antisymm (Finset.card_le_univ transit) deep)
      rw [everything] at counted
      exact absurd (.inr (Finset.mem_univ header)) counted.not_waiting
  | succ depth ih =>
      unfold Buffers.release
      by_cases more : (buffers.drop header).refcount header = 0
      · have outside : header ∉ transit := fun inside => counted.not_waiting (.inr inside)
        rw [if_neg (not_not.mpr more)]
        split
        · exact ⟨_, rfl, counted.delay more, fun _ _ refers => refers⟩
        · have erased : (header :: buffers.delayed).erase header = buffers.delayed :=
            List.erase_cons_head header buffers.delayed
          have waiting := counted.delay more
          suffices continued : ∃ after, (buffers.drop header).continueWith pools callbacks
              (Buffers.release pools callbacks depth) header = some after ∧
              Counted pools transit none after ∧
              Fewer { buffers.drop header with delayed := header :: buffers.delayed } after from continued
          refine continueWith_counted waiting List.mem_cons_self (by rw [erased]; rfl) ?_
          intro source refers leaves
          refine ih leaves ranked ?_ ?_
          · intro other inside
            have lower := ranked header source refers
            rcases Finset.mem_insert.mp inside with rfl | earlier
            · exact lower
            · exact lower.trans (below other earlier)
          · rw [Finset.card_insert_of_notMem outside]
            omega
      · rw [if_pos more]
        exact ⟨_, rfl, counted.dropped more, fun _ _ refers => refers⟩

end Release

end RcControl.Mmal
