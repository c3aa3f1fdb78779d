import RcControl.Stream.UnitBuffers

namespace RcControl.Stream

open RcControl.Data RcControl.H264

/-! The units kept for joining clients.

The callback caches the bytes from `start_ptr + 4` to `start_ptr + s_buf_length`.
The second bound takes the fill of the whole frame for the size of the record, so
a cached unit is followed by as many further bytes as the frame held before it. -/

def naluType (payload : List UInt8) : UInt8 := parseNaluType (payload.headD 0)

def keyTypes : List UInt8 := [7, 8, 5]

def latestUnit (type : UInt8) (payloads : List (List UInt8)) : Option (List UInt8) :=
  (payloads.filter (naluType · = type)).getLast?

def KeyFrameCache.latest (payloads : List (List UInt8)) : KeyFrameCache where
  previousUnitType5 := latestUnit 5 payloads
  previousUnitType7 := latestUnit 7 payloads
  previousUnitType8 := latestUnit 8 payloads

def KeyFrameCache.find? (cache : KeyFrameCache) (type : UInt8) : Option (List UInt8) :=
  if type = 7 then cache.previousUnitType7
  else if type = 8 then cache.previousUnitType8
  else if type = 5 then cache.previousUnitType5
  else none

def lateUnits (frame : Frame) (buffer : UnitBuffer) : List (List UInt8) :=
  if frame.pendingFrame then buffer.payloads else buffer.payloads.tail

def KeyUnitsLead (frame : Frame) (buffer : UnitBuffer) : Prop :=
  ∀ payload ∈ lateUnits frame buffer, naluType payload ∉ keyTypes

theorem KeyFrameCache.eq_latest_iff (cache : KeyFrameCache) (payloads : List (List UInt8)) :
    cache = .latest payloads ↔ ∀ type ∈ keyTypes, cache.find? type = latestUnit type payloads := by
  obtain ⟨unit5, unit7, unit8⟩ := cache
  simp only [latest, mk.injEq, keyTypes, List.mem_cons, List.not_mem_nil, or_false, forall_eq_or_imp,
    forall_eq, find?]
  exact ⟨fun ⟨five, seven, eight⟩ => ⟨seven, eight, five⟩,
    fun ⟨seven, eight, five⟩ => ⟨five, seven, eight⟩⟩

theorem KeyFrameCache.find?_store (cache : KeyFrameCache) (own : UInt8) (unit : List UInt8)
    {type : UInt8} (key : type ∈ keyTypes) :
    (cache.store own unit).find? type = if own = type then some unit else cache.find? type := by
  simp only [keyTypes, List.mem_cons, List.not_mem_nil, or_false] at key
  rcases key with rfl | rfl | rfl <;> simp only [store, find?] <;> split_ifs <;> simp_all

theorem latestUnit_append_singleton (type : UInt8) (payloads : List (List UInt8))
    (payload : List UInt8) :
    latestUnit type (payloads ++ [payload]) =
      if naluType payload = type then some payload else latestUnit type payloads := by
  unfold latestUnit
  rw [List.filter_append]
  split
  · rename_i same
    rw [List.filter_singleton, decide_eq_true same, cond_true, List.getLast?_concat]
  · rename_i other
    rw [List.filter_singleton, decide_eq_false other, cond_false, List.append_nil]

section Loop

variable (data : Nat → UInt8) (frame : Frame)

def payloadAt (index : NaluIndex) : List UInt8 :=
  window data index.payloadStartOffset index.payloadSize

/-- An iteration caches its unit with as many bytes behind it as the frame held before. -/
theorem appendNalu_cache {index : NaluIndex} (some_byte : 0 < index.payloadSize) :
    ∃ overrun, overrun.length = frame.sBufLength ∧
      (appendNalu data frame index).cache =
        frame.cache.store (naluType (payloadAt data index)) (payloadAt data index ++ overrun) := by
  have payload := appendNalu_payload data frame index
  refine ⟨(appendNalu data frame index).sBuf.read (frame.sBufLength + 4 + index.payloadSize)
    frame.sBufLength, Memory.read_length _ _ _, ?_⟩
  have first : (appendNalu data frame index).sBuf.cells (frame.sBufLength + 4) =
      (payloadAt data index).headD 0 := by
    obtain ⟨count, size⟩ := Nat.exists_eq_add_of_le' some_byte
    rw [payloadAt, ← payload, size, Memory.read, window, List.range_succ_eq_map]
    rfl
  have cached : (appendNalu data frame index).sBuf.read (frame.sBufLength + 4)
      (frame.sBufLength + (frame.sBufLength + (4 + index.payloadSize)) - (frame.sBufLength + 4)) =
      payloadAt data index ++ (appendNalu data frame index).sBuf.read
        (frame.sBufLength + 4 + index.payloadSize) frame.sBufLength := by
    rw [show frame.sBufLength + (frame.sBufLength + (4 + index.payloadSize)) -
      (frame.sBufLength + 4) = index.payloadSize + frame.sBufLength by omega]
    rw [Memory.read, window_add]
    exact congrArg (· ++ _) payload
  rw [naluType, ← first, ← cached]
  rfl

def late (indices : List NaluIndex) : List NaluIndex :=
  if frame.sBufLength = 0 then indices.tail else indices

/-- The loop leaves the most recent unit of a key type in the cache exactly when no
unit of that type comes late. -/
theorem foldl_appendNalu_find?_iff {seen : List (List UInt8)} {type : UInt8}
    (key : type ∈ keyTypes) (cached : frame.cache.find? type = latestUnit type seen)
    {indices : List NaluIndex} (some_byte : ∀ index ∈ indices, 0 < index.payloadSize) :
    (indices.foldl (appendNalu data) frame).cache.find? type =
        latestUnit type (seen ++ indices.map (payloadAt data)) ↔
      ∀ index ∈ late frame indices, naluType (payloadAt data index) ≠ type := by
  induction indices using List.reverseRecOn with
  | nil => simp [late, cached]
  | append_singleton front index ih =>
      have earlier := ih fun other member => some_byte other (List.mem_append_left _ member)
      obtain ⟨overrun, size, stored⟩ := appendNalu_cache data
        (front.foldl (appendNalu data) frame) (some_byte index (by simp))
      rw [List.foldl_append, List.foldl_cons, List.foldl_nil, List.map_append, List.map_singleton,
        ← List.append_assoc, latestUnit_append_singleton, stored, KeyFrameCache.find?_store _ _ _ key]
      rw [foldl_appendNalu_sBufLength] at size
      by_cases first : frame.sBufLength = 0 ∧ front = []
      · obtain ⟨empty, rfl⟩ := first
        have nothing : overrun = [] := List.eq_nil_of_length_eq_zero (by rw [size, empty]; rfl)
        have none_late : late frame ([] ++ [index]) = [] := by simp [late, empty]
        rw [none_late, nothing, List.append_nil]
        simp only [List.foldl_nil, List.map_nil, List.append_nil, cached, List.not_mem_nil,
          false_imp_iff, implies_true]
      · have late_append : late frame (front ++ [index]) = late frame front ++ [index] := by
          unfold late
          split
          · rename_i empty
            have some_entry : front ≠ [] := fun none => first ⟨empty, none⟩
            exact List.tail_append_of_ne_nil some_entry
          · rfl
        have overran : overrun ≠ [] := by
          intro none
          rw [none, List.length_nil] at size
          cases front with
          | nil => exact first ⟨by simpa using size.symm, rfl⟩
          | cons other front =>
              simp only [List.map_cons, List.sum_cons] at size
              omega
        rw [late_append]
        by_cases same : naluType (payloadAt data index) = type
        · rw [if_pos same, if_pos same]
          apply Iff.intro
          · intro equal
            exact absurd (List.append_right_eq_self.mp (Option.some.inj equal)) overran
          · intro none_late
            exact absurd same (none_late index (by simp))
        · rw [if_neg same, if_neg same, earlier]
          simp [or_imp, forall_and, same]

end Loop

section Run

variable (frame : Frame) (buffer : UnitBuffer)

theorem unitEntries_payloadSize_pos (offset : Nat) (units : List StreamUnit) :
    ∀ index ∈ unitEntries offset units, 0 < index.payloadSize := by
  induction units generalizing offset with
  | nil => simp [unitEntries]
  | cons unit units ih =>
      rw [unitEntries, List.forall_mem_cons]
      exact ⟨unit.payload_pos, ih _⟩

theorem acceptBuffer_sBufLength_pos :
    0 < (acceptBuffer frame buffer.header).sBufLength := by
  have read := congrArg List.length (acceptBuffer_read frame buffer)
  rw [Memory.read_length, List.length_append, Framing.encode_length] at read
  cases units : buffer.units with
  | nil => exact absurd units buffer.some_unit
  | cons unit rest =>
      rw [UnitBuffer.payloads, units, List.map_cons, List.map_cons, List.sum_cons] at read
      omega

theorem late_payloads (pendingSome : frame.pendingFrame = true → 0 < frame.sBufLength) :
    (late (openFrame frame buffer.header) (unitEntries 0 buffer.units)).map
        (payloadAt buffer.header.data) = lateUnits frame buffer := by
  have windows : (unitEntries 0 buffer.units).map (payloadAt buffer.header.data) =
      buffer.payloads := buffer.windows
  rw [late, openFrame_sBufLength, lateUnits]
  cases pending : frame.pendingFrame with
  | true =>
      have filled := pendingSome pending
      rw [if_pos rfl, if_pos rfl, if_neg (by omega), windows]
  | false =>
      simp only [Bool.false_eq_true, if_false, if_true]
      rw [List.map_tail, windows]

theorem acceptBuffer_cache_iff {seen : List (List UInt8)}
    (pendingSome : frame.pendingFrame = true → 0 < frame.sBufLength)
    (cached : frame.cache = .latest seen) :
    KeyUnitsLead frame buffer ↔
      (acceptBuffer frame buffer.header).cache = .latest (seen ++ buffer.payloads) := by
  rw [KeyFrameCache.eq_latest_iff] at cached
  have slot : ∀ type ∈ keyTypes, ((acceptBuffer frame buffer.header).cache.find? type =
      latestUnit type (seen ++ buffer.payloads) ↔
        ∀ payload ∈ lateUnits frame buffer, naluType payload ≠ type) := by
    intro type key
    have loop := foldl_appendNalu_find?_iff buffer.header.data (openFrame frame buffer.header) key
      (by rw [openFrame_cache]; exact cached type key) (unitEntries_payloadSize_pos 0 buffer.units)
    have windows : (unitEntries 0 buffer.units).map (payloadAt buffer.header.data) =
        buffer.payloads := buffer.windows
    rw [windows] at loop
    rw [acceptBuffer, openFrame_naluIndices, buffer.bytes_eq,
      findNaluIndices_stream _ buffer.some_unit, loop, ← late_payloads frame buffer pendingSome,
      List.forall_mem_map]
  rw [KeyFrameCache.eq_latest_iff, KeyUnitsLead]
  apply Iff.intro
  · intro lead type key
    exact (slot type key).mpr fun payload member same => lead payload member (same ▸ key)
  · intro exactly payload member key
    exact (slot _ key).mp (exactly _ key) payload member rfl

theorem pending_sBufLength_pos (cells : Nat → UInt8) (buffers : List UnitBuffer)
    (pending : ((frames.comap UnitBuffer.header).run (Frame.initial cells) buffers).pendingFrame = true) :
    0 < ((frames.comap UnitBuffer.header).run (Frame.initial cells) buffers).sBufLength := by
  rcases List.eq_nil_or_concat buffers with rfl | ⟨front, last, rfl⟩
  · cases pending
  · rw [List.concat_eq_append, Machine.run_concat]
    exact acceptBuffer_sBufLength_pos _ last

/-- In every run from process start, the cache holds the most recent unit of each key
type after every call exactly when every key unit of the run begins its frame. -/
theorem cache_latest_iff (cells : Nat → UInt8) (buffers : List UnitBuffer) :
    (∀ past, past <+: buffers →
      ((frames.comap UnitBuffer.header).run (Frame.initial cells) past).cache =
        .latest (past.flatMap UnitBuffer.payloads)) ↔
    (frames.comap UnitBuffer.header).Along KeyUnitsLead (Frame.initial cells) buffers := by
  let machine := frames.comap UnitBuffer.header
  symm
  refine machine.along_iff_histories
    (fun past => (machine.run (Frame.initial cells) past).cache =
      .latest (past.flatMap UnitBuffer.payloads)) rfl (fun past buffer cached => ?_) buffers
  rw [Machine.run_concat, List.flatMap_append, List.flatMap_singleton]
  exact acceptBuffer_cache_iff _ buffer (pending_sBufLength_pos cells past) cached

end Run

/-- A parameter set behind another one is cached with six bytes too many. -/
theorem cache_not_latest :
    ¬ ∀ (cells : Nat → UInt8) (buffers : List UnitBuffer),
      (∀ past, past <+: buffers →
        ((frames.comap UnitBuffer.header).run (Frame.initial cells) past).sBufLength ≤ sBufCapacity) →
      ∀ past, past <+: buffers →
        ((frames.comap UnitBuffer.header).run (Frame.initial cells) past).cache =
          .latest (past.flatMap UnitBuffer.payloads) := by
  intro exactly
  have cached := exactly (fun _ => 0)
    [.holding [.plain true [0x67, 0x42] (by simp) (by simp) (by decide),
      .plain true [0x68, 0xCE] (by simp) (by simp) (by decide)] (by simp)
      mmalBufferHeaderFlagConfig mmalTimeUnknown] ?_ _ List.prefix_rfl
  · exact absurd cached (by decide +kernel)
  · intro past isPrefix
    rw [← List.nil_append [_], List.prefix_concat_iff] at isPrefix
    rcases isPrefix with rfl | none
    · decide +kernel
    · rw [List.prefix_nil.mp none]
      decide

end RcControl.Stream
