import RcControl.H264.CallHistory
import RcControl.H264.FramedSize
import RcControl.Stream.UnitBuffers

namespace RcControl.Stream

open RcControl.Data RcControl.H264

/-! How much of `s_buf` the callback uses.

Nothing bounds the frame: a buffer adds its framed size to what is pending, and a
buffer too short to be scanned adds the sizes of the last scanned one again. -/

/-- Every write of the call lies in the allocation, and so does the frame after every unit. -/
def StaysInside (frame : Frame) (buffer : MmalBufferHeader) : Prop :=
  ∀ done, done <+: (openFrame frame buffer).naluIndices →
    (done.foldl (appendNalu buffer.data) (openFrame frame buffer)).sBuf.extent ≤ sBufCapacity ∧
      (done.foldl (appendNalu buffer.data) (openFrame frame buffer)).sBufLength ≤ sBufCapacity

def pendingAfter (configs : List Bool) : Bool :=
  configs.foldl (fun pending config => !pending && config) false

/-- The bytes a pending configuration buffer leaves in the frame. -/
def carried (front : List MmalBufferHeader) : Nat :=
  if pendingAfter (front.map (·.config)) then framedSize (lastScanned (front.map (·.bytes))) else 0

section Loop

variable (data : Nat → UInt8) (frame : Frame) (indices : List NaluIndex)

theorem foldl_appendNalu_extent_le_iff (limit : Nat) :
    (indices.foldl (appendNalu data) frame).sBuf.extent ≤ limit ↔
      frame.sBuf.extent ≤ limit ∧
        (indices = [] ∨ (indices.foldl (appendNalu data) frame).sBufLength ≤ limit) := by
  induction indices using List.reverseRecOn with
  | nil => simp
  | append_singleton front index ih =>
      rw [List.foldl_append, List.foldl_cons, List.foldl_nil, appendNalu_extent_le_iff, ih,
        appendNalu_sBufLength]
      have someEntry : front ++ [index] ≠ [] := by simp
      simp only [someEntry, false_or, and_assoc, and_congr_right_iff, and_iff_right_iff_imp]
      intro _ bound
      right
      omega

theorem foldl_appendNalu_sBufLength_mono {done : List NaluIndex} (isPrefix : done <+: indices) :
    (done.foldl (appendNalu data) frame).sBufLength ≤
      (indices.foldl (appendNalu data) frame).sBufLength := by
  obtain ⟨rest, rfl⟩ := isPrefix
  rw [foldl_appendNalu_sBufLength, foldl_appendNalu_sBufLength, List.map_append, List.sum_append]
  omega

end Loop

theorem staysInside_iff {frame : Frame} (inside : frame.sBuf.extent ≤ sBufCapacity)
    (buffer : MmalBufferHeader) :
    StaysInside frame buffer ↔ (acceptBuffer frame buffer).sBufLength ≤ sBufCapacity := by
  apply Iff.intro
  · intro stays
    exact (stays _ List.prefix_rfl).2
  · intro fits done isPrefix
    have bound : (done.foldl (appendNalu buffer.data) (openFrame frame buffer)).sBufLength ≤
        sBufCapacity :=
      Nat.le_trans (foldl_appendNalu_sBufLength_mono _ _ _ isPrefix) fits
    refine ⟨?_, bound⟩
    rw [foldl_appendNalu_extent_le_iff, openFrame_sBuf]
    exact ⟨inside, .inr bound⟩

section Run

variable (cells : Nat → UInt8)

theorem run_pendingFrame (buffers : List MmalBufferHeader) :
    (frames.run (Frame.initial cells) buffers).pendingFrame =
      pendingAfter (buffers.map (·.config)) := by
  induction buffers using List.reverseRecOn with
  | nil => rfl
  | append_singleton front buffer ih =>
      rw [Machine.run_concat, List.map_append, List.map_singleton, pendingAfter, List.foldl_append]
      change (acceptBuffer _ buffer).pendingFrame = _
      rw [acceptBuffer_pendingFrame, ih]
      rfl

theorem run_naluIndices (buffers : List MmalBufferHeader) :
    (frames.run (Frame.initial cells) buffers).naluIndices =
      scanner.run [] (buffers.map (·.bytes)) := by
  induction buffers using List.reverseRecOn with
  | nil => rfl
  | append_singleton front buffer ih =>
      rw [Machine.run_concat, List.map_append, List.map_singleton, Machine.run_concat, ← ih]
      change (acceptBuffer _ buffer).naluIndices = findNaluIndices _ _
      rw [acceptBuffer, foldl_appendNalu_naluIndices, openFrame_naluIndices]

theorem acceptBuffer_run_sBufLength (front : List MmalBufferHeader) (buffer : MmalBufferHeader) :
    (acceptBuffer (frames.run (Frame.initial cells) front) buffer).sBufLength =
      (if pendingAfter (front.map (·.config))
        then (frames.run (Frame.initial cells) front).sBufLength else 0) +
      framedSize (lastScanned ((front ++ [buffer]).map (·.bytes))) := by
  have scanned : findNaluIndices (frames.run (Frame.initial cells) front).naluIndices buffer.bytes =
      scanner.run [] ((front ++ [buffer]).map (·.bytes)) := by
    rw [run_naluIndices, List.map_append, List.map_singleton, Machine.run_concat]
    rfl
  rw [acceptBuffer, foldl_appendNalu_sBufLength, openFrame_sBufLength, openFrame_naluIndices,
    scanned, scanner_run, entries_framedSize, run_pendingFrame]

theorem acceptBuffer_run_carried (front : List MmalBufferHeader) (buffer : MmalBufferHeader) :
    (acceptBuffer (frames.run (Frame.initial cells) front) buffer).sBufLength =
      carried front + framedSize (lastScanned ((front ++ [buffer]).map (·.bytes))) := by
  rw [acceptBuffer_run_sBufLength, carried]
  cases pending : pendingAfter (front.map (·.config)) with
  | false => rfl
  | true =>
      rcases List.eq_nil_or_concat front with rfl | ⟨earlier, config, rfl⟩
      · cases pending
      · -- What is pending came from one buffer, which found nothing pending.
        rw [List.concat_eq_append] at pending ⊢
        rw [List.map_append, List.map_singleton, pendingAfter, List.foldl_append] at pending
        have free : pendingAfter (earlier.map (·.config)) = false :=
          Bool.not_eq_true' _ |>.mp (Bool.and_eq_true_iff.mp pending).1
        rw [Machine.run_concat]
        change (if true then (acceptBuffer _ config).sBufLength else 0) + _ = _
        rw [acceptBuffer_run_sBufLength, free]
        simp

/-- In every run from process start, all writes stay inside the 65554 bytes of `s_buf`
and the frame fits after every unit of every call exactly when each buffer fits
together with what is pending before it, measured by their framed sizes. -/
theorem writes_stay_inside_iff (buffers : List MmalBufferHeader) :
    frames.Along StaysInside (Frame.initial cells) buffers ↔
      ∀ front buffer back, buffers = front ++ buffer :: back →
        carried front + framedSize (lastScanned ((front ++ [buffer]).map (·.bytes))) ≤
          sBufCapacity := by
  have same : frames.Along StaysInside (Frame.initial cells) buffers ↔
      frames.Along (fun frame buffer => (acceptBuffer frame buffer).sBufLength ≤ sBufCapacity)
        (Frame.initial cells) buffers := by
    refine frames.along_congr (·.sBuf.extent ≤ sBufCapacity)
      (fun frame buffer inside => staysInside_iff inside buffer) ?_ (Nat.zero_le _) buffers
    intro frame buffer _ stays
    exact (stays _ List.prefix_rfl).1
  rw [same, Machine.along_iff_split]
  simp only [acceptBuffer_run_carried]

end Run

theorem acceptBuffer_pair_sBufLength {frame : Frame} (idle : frame.pendingFrame = false)
    {config : UnitBuffer} (held : config.header.config = true) (slice : UnitBuffer) :
    (acceptBuffer (acceptBuffer frame config.header) slice.header).sBufLength =
      (Framing.encode (config.payloads ++ slice.payloads)).length := by
  have pending : (acceptBuffer frame config.header).pendingFrame = true := by
    rw [acceptBuffer_pendingFrame, idle, held]
    rfl
  have first := acceptBuffer_read frame config
  rw [idle, if_neg (by decide), List.nil_append] at first
  have read := acceptBuffer_read (acceptBuffer frame config.header) slice
  rw [if_pos pending, first, ← Framing.encode_append] at read
  rw [← read, Memory.read_length]

def repeatedByte (byte : UInt8) (count : Nat) (plain : byte ≠ 0 ∧ byte ≠ 1 ∧ 0 < count)
    (flags : UInt32) (pts : Int) : UnitBuffer :=
  have some_byte : List.replicate count byte ≠ [] := by
    rw [ne_eq, List.replicate_eq_nil_iff]
    omega
  .holding [.plain true (List.replicate count byte) some_byte
    (by simp [List.getLast?_replicate, plain])
    (by simp [List.mem_replicate, plain.2.1.symm])] (by simp) flags pts

theorem repeatedByte_payloads (byte : UInt8) (count : Nat) (plain : byte ≠ 0 ∧ byte ≠ 1 ∧ 0 < count)
    (flags : UInt32) (pts : Int) :
    (repeatedByte byte count plain flags pts).payloads = [List.replicate count byte] := rfl

theorem repeatedByte_length (byte : UInt8) (count : Nat) (plain : byte ≠ 0 ∧ byte ≠ 1 ∧ 0 < count)
    (flags : UInt32) (pts : Int) :
    (repeatedByte byte count plain flags pts).header.length = 4 + count := by
  simp [repeatedByte, UnitBuffer.holding, MmalBufferHeader.holding, StreamUnit.plain,
    StreamUnit.codeLength]

/-- Parameter sets of 28 framed bytes and a slice of 65536 do not fit together. -/
theorem writes_not_inside :
    ¬ ∀ (cells : Nat → UInt8) (buffers : List MmalBufferHeader),
      (∀ buffer ∈ buffers, buffer.length ≤ 65536) →
        frames.Along StaysInside (Frame.initial cells) buffers := by
  intro inside
  let config := repeatedByte 0x67 24 (by decide) mmalBufferHeaderFlagConfig mmalTimeUnknown
  let slice := repeatedByte 0x41 65532 (by decide) 0 0
  have stays := inside (fun _ => 0) [config.header, slice.header] (by
    simp only [List.forall_mem_cons, List.not_mem_nil, false_imp_iff, implies_true, and_true]
    rw [repeatedByte_length, repeatedByte_length]
    decide)
  have bound := (stays.2.1 _ List.prefix_rfl).2
  have idle : (Frame.initial fun _ => 0).pendingFrame = false := rfl
  have held : config.header.config = true := by
    change decide (mmalBufferHeaderFlagConfig &&& mmalBufferHeaderFlagConfig ≠ 0) = true
    decide
  have total := acceptBuffer_pair_sBufLength idle held slice
  rw [repeatedByte_payloads, repeatedByte_payloads, Framing.encode_length] at total
  simp only [List.singleton_append, List.map_cons, List.map_nil, List.length_replicate,
    List.sum_cons, List.sum_nil] at total
  change (acceptBuffer (acceptBuffer (Frame.initial fun _ => 0) config.header)
    slice.header).sBufLength ≤ _ at bound
  rw [total] at bound
  exact absurd bound (by decide)

end RcControl.Stream
