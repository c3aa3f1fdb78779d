import RcControl.Data.Framing
import RcControl.Data.Memory
import RcControl.H264.NaluIndices

namespace RcControl.Stream

open RcControl.Data RcControl.H264

/-! The frame assembly of `on_mmalcam_buffer`: everything it does before it sends. -/

/-- The fields of `MMAL_BUFFER_HEADER_T` the callback reads.  `data` is the memory at
the data pointer, of which the `length` bytes from `offset` on are the payload. -/
structure MmalBufferHeader where
  data : Nat → UInt8
  offset : Nat
  length : Nat
  flags : UInt32
  pts : Int

def mmalBufferHeaderFlagConfig : UInt32 := (1 : UInt32) <<< 5

def mmalTimeUnknown : Int := -2 ^ 63

def MmalBufferHeader.config (buffer : MmalBufferHeader) : Bool :=
  buffer.flags &&& mmalBufferHeaderFlagConfig ≠ 0

/-- The bytes handed to `FindNaluIndices`: `length` of them from `data`, not from
`data + offset`. -/
def MmalBufferHeader.bytes (buffer : MmalBufferHeader) : List UInt8 :=
  window buffer.data 0 buffer.length

structure KeyFrameCache where
  previousUnitType5 : Option (List UInt8)
  previousUnitType7 : Option (List UInt8)
  previousUnitType8 : Option (List UInt8)
deriving DecidableEq, Repr

def KeyFrameCache.store (cache : KeyFrameCache) (type : UInt8) (unit : List UInt8) : KeyFrameCache :=
  if type = 7 then { cache with previousUnitType7 := some unit }
  else if type = 8 then { cache with previousUnitType8 := some unit }
  else if type = 5 then { cache with previousUnitType5 := some unit }
  else cache

/-- The file-level variables of the camera callback.  `s_buf` holds 65554 allocated
bytes of unspecified content; memory beyond them is part of `sBuf` as well, so that
a run that leaves the allocation can be told from one that does not. -/
structure Frame where
  pendingFrame : Bool
  lastFrameTimestamp : UInt32
  lastFrameDuration : UInt32
  sBuf : Memory
  sBufLength : Nat
  cache : KeyFrameCache
  naluIndices : List NaluIndex

def sBufCapacity : Nat := 65554

/-- The file-level variables at process start, over whatever the allocation holds. -/
def Frame.initial (cells : Nat → UInt8) : Frame where
  pendingFrame := false
  lastFrameTimestamp := 0
  lastFrameDuration := 0
  sBuf := { cells, extent := 0 }
  sBufLength := 0
  cache := { previousUnitType5 := none, previousUnitType7 := none, previousUnitType8 := none }
  naluIndices := []

def sizeBytes (payloadSize : Nat) : List UInt8 :=
  [UInt8.ofNat ((payloadSize >>> 24) &&& 0xFF), UInt8.ofNat ((payloadSize >>> 16) &&& 0xFF),
    UInt8.ofNat ((payloadSize >>> 8) &&& 0xFF), UInt8.ofNat ((payloadSize >>> 0) &&& 0xFF)]

/-- One iteration of the loop over the NAL units. -/
def appendNalu (data : Nat → UInt8) (frame : Frame) (index : NaluIndex) : Frame :=
  let start := frame.sBufLength
  let sBufLength := frame.sBufLength + (4 + index.payloadSize)
  let copied := frame.sBuf.write (start + 4) (window data index.payloadStartOffset index.payloadSize)
  let sBuf := copied.write start (sizeBytes index.payloadSize)
  let type := parseNaluType (sBuf.cells (start + 4))
  -- The cached range runs from `start_ptr + 4` to `start_ptr + s_buf_length`.
  let unit := sBuf.read (start + 4) (start + sBufLength - (start + 4))
  { frame with sBuf, sBufLength, cache := frame.cache.store type unit }

def beginFrame (frame : Frame) (buffer : MmalBufferHeader) : Frame :=
  if frame.pendingFrame then
    { frame with pendingFrame := false }
  else
    { frame with sBufLength := 0, pendingFrame := buffer.config }

/-- `last_frame_duration` and `last_frame_timestamp`, both truncated to 32 bits. -/
def clockFrame (frame : Frame) (buffer : MmalBufferHeader) : Frame :=
  { frame with
    lastFrameDuration := UInt32.ofInt (buffer.pts - frame.lastFrameTimestamp.toNat)
    lastFrameTimestamp := UInt32.ofInt buffer.pts }

def openFrame (frame : Frame) (buffer : MmalBufferHeader) : Frame :=
  let frame := clockFrame (beginFrame frame buffer) buffer
  { frame with naluIndices := findNaluIndices frame.naluIndices buffer.bytes }

/-- The callback up to the point where it sends. -/
def acceptBuffer (frame : Frame) (buffer : MmalBufferHeader) : Frame :=
  (openFrame frame buffer).naluIndices.foldl (appendNalu buffer.data) (openFrame frame buffer)

theorem sizeBytes_eq (payloadSize : Nat) : sizeBytes payloadSize = Framing.lengthBytes payloadSize := by
  have mask (value : Nat) : UInt8.ofNat (value &&& 0xFF) = UInt8.ofNat value := by
    rw [← UInt8.toNat_inj, UInt8.toNat_ofNat', UInt8.toNat_ofNat',
      show (0xFF : Nat) = 2 ^ 8 - 1 from rfl, Nat.and_two_pow_sub_one_eq_mod, Nat.mod_mod]
  simp only [sizeBytes, Framing.lengthBytes, mask, Nat.shiftRight_eq_div_pow, Nat.pow_zero,
    Nat.div_one]

/-! What one iteration does to the frame. -/

section AppendNalu

variable (data : Nat → UInt8) (frame : Frame) (index : NaluIndex)

@[simp] theorem appendNalu_pendingFrame :
    (appendNalu data frame index).pendingFrame = frame.pendingFrame := rfl

@[simp] theorem appendNalu_naluIndices :
    (appendNalu data frame index).naluIndices = frame.naluIndices := rfl

@[simp] theorem appendNalu_lastFrameDuration :
    (appendNalu data frame index).lastFrameDuration = frame.lastFrameDuration := rfl

@[simp] theorem appendNalu_lastFrameTimestamp :
    (appendNalu data frame index).lastFrameTimestamp = frame.lastFrameTimestamp := rfl

@[simp] theorem appendNalu_sBufLength :
    (appendNalu data frame index).sBufLength = frame.sBufLength + (4 + index.payloadSize) := rfl

theorem appendNalu_payload :
    (appendNalu data frame index).sBuf.read (frame.sBufLength + 4) index.payloadSize =
      window data index.payloadStartOffset index.payloadSize := by
  have copied := frame.sBuf.read_write (frame.sBufLength + 4)
    (window data index.payloadStartOffset index.payloadSize)
  rw [window_length] at copied
  simp only [appendNalu]
  rw [Memory.read_write_above _ (by rw [sizeBytes_eq, Framing.lengthBytes_length]), copied]

/-- One iteration appends one length-prefixed record to the frame. -/
theorem appendNalu_read :
    (appendNalu data frame index).sBuf.read 0 (appendNalu data frame index).sBufLength =
      frame.sBuf.read 0 frame.sBufLength ++
        Framing.record (window data index.payloadStartOffset index.payloadSize) := by
  have before : (appendNalu data frame index).sBuf.read 0 frame.sBufLength =
      frame.sBuf.read 0 frame.sBufLength := by
    simp only [appendNalu]
    rw [Memory.read_write_below _ _ (by omega), Memory.read_write_below _ _ (by omega)]
  have size : (appendNalu data frame index).sBuf.read frame.sBufLength 4 =
      Framing.lengthBytes index.payloadSize := by
    simp only [appendNalu, sizeBytes_eq]
    exact Memory.read_write _ _ _
  rw [appendNalu_sBufLength, Memory.read, window_add, window_add, Nat.zero_add]
  change Memory.read _ _ _ ++ (Memory.read _ _ _ ++ Memory.read _ _ _) = _
  rw [before, size, appendNalu_payload, Framing.record, window_length]

theorem appendNalu_extent_le_iff (limit : Nat) :
    (appendNalu data frame index).sBuf.extent ≤ limit ↔
      frame.sBuf.extent ≤ limit ∧ frame.sBufLength + (4 + index.payloadSize) ≤ limit := by
  simp only [appendNalu]
  rw [Memory.write_extent_le_iff _ (by simp [sizeBytes])]
  rw [sizeBytes_eq, Framing.lengthBytes_length]
  cases size : index.payloadSize with
  | zero =>
      have nothing : window data index.payloadStartOffset 0 = [] := rfl
      rw [nothing, Memory.write_nil]
  | succ count =>
      rw [Memory.write_extent_le_iff _ (by simp [window]), window_length]
      omega

end AppendNalu

end RcControl.Stream
