import RcControl.Data.Assembly
import RcControl.H264.UnitIndices
import RcControl.Stream.Frame

namespace RcControl.Stream

open RcControl.Data RcControl.H264

/-! Encoder buffers that carry well-formed units, and what the callback makes of them. -/

def MmalBufferHeader.holding (bytes : List UInt8) (flags : UInt32) (pts : Int) : MmalBufferHeader where
  data address := bytes.getD address 0
  offset := 0
  length := bytes.length
  flags := flags
  pts := pts

@[simp] theorem MmalBufferHeader.holding_bytes (bytes : List UInt8) (flags : UInt32) (pts : Int) :
    (holding bytes flags pts).bytes = bytes := by
  apply List.ext_getElem (by simp [MmalBufferHeader.bytes, holding])
  intro index _ bound
  simp [MmalBufferHeader.bytes, holding, window, bound]

/-- A buffer whose payload is the byte stream of at least one unit. -/
structure UnitBuffer where
  header : MmalBufferHeader
  units : List StreamUnit
  offset_zero : header.offset = 0
  some_unit : units ≠ []
  carries : window header.data header.offset header.length = stream units

namespace UnitBuffer

def payloads (buffer : UnitBuffer) : List (List UInt8) := buffer.units.map StreamUnit.payload

def batch (buffer : UnitBuffer) : Bool × List (List UInt8) :=
  (buffer.header.config, buffer.payloads)

theorem bytes_eq (buffer : UnitBuffer) : buffer.header.bytes = stream buffer.units := by
  have carries := buffer.carries
  rwa [buffer.offset_zero] at carries

def holding (units : List StreamUnit) (some_unit : units ≠ []) (flags : UInt32) (pts : Int) :
    UnitBuffer where
  header := .holding (stream units) flags pts
  units := units
  offset_zero := rfl
  some_unit := some_unit
  carries := MmalBufferHeader.holding_bytes _ _ _

end UnitBuffer

def frames : Machine Frame MmalBufferHeader (Option (List UInt8)) where
  next := acceptBuffer
  emit frame buffer :=
    let frame := acceptBuffer frame buffer
    if frame.pendingFrame then none else some (frame.sBuf.read 0 frame.sBufLength)

section Loop

variable (data : Nat → UInt8) (frame : Frame) (indices : List NaluIndex)

theorem foldl_appendNalu_kept {Field : Type*} (field : Frame → Field)
    (kept : ∀ frame index, field (appendNalu data frame index) = field frame) :
    field (indices.foldl (appendNalu data) frame) = field frame := by
  induction indices generalizing frame with
  | nil => rfl
  | cons index indices ih => rw [List.foldl_cons, ih, kept]

@[simp] theorem foldl_appendNalu_pendingFrame :
    (indices.foldl (appendNalu data) frame).pendingFrame = frame.pendingFrame :=
  foldl_appendNalu_kept data frame indices (·.pendingFrame) (appendNalu_pendingFrame data)

@[simp] theorem foldl_appendNalu_naluIndices :
    (indices.foldl (appendNalu data) frame).naluIndices = frame.naluIndices :=
  foldl_appendNalu_kept data frame indices (·.naluIndices) (appendNalu_naluIndices data)

@[simp] theorem foldl_appendNalu_lastFrameDuration :
    (indices.foldl (appendNalu data) frame).lastFrameDuration = frame.lastFrameDuration :=
  foldl_appendNalu_kept data frame indices (·.lastFrameDuration) (appendNalu_lastFrameDuration data)

@[simp] theorem foldl_appendNalu_lastFrameTimestamp :
    (indices.foldl (appendNalu data) frame).lastFrameTimestamp = frame.lastFrameTimestamp :=
  foldl_appendNalu_kept data frame indices (·.lastFrameTimestamp)
    (appendNalu_lastFrameTimestamp data)

theorem foldl_appendNalu_sBufLength :
    (indices.foldl (appendNalu data) frame).sBufLength =
      frame.sBufLength + (indices.map (4 + ·.payloadSize)).sum := by
  induction indices generalizing frame with
  | nil => rfl
  | cons index indices ih =>
      rw [List.foldl_cons, ih, appendNalu_sBufLength, List.map_cons, List.sum_cons, Nat.add_assoc]

theorem foldl_appendNalu_read :
    (indices.foldl (appendNalu data) frame).sBuf.read 0
        (indices.foldl (appendNalu data) frame).sBufLength =
      frame.sBuf.read 0 frame.sBufLength ++
        Framing.encode (indices.map fun index =>
          window data index.payloadStartOffset index.payloadSize) := by
  induction indices generalizing frame with
  | nil => simp
  | cons index indices ih =>
      rw [List.foldl_cons, ih, appendNalu_read, List.map_cons, Framing.encode_cons,
        List.append_assoc]

end Loop

theorem unitEntries_windows {data : Nat → UInt8} {size : Nat} (front : List UInt8)
    (units : List StreamUnit) (whole : window data 0 size = front ++ stream units) :
    ((unitEntries front.length units).map fun index =>
        window data index.payloadStartOffset index.payloadSize) =
      units.map StreamUnit.payload := by
  induction units generalizing front with
  | nil => rfl
  | cons unit units ih =>
      rw [stream_cons, StreamUnit.bytes] at whole
      have rest := ih (front ++ unit.bytes) (by
        rw [whole, StreamUnit.bytes]
        simp only [List.append_assoc])
      have here : window data (front.length + unit.codeLength) unit.payload.length =
          unit.payload := by
        have located := window_of_append data 0 size (front ++ unit.code) unit.payload
          (stream units) (by rw [whole]; simp only [List.append_assoc])
        rwa [List.length_append, unit.code_length, Nat.zero_add] at located
      rw [unitEntries, List.map_cons, List.map_cons, here]
      rw [List.length_append] at rest
      rw [rest]

section Accept

variable (frame : Frame) (buffer : MmalBufferHeader)

theorem acceptBuffer_pendingFrame :
    (acceptBuffer frame buffer).pendingFrame = (!frame.pendingFrame && buffer.config) := by
  rw [acceptBuffer, foldl_appendNalu_pendingFrame]
  cases pending : frame.pendingFrame <;>
    simp [openFrame, clockFrame, beginFrame, pending]

theorem acceptBuffer_clock :
    (acceptBuffer frame buffer).lastFrameTimestamp = UInt32.ofInt buffer.pts ∧
      (acceptBuffer frame buffer).lastFrameDuration =
        UInt32.ofInt (buffer.pts - frame.lastFrameTimestamp.toNat) := by
  rw [acceptBuffer, foldl_appendNalu_lastFrameTimestamp, foldl_appendNalu_lastFrameDuration]
  cases pending : frame.pendingFrame <;> simp [openFrame, clockFrame, beginFrame, pending]

theorem openFrame_cache :
    (openFrame frame buffer).cache = frame.cache := by
  cases pending : frame.pendingFrame <;> simp [openFrame, clockFrame, beginFrame, pending]

theorem openFrame_sBufLength :
    (openFrame frame buffer).sBufLength = if frame.pendingFrame then frame.sBufLength else 0 := by
  cases pending : frame.pendingFrame <;> simp [openFrame, clockFrame, beginFrame, pending]

theorem openFrame_sBuf : (openFrame frame buffer).sBuf = frame.sBuf := by
  cases pending : frame.pendingFrame <;> simp [openFrame, clockFrame, beginFrame, pending]

theorem openFrame_read :
    (openFrame frame buffer).sBuf.read 0 (openFrame frame buffer).sBufLength =
      if frame.pendingFrame then frame.sBuf.read 0 frame.sBufLength else [] := by
  cases pending : frame.pendingFrame <;>
    simp [openFrame, clockFrame, beginFrame, pending, Memory.read, window]

@[simp] theorem openFrame_naluIndices :
    (openFrame frame buffer).naluIndices = findNaluIndices frame.naluIndices buffer.bytes := by
  cases pending : frame.pendingFrame <;>
    simp [openFrame, clockFrame, beginFrame, pending]

end Accept

theorem UnitBuffer.windows (buffer : UnitBuffer) :
    ((unitEntries 0 buffer.units).map fun index =>
      window buffer.header.data index.payloadStartOffset index.payloadSize) = buffer.payloads := by
  have whole : window buffer.header.data 0 buffer.header.length = [] ++ stream buffer.units :=
    buffer.bytes_eq
  exact unitEntries_windows [] buffer.units whole

/-- After a buffer of units, the frame is what was pending followed by the framed payloads. -/
theorem acceptBuffer_read (frame : Frame) (buffer : UnitBuffer) :
    (acceptBuffer frame buffer.header).sBuf.read 0 (acceptBuffer frame buffer.header).sBufLength =
      (if frame.pendingFrame then frame.sBuf.read 0 frame.sBufLength else []) ++
        Framing.encode buffer.payloads := by
  rw [acceptBuffer, foldl_appendNalu_read, openFrame_read, openFrame_naluIndices, buffer.bytes_eq,
    findNaluIndices_stream _ buffer.some_unit, buffer.windows]

/-- The frame holds back these payloads: `pending_frame` is set and `s_buf` frames them. -/
def Holds (frame : Frame) : Option (List (List UInt8)) → Prop
  | none => frame.pendingFrame = false
  | some payloads =>
      frame.pendingFrame = true ∧ frame.sBuf.read 0 frame.sBufLength = Framing.encode payloads

theorem frames_step {frame : Frame} {held : Option (List (List UInt8))} (buffer : UnitBuffer)
    (holds : Holds frame held) :
    Holds (frames.next frame buffer.header)
        ((assembler (List UInt8)).next held buffer.batch) ∧
      frames.emit frame buffer.header =
        ((assembler (List UInt8)).emit held buffer.batch).map Framing.encode := by
  rw [UnitBuffer.batch]
  have pendingAfter := acceptBuffer_pendingFrame frame buffer.header
  have readAfter := acceptBuffer_read frame buffer
  cases held with
  | some earlier =>
      obtain ⟨pending, read⟩ := holds
      rw [pending] at pendingAfter readAfter
      rw [if_pos rfl, read, ← Framing.encode_append] at readAfter
      refine ⟨pendingAfter, ?_⟩
      simp only [frames, pendingAfter, readAfter, assembler]
      rfl
  | none =>
      have notPending : frame.pendingFrame = false := holds
      rw [notPending] at pendingAfter readAfter
      rw [if_neg (by decide), List.nil_append] at readAfter
      cases config : buffer.header.config with
      | true =>
          rw [config] at pendingAfter
          refine ⟨⟨pendingAfter, readAfter⟩, ?_⟩
          simp only [frames, pendingAfter, assembler]
          rfl
      | false =>
          rw [config] at pendingAfter
          refine ⟨pendingAfter, ?_⟩
          simp only [frames, pendingAfter, readAfter, assembler]
          rfl

/-- The callback refines the assembler over whole runs, whatever is held back at first. -/
theorem frames_refine_held {frame : Frame} (held : Option (List (List UInt8)))
    (holds : Holds frame held) (buffers : List UnitBuffer) :
    Holds (frames.run frame (buffers.map (·.header)))
        ((assembler (List UInt8)).run held (buffers.map UnitBuffer.batch)) ∧
      frames.outputs frame (buffers.map (·.header)) =
        ((assembler (List UInt8)).outputs held (buffers.map UnitBuffer.batch)).map
          (Option.map Framing.encode) :=
  frames.simulation (assembler (List UInt8)) Holds UnitBuffer.header UnitBuffer.batch
    (Option.map Framing.encode) (fun _ _ buffer holds => frames_step buffer holds) holds buffers

theorem frames_refine_assembler {frame : Frame} (idle : frame.pendingFrame = false)
    (buffers : List UnitBuffer) :
    Holds (frames.run frame (buffers.map (·.header)))
        ((assembler (List UInt8)).run none (buffers.map UnitBuffer.batch)) ∧
      frames.outputs frame (buffers.map (·.header)) =
        ((assembler (List UInt8)).outputs none (buffers.map UnitBuffer.batch)).map
          (Option.map Framing.encode) :=
  frames_refine_held none idle buffers

end RcControl.Stream
