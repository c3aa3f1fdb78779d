import RcControl.H264.CallHistory
import RcControl.Stream.UnitBuffers

namespace RcControl.Stream

open RcControl.Data RcControl.H264

/-! Which buffers a sample is made of.

This is about buffers of any content.  The units of a buffer are the ones the scanner
reports in its call, and the callback only decides which calls share a sample. -/

/-- The payloads a call appends to the frame. -/
def appended (naluIndices : List NaluIndex) (buffer : MmalBufferHeader) : List (List UInt8) :=
  (findNaluIndices naluIndices buffer.bytes).map fun index =>
    window buffer.data index.payloadStartOffset index.payloadSize

/-- The calls of a run as batches: the CONFIG flag of each buffer and its payloads. -/
def batches (naluIndices : List NaluIndex) :
    List MmalBufferHeader → List (Bool × List (List UInt8))
  | [] => []
  | buffer :: buffers =>
      (buffer.config, appended naluIndices buffer) ::
        batches (findNaluIndices naluIndices buffer.bytes) buffers

/-- The payloads of the CONFIG buffers a run ends with, as many as there are in a row,
and of the buffer that follows the run. -/
def accessUnit (naluIndices : List NaluIndex) (front : List MmalBufferHeader)
    (buffer : MmalBufferHeader) : List (List UInt8) :=
  ((batches naluIndices front).rtakeWhile (·.1)).flatMap (·.2) ++
    appended (scanner.run naluIndices (front.map (·.bytes))) buffer

/-- Each sample is one access unit, and what completes it is no CONFIG buffer. -/
def GroupsAccessUnits (frame : Frame) (buffers : List MmalBufferHeader) : Prop :=
  ∀ front buffer back, buffers = front ++ buffer :: back →
    ∀ sample, frames.emit (frames.run frame front) buffer = some sample →
      buffer.config = false ∧
        sample = Framing.encode (accessUnit frame.naluIndices front buffer)

def NoConfigRun (buffers : List MmalBufferHeader) : Prop :=
  buffers.IsChain fun first second => ¬ (first.config = true ∧ second.config = true)

section Run

variable (frame : Frame)

theorem batches_append (naluIndices : List NaluIndex) (front back : List MmalBufferHeader) :
    batches naluIndices (front ++ back) =
      batches naluIndices front ++
        batches (scanner.run naluIndices (front.map (·.bytes))) back := by
  induction front generalizing naluIndices with
  | nil => rfl
  | cons buffer front ih =>
      rw [List.cons_append, batches, ih]
      rfl

theorem frames_run_naluIndices (buffers : List MmalBufferHeader) :
    (frames.run frame buffers).naluIndices =
      scanner.run frame.naluIndices (buffers.map (·.bytes)) := by
  induction buffers generalizing frame with
  | nil => rfl
  | cons buffer buffers ih =>
      rw [Machine.run_cons, ih, List.map_cons, Machine.run_cons]
      congr 1
      change (acceptBuffer frame buffer).naluIndices = _
      rw [acceptBuffer, foldl_appendNalu_naluIndices, openFrame_naluIndices]
      rfl

theorem configRun_eq_nil (naluIndices : List NaluIndex) {front : List MmalBufferHeader}
    (ended : front.getLast?.any (·.config) = false) :
    (batches naluIndices front).rtakeWhile (·.1) = [] := by
  rcases List.eq_nil_or_concat front with rfl | ⟨front, last, rfl⟩
  · rfl
  · rw [List.concat_eq_append] at ended ⊢
    rw [List.getLast?_concat, Option.any_some] at ended
    rw [batches_append]
    exact List.rtakeWhile_concat_neg _ _ _ (by simp [ended])

/-- After a buffer, the frame is what was pending followed by what the call appended. -/
theorem acceptBuffer_read_appended (buffer : MmalBufferHeader) :
    (acceptBuffer frame buffer).sBuf.read 0 (acceptBuffer frame buffer).sBufLength =
      (if frame.pendingFrame then frame.sBuf.read 0 frame.sBufLength else []) ++
        Framing.encode (appended frame.naluIndices buffer) := by
  rw [acceptBuffer, foldl_appendNalu_read, openFrame_read, openFrame_naluIndices]
  rfl

theorem frames_emit_eq (buffer : MmalBufferHeader) :
    frames.emit frame buffer =
      if frame.pendingFrame = false ∧ buffer.config = true then none
      else some ((if frame.pendingFrame then frame.sBuf.read 0 frame.sBufLength else []) ++
        Framing.encode (appended frame.naluIndices buffer)) := by
  simp only [frames, acceptBuffer_read_appended, acceptBuffer_pendingFrame]
  cases frame.pendingFrame <;> cases buffer.config <;> rfl

end Run

/-- In a run without two CONFIG buffers in a row, a buffer is held back exactly when it
is the last one and carries the flag; the frame then holds that buffer alone. -/
theorem frames_run_pending (frame : Frame) (idle : frame.pendingFrame = false)
    {buffers : List MmalBufferHeader} (noRun : NoConfigRun buffers) :
    (frames.run frame buffers).pendingFrame = (buffers.getLast?.any (·.config)) ∧
      ((frames.run frame buffers).pendingFrame = true →
        (frames.run frame buffers).sBuf.read 0 (frames.run frame buffers).sBufLength =
          Framing.encode (((batches frame.naluIndices buffers).rtakeWhile (·.1)).flatMap (·.2))) := by
  induction buffers using List.reverseRecOn with
  | nil => simp [Machine.run, idle]
  | append_singleton front buffer ih =>
      obtain ⟨pendingFront, -⟩ := ih (List.isChain_append.mp noRun).1
      rw [Machine.run_concat]
      change (acceptBuffer _ buffer).pendingFrame = _ ∧
        ((acceptBuffer _ buffer).pendingFrame = true → (acceptBuffer _ buffer).sBuf.read 0
          (acceptBuffer _ buffer).sBufLength = _)
      rw [acceptBuffer_pendingFrame, acceptBuffer_read_appended, pendingFront,
        List.getLast?_concat, Option.any_some, batches_append, frames_run_naluIndices]
      cases config : buffer.config with
      | false => simp
      | true =>
          -- The buffer before this one cannot carry the flag as well.
          have lone : front.getLast?.any (·.config) = false := by
            cases last : front.getLast? with
            | none => rfl
            | some before =>
                have apart := (List.isChain_append.mp noRun).2.2 before last buffer rfl
                simpa [config] using apart
          rw [lone]
          refine ⟨rfl, fun _ => ?_⟩
          have own : batches (scanner.run frame.naluIndices (front.map (·.bytes))) [buffer] =
              [(true, appended (scanner.run frame.naluIndices (front.map (·.bytes))) buffer)] := by
            rw [batches, batches, config]
          rw [own, List.rtakeWhile_concat_pos _ _ _ rfl, configRun_eq_nil _ lone]
          simp

/-- Over any buffers from process start, every sample is one access unit exactly when
no CONFIG buffer directly follows another. -/
theorem groups_access_units_iff (cells : Nat → UInt8) (buffers : List MmalBufferHeader) :
    GroupsAccessUnits (Frame.initial cells) buffers ↔ NoConfigRun buffers := by
  apply Iff.intro
  · intro groups
    refine List.isChain_iff_forall_rel_of_append_cons_cons.mpr ?_
    intro first second front back split both
    obtain ⟨firstConfig, secondConfig⟩ := both
    -- Either the first of the two completes a sample, or it is pending and the second does.
    cases pending : (frames.run (Frame.initial cells) front).pendingFrame with
    | true =>
        have completed := groups front first (second :: back) split _ (by
          rw [frames_emit_eq, pending, if_neg (by simp)])
        rw [firstConfig] at completed
        cases completed.1
    | false =>
        have held : (frames.run (Frame.initial cells) (front ++ [first])).pendingFrame = true := by
          rw [Machine.run_concat]
          change (acceptBuffer _ first).pendingFrame = true
          rw [acceptBuffer_pendingFrame, pending, firstConfig]
          rfl
        have completed := groups (front ++ [first]) second back (by rw [split, List.append_cons]) _ (by
          rw [frames_emit_eq, held, if_neg (by simp)])
        rw [secondConfig] at completed
        cases completed.1
  · intro noRun front buffer back split sample emitted
    have noRunFront : NoConfigRun (front ++ [buffer]) := by
      rw [split, List.append_cons] at noRun
      exact (List.isChain_append.mp noRun).1
    obtain ⟨noRunBefore, -, apart⟩ := List.isChain_append.mp noRunFront
    obtain ⟨pending, read⟩ := frames_run_pending (Frame.initial cells) rfl noRunBefore
    rw [frames_emit_eq, frames_run_naluIndices] at emitted
    cases ended : front.getLast?.any (·.config) with
    | true =>
        obtain ⟨last, found, lastConfig⟩ := Option.any_eq_true _ _ |>.mp ended
        have notConfig : buffer.config = false := by
          simpa [lastConfig] using apart last found buffer rfl
        rw [ended] at pending
        rw [pending, if_neg (by simp), if_pos rfl, read pending, ← Framing.encode_append] at emitted
        exact ⟨notConfig, (Option.some.inj emitted).symm⟩
    | false =>
        rw [ended] at pending
        rw [pending] at emitted
        cases config : buffer.config with
        | true => simp [config] at emitted
        | false =>
            rw [config, if_neg (by simp), if_neg (by simp), List.nil_append] at emitted
            refine ⟨rfl, ?_⟩
            rw [accessUnit, configRun_eq_nil _ ended]
            exact (Option.some.inj emitted).symm

/-- An SPS and a PPS in buffers of their own: the PPS completes a sample without a frame. -/
theorem not_groups_access_units :
    ¬ ∀ (cells : Nat → UInt8) (buffers : List MmalBufferHeader),
      GroupsAccessUnits (Frame.initial cells) buffers := by
  intro groups
  let sps : MmalBufferHeader := .holding [0, 0, 0, 1, 0x67, 0x42] mmalBufferHeaderFlagConfig mmalTimeUnknown
  let pps : MmalBufferHeader := .holding [0, 0, 0, 1, 0x68, 0xCE] mmalBufferHeaderFlagConfig mmalTimeUnknown
  have sends : (frames.emit (frames.run (Frame.initial fun _ => 0) [sps]) pps).isSome := by
    decide +kernel
  obtain ⟨sample, emitted⟩ := Option.isSome_iff_exists.mp sends
  have completed := (groups (fun _ => 0) [sps, pps] [sps] pps [] rfl sample emitted).1
  exact absurd completed (by decide)

end RcControl.Stream
