import RcControl.H264.PlainScan
import RcControl.Stream.UnitBuffers

namespace RcControl.Stream

open RcControl.Data RcControl.H264

/-! Which records of a frame are real units.

A buffer may hold anything.  Where two start codes touch, the unit between them is empty,
and the byte its type is read from has not been written.  A start code at the very end is
no start code to the scanner: it stays in the payload before it. -/

/-- `type` in the loop over the units, read behind the length that was just written. -/
def unitType (data : Nat → UInt8) (frame : Frame) (index : NaluIndex) : UInt8 :=
  parseNaluType ((appendNalu data frame index).sBuf.cells (frame.sBufLength + 4))

/-- The payload and the type of each record the loop appends. -/
def records (data : Nat → UInt8) (frame : Frame) : List NaluIndex → List (List UInt8 × UInt8)
  | [] => []
  | index :: rest =>
      (window data index.payloadStartOffset index.payloadSize, unitType data frame index) ::
        records data (appendNalu data frame index) rest

structure RealUnit (payload : List UInt8) (type : UInt8) : Prop where
  nonempty : 1 ≤ payload.length
  clean : ∀ position, ¬ SequenceAt payload position
  typed : payload.head?.map parseNaluType = some type

/-- Every record of the buffer is a real unit. -/
def RealUnits (frame : Frame) (buffer : MmalBufferHeader) : Prop :=
  ∀ record ∈ records buffer.data (openFrame frame buffer) (openFrame frame buffer).naluIndices,
    RealUnit record.1 record.2

/-- No unit begins where the start code of another ends, and where there is a start code,
the bytes do not end in `00 00 01`. -/
structure Separated (bytes : List UInt8) : Prop where
  untouched : ∀ first second, CodeAt bytes first → CodeAt bytes second →
    unitStart bytes second ≠ first + 3
  finished : ∀ position, CodeAt bytes position → ¬ SequenceAt bytes (bytes.length - 3)

/-- No entry's payload is empty or holds a `00 00 01`. -/
def RealEntries (data : Nat → UInt8) (found : List NaluIndex) : Prop :=
  ∀ index ∈ found, 0 < index.payloadSize ∧
    ∀ position, ¬ SequenceAt (window data index.payloadStartOffset index.payloadSize) position

section Record

variable (data : Nat → UInt8) (frame : Frame) {index : NaluIndex}

/-- The type of a unit with at least one byte comes from its first byte. -/
theorem unitType_eq (some_byte : 0 < index.payloadSize) :
    unitType data frame index = parseNaluType (data index.payloadStartOffset) := by
  have size : (sizeBytes index.payloadSize).length = 4 := by
    rw [sizeBytes_eq, Framing.lengthBytes_length]
  have bound : 0 < (window data index.payloadStartOffset index.payloadSize).length := by
    rwa [window_length]
  have copied : (frame.sBuf.write (frame.sBufLength + 4)
      (window data index.payloadStartOffset index.payloadSize)).cells (frame.sBufLength + 4 + 0) =
        (window data index.payloadStartOffset index.payloadSize)[0] :=
    frame.sBuf.write_cells_inside bound
  have first : (window data index.payloadStartOffset index.payloadSize)[0] =
      data index.payloadStartOffset := by
    simp [window]
  simp only [unitType, appendNalu]
  rw [Memory.write_cells_of_ge _ (by rw [size]), ← Nat.add_zero (frame.sBufLength + 4), copied, first]

/-- The type of an empty unit comes from whatever `s_buf` held behind the length. -/
theorem unitType_of_empty (empty : index.payloadSize = 0) :
    unitType data frame index = parseNaluType (frame.sBuf.cells (frame.sBufLength + 4)) := by
  have size : (sizeBytes index.payloadSize).length = 4 := by
    rw [sizeBytes_eq, Framing.lengthBytes_length]
  simp only [unitType, appendNalu]
  rw [Memory.write_cells_of_ge _ (by rw [size]), empty, Memory.write_cells_of_ge _ (by simp)]

theorem realUnit_iff :
    RealUnit (window data index.payloadStartOffset index.payloadSize) (unitType data frame index) ↔
      0 < index.payloadSize ∧
        ∀ position, ¬ SequenceAt (window data index.payloadStartOffset index.payloadSize) position := by
  apply Iff.intro
  · intro real
    have nonempty := real.nonempty
    rw [window_length] at nonempty
    exact ⟨nonempty, real.clean⟩
  · intro both
    obtain ⟨some_byte, clean⟩ := both
    obtain ⟨count, size⟩ := Nat.exists_eq_add_of_le' some_byte
    have header : (window data index.payloadStartOffset index.payloadSize).head? =
        some (data index.payloadStartOffset) := by
      rw [size, window, List.range_succ_eq_map]
      rfl
    have typed : (window data index.payloadStartOffset index.payloadSize).head?.map parseNaluType =
        some (unitType data frame index) := by
      rw [header, unitType_eq data frame some_byte]
      rfl
    exact ⟨by rwa [window_length], clean, typed⟩

theorem forall_records_iff (indices : List NaluIndex) :
    (∀ record ∈ records data frame indices, RealUnit record.1 record.2) ↔
      RealEntries data indices := by
  induction indices generalizing frame with
  | nil => simp [records, RealEntries]
  | cons index rest ih =>
      rw [records, List.forall_mem_cons, realUnit_iff, ih, RealEntries, RealEntries,
        List.forall_mem_cons]

end Record

section Window

variable (cells : Nat → UInt8) (address count size : Nat)

theorem window_getElem? (index : Nat) :
    (window cells address count)[index]? =
      if index < count then some (cells (address + index)) else none := by
  split
  · rename_i below
    rw [List.getElem?_eq_getElem (by rwa [window_length])]
    simp [window]
  · rename_i beyond
    rw [List.getElem?_eq_none (by rw [window_length]; omega)]

theorem sequenceAt_window_iff (position : Nat) :
    SequenceAt (window cells address count) position ↔ position + 3 ≤ count ∧
      cells (address + position) = 0 ∧ cells (address + (position + 1)) = 0 ∧
        cells (address + (position + 2)) = 1 := by
  simp only [SequenceAt, window_getElem?]
  by_cases below : position + 3 ≤ count
  · simp only [if_pos (show position < count by omega), if_pos (show position + 1 < count by omega),
      if_pos (show position + 2 < count by omega), Option.some.injEq, below, true_and]
  · simp [below, show ¬ position + 2 < count by omega]

/-- What is found inside a part of the bytes is found there in the whole. -/
theorem sequenceAt_part_iff (inside : address + count ≤ size) (position : Nat) :
    SequenceAt (window cells address count) position ↔
      position + 3 ≤ count ∧ SequenceAt (window cells 0 size) (address + position) := by
  simp only [sequenceAt_window_iff, Nat.zero_add, Nat.add_assoc]
  apply Iff.intro
  · intro found
    exact ⟨found.1, by omega, found.2⟩
  · intro found
    exact ⟨found.1, found.2.2⟩

end Window

section Found

variable {data : Nat → UInt8} {size : Nat} {found : List NaluIndex}

/-- A `00 00 01` behind an entry's start, and before its end, is in its payload. -/
theorem RealEntries.no_sequence (real : RealEntries data found) {index : NaluIndex}
    (member : index ∈ found) (inside : index.payloadStartOffset + index.payloadSize ≤ size)
    {position : Nat} (behind : index.payloadStartOffset ≤ position)
    (before : position + 3 ≤ index.payloadStartOffset + index.payloadSize) :
    ¬ SequenceAt (window data 0 size) position := by
  intro sequence
  apply (real index member).2 (position - index.payloadStartOffset)
  rw [sequenceAt_part_iff _ _ _ _ inside]
  refine ⟨by omega, ?_⟩
  rwa [Nat.add_sub_cancel' behind]

theorem RealEntries.untouched (scanned : PlainScan (window data 0 size) found)
    (real : RealEntries data found) {first second : Nat}
    (firstCode : CodeAt (window data 0 size) first) (secondCode : CodeAt (window data 0 size) second) :
    unitStart (window data 0 size) second ≠ first + 3 := by
  intro touching
  have second_lower := unitStart_le (window data 0 size) second
  obtain ⟨index, member, opens⟩ := scanned.complete first firstCode
  obtain ⟨other, otherMember, otherOpens⟩ := scanned.complete second secondCode
  have some_byte := (real index member).1
  rcases scanned.follower member with ⟨_, greatest⟩ | ⟨next, nextMember, ends, between⟩
  · have above := greatest other otherMember
    omega
  · obtain ⟨position, code, nextOpens, starts⟩ := scanned.sound next nextMember
    change next.startOffset = unitStart (window data 0 size) position at starts
    have next_lower := unitStart_le (window data 0 size) position
    have side := between other otherMember
    rcases Nat.lt_trichotomy position second with before | rfl | after
    · -- The entry would end before the code whose unit it touches.
      have apart := le_unitStart code secondCode before
      omega
    · omega
    · omega

theorem RealEntries.finished (scanned : PlainScan (window data 0 size) found)
    (real : RealEntries data found) {position : Nat} (code : CodeAt (window data 0 size) position) :
    ¬ SequenceAt (window data 0 size) ((window data 0 size).length - 3) := by
  obtain ⟨some_index, someMember, _⟩ := scanned.complete position code
  have last := List.getLast?_eq_some_getLast (List.ne_nil_of_mem someMember)
  have member := List.getLast_mem (List.ne_nil_of_mem someMember)
  have ends := scanned.ends _ last
  obtain ⟨opening, openingCode, opens, _⟩ := scanned.sound _ member
  have room := openingCode.1
  intro sequence
  -- The last code and the `00 00 01` at the end do not overlap.
  have apart : opening + 3 ≤ (window data 0 size).length - 3 := by
    have one := openingCode.2.2.2
    by_contra close
    rcases (by omega : opening + 2 = (window data 0 size).length - 3 ∨
        opening + 2 = (window data 0 size).length - 3 + 1) with here | here
    · rw [here, sequence.1] at one
      exact absurd one (by decide)
    · rw [here, sequence.2.1] at one
      exact absurd one (by decide)
  have whole := window_length data 0 size
  exact real.no_sequence member (by omega) (by omega) (by omega) sequence

theorem realEntries_of_separated (scanned : PlainScan (window data 0 size) found)
    (separated : Separated (window data 0 size)) : RealEntries data found := by
  intro index member
  obtain ⟨position, code, opens, _⟩ := scanned.sound index member
  have whole := window_length data 0 size
  have room := code.1
  rcases scanned.follower member with ⟨ends, greatest⟩ | ⟨next, nextMember, ends, between⟩
  · refine ⟨by omega, ?_⟩
    intro offset sequence
    rw [sequenceAt_part_iff _ _ _ _ (by omega : _ ≤ size)] at sequence
    obtain ⟨within, sequence⟩ := sequence
    by_cases follows : index.payloadStartOffset + offset + 3 < (window data 0 size).length
    · obtain ⟨other, otherMember, otherOpens⟩ := scanned.complete _ ⟨follows, sequence⟩
      have above := greatest other otherMember
      omega
    · apply separated.finished position code
      rwa [show (window data 0 size).length - 3 = index.payloadStartOffset + offset by omega]
  · obtain ⟨following, followingCode, nextOpens, starts⟩ := scanned.sound next nextMember
    change next.startOffset = unitStart (window data 0 size) following at starts
    have apartUnits := separated.untouched position following code followingCode
    have lower := unitStart_le (window data 0 size) following
    have nextRoom := followingCode.1
    have ordered : position < following := by omega
    have apart := le_unitStart code followingCode ordered
    refine ⟨by omega, ?_⟩
    intro offset sequence
    rw [sequenceAt_part_iff _ _ _ _ (by omega : _ ≤ size)] at sequence
    obtain ⟨within, sequence⟩ := sequence
    obtain ⟨other, otherMember, otherOpens⟩ := scanned.complete _ ⟨by omega, sequence⟩
    have side := between other otherMember
    omega

theorem realEntries_iff (scanned : PlainScan (window data 0 size) found) :
    RealEntries data found ↔ Separated (window data 0 size) := by
  apply Iff.intro
  · intro real
    exact ⟨fun _ _ firstCode secondCode => real.untouched scanned firstCode secondCode,
      fun _ code => real.finished scanned code⟩
  · exact realEntries_of_separated scanned

end Found

theorem realUnits_iff_realEntries (frame : Frame) {buffer : MmalBufferHeader}
    (enough : kNaluShortStartSequenceSize ≤ buffer.bytes.length) :
    RealUnits frame buffer ↔
      RealEntries buffer.data (entries buffer.bytes buffer.bytes.length (codes buffer.bytes)) := by
  rw [RealUnits, forall_records_iff, openFrame_naluIndices, findNaluIndices_eq_entries _ enough]

/-- All records of a buffer are real units if and only if its start codes do not touch and
its last three bytes are not `00 00 01`. -/
theorem realUnits_iff_separated (frame : Frame) {buffer : MmalBufferHeader}
    (enough : kNaluShortStartSequenceSize ≤ buffer.bytes.length) :
    RealUnits frame buffer ↔ Separated buffer.bytes := by
  rw [realUnits_iff_realEntries frame enough]
  exact realEntries_iff (entries_plainScan buffer.bytes)

theorem realUnits_iff_separated_ending :
    RealUnits (.initial fun _ => 0) (.holding [0, 0, 1, 0x65, 0, 0, 1] 0 0) ↔
      Separated (MmalBufferHeader.holding [0, 0, 1, 0x65, 0, 0, 1] 0 0).bytes :=
  realUnits_iff_separated (.initial fun _ => 0) (by decide)

/-- Of two start codes that touch, the first one opens an empty unit. -/
theorem not_all_realUnits :
    ¬ ∀ (frame : Frame) (buffer : MmalBufferHeader),
      kNaluShortStartSequenceSize ≤ buffer.bytes.length → RealUnits frame buffer := by
  intro all
  have real := all (.initial fun _ => 0) (.holding [0, 0, 1, 0, 0, 1, 0x65] 0 0) (by decide)
  rw [realUnits_iff_realEntries _ (by decide)] at real
  have some_byte := (real ⟨0, 3, 0⟩ (by decide)).1
  exact absurd some_byte (by decide)

end RcControl.Stream
