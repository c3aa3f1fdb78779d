import RcControl.H264.NaluIndices

namespace RcControl.H264

open RcControl.Data

/-! What the scanner reports for a buffer that carries well-formed units. -/

def unitEntries (offset : Nat) : List StreamUnit → List NaluIndex
  | [] => []
  | unit :: units =>
      ⟨offset, offset + unit.codeLength, unit.payload.length⟩ ::
        unitEntries (offset + unit.bytes.length) units

theorem codes_stream_cons (unit : StreamUnit) (units : List StreamUnit) (offset : Nat) :
    (codes (stream (unit :: units))).map (offset + ·) =
      (offset + (unit.codeLength - 3)) ::
        (codes (stream units)).map (offset + unit.bytes.length + ·) := by
  rw [stream_cons, unit.codes_append, List.map_cons, List.map_map]
  congr 2
  funext position
  simp only [Function.comp_apply, Nat.add_assoc]

/-- The entries of a stream behind bytes that do not end in zero. -/
theorem entries_stream (front : List UInt8) (units : List StreamUnit)
    (stopped : front.getLast? ≠ some 0) :
    entries (front ++ stream units) (front ++ stream units).length
      ((codes (stream units)).map (front.length + ·)) = unitEntries front.length units := by
  induction units generalizing front with
  | nil => rfl
  | cons unit units ih =>
      have three := unit.three_le_codeLength
      have stoppedNext : (front ++ unit.bytes).getLast? ≠ some 0 := by
        rw [StreamUnit.bytes, ← List.append_assoc,
          List.getLast?_append_of_ne_nil _ unit.nonempty]
        exact unit.stops
      have nextOffset : (front ++ unit.bytes).length = front.length + unit.bytes.length :=
        List.length_append
      have rest := ih (front ++ unit.bytes) stoppedNext
      rw [List.append_assoc, ← stream_cons, nextOffset] at rest
      have begins : unitStart (front ++ stream (unit :: units))
          (front.length + (unit.codeLength - 3)) = front.length := by
        rw [stream_cons]
        exact unit.unitStart_append front (stream units) stopped
      rw [codes_stream_cons, unitEntries]
      cases units with
      | nil =>
          simp only [stream_nil, codes, List.length_nil, List.range_zero, List.filter_nil,
            List.map_nil, entries, begins, unitEntries, List.cons.injEq, NaluIndex.mk.injEq,
            and_true, true_and]
          simp only [stream_cons, stream_nil, List.append_nil, nextOffset, unit.bytes_length]
          omega
      | cons next units =>
          have nextBegins : unitStart (front ++ stream (unit :: next :: units))
              (front.length + unit.bytes.length + (next.codeLength - 3)) =
              front.length + unit.bytes.length := by
            rw [stream_cons, stream_cons, ← List.append_assoc, ← nextOffset]
            exact next.unitStart_append (front ++ unit.bytes) (stream units) stoppedNext
          rw [codes_stream_cons] at rest ⊢
          rw [entries, rest, begins, nextBegins]
          simp only [List.cons.injEq, NaluIndex.mk.injEq, true_and, and_true, unit.bytes_length]
          omega

theorem length_stream_pos {units : List StreamUnit} (some_unit : units ≠ []) :
    kNaluShortStartSequenceSize ≤ (stream units).length := by
  cases units with
  | nil => exact absurd rfl some_unit
  | cons unit units =>
      have three := unit.three_le_codeLength
      rw [stream_cons, List.length_append, unit.bytes_length]
      change 3 ≤ _
      omega

/-- The scanner finds exactly the units of a stream, whatever its vector held before. -/
theorem findNaluIndices_stream (naluIndices : List NaluIndex) {units : List StreamUnit}
    (some_unit : units ≠ []) :
    findNaluIndices naluIndices (stream units) = unitEntries 0 units := by
  rw [findNaluIndices_eq_entries naluIndices (length_stream_pos some_unit)]
  simpa using entries_stream [] units (by simp)

end RcControl.H264
