import RcControl.Data.ByteStream

namespace RcControl.Data

/-! Byte streams cut in two.

A cut loses no code unless it falls between the first byte of a code and the byte
behind it: that code is then in neither part. -/

theorem codeAt_append_left {front : List UInt8} (back : List UInt8) {position : Nat}
    (code : CodeAt front position) : CodeAt (front ++ back) position := by
  obtain ⟨bound, first, second, third⟩ := code
  have longer : position + 3 < (front ++ back).length := by
    rw [List.length_append]
    omega
  rw [← List.getElem?_append_left (by omega)] at first second third
  exact ⟨longer, first, second, third⟩

theorem codeAt_append_right (front back : List UInt8) (position : Nat) :
    CodeAt (front ++ back) (front.length + position) ↔ CodeAt back position := by
  unfold CodeAt
  rw [sequenceAt_append_right front back (by omega), Nat.add_sub_cancel_left, List.length_append]
  apply and_congr_left
  intro
  omega

theorem codes_append (front back : List UInt8) :
    codes (front ++ back) =
      (List.range front.length).filter (CodeAt (front ++ back) ·) ++
        (codes back).map (front.length + ·) := by
  rw [codes, List.length_append, List.range_add, List.filter_append, List.filter_map, codes]
  congr 2
  apply List.filter_congr
  intro position _
  simp only [Function.comp_apply, codeAt_append_right]

theorem codes_append_length_le (front back : List UInt8) :
    (codes front).length + (codes back).length ≤ (codes (front ++ back)).length := by
  rw [codes_append, List.length_append, List.length_map, codes]
  apply Nat.add_le_add_right
  rw [← List.countP_eq_length_filter, ← List.countP_eq_length_filter]
  apply List.countP_mono_left
  intro position _ accepted
  exact decide_eq_true (codeAt_append_left back (of_decide_eq_true accepted))

/-- A code that begins in front of the cut is not found behind it. -/
theorem codes_length_lt {front back : List UInt8} {position : Nat}
    (code : CodeAt (front ++ back) position) (inside : position < front.length) :
    (codes back).length < (codes (front ++ back)).length := by
  have found : position ∈ (List.range front.length).filter (CodeAt (front ++ back) ·) :=
    List.mem_filter.mpr ⟨List.mem_range.mpr inside, decide_eq_true code⟩
  have some_code := List.length_pos_of_mem found
  rw [codes_append, List.length_append, List.length_map]
  omega

theorem codes_eq_singleton {bytes : List UInt8} {position : Nat}
    (only : ∀ other, CodeAt bytes other ↔ other = position) : codes bytes = [position] := by
  have inside : position ∈ List.range bytes.length := by
    have bound := ((only position).mpr rfl).1
    rw [List.mem_range]
    omega
  have same : codes bytes = (List.range bytes.length).filter (· = position) :=
    List.filter_congr fun other _ => by simp only [only]
  rw [same, List.filter_eq, List.count_eq_one_of_mem List.nodup_range inside]
  rfl

theorem codes_stream_append (units : List StreamUnit) (tail : List UInt8) :
    codes (stream units ++ tail) =
      codes (stream units) ++ (codes tail).map ((stream units).length + ·) := by
  induction units with
  | nil =>
      simp only [stream_nil, List.nil_append, List.length_nil, Nat.zero_add, List.map_id']
      rfl
  | cons unit units ih =>
      rw [stream_cons, List.append_assoc, unit.codes_append, unit.codes_append, ih,
        List.map_append, List.map_map, List.cons_append, List.length_append]
      congr 3
      funext position
      simp only [Function.comp_apply, Nat.add_assoc]

theorem codes_stream_length (units : List StreamUnit) :
    (codes (stream units)).length = units.length := by
  induction units with
  | nil => rfl
  | cons unit units ih =>
      rw [stream_cons, unit.codes_append, List.length_cons, List.length_map, ih, List.length_cons]

/-- The last code of a stream is the one of its last unit. -/
theorem codes_stream_concat (units : List StreamUnit) (unit : StreamUnit) :
    codes (stream (units ++ [unit])) =
      codes (stream units) ++ [(stream units).length + (unit.codeLength - 3)] := by
  have own : codes unit.bytes = [unit.codeLength - 3] := by
    simpa [codes] using unit.codes_append []
  rw [stream, List.flatMap_append, List.flatMap_singleton]
  change codes (stream units ++ unit.bytes) = _
  rw [codes_stream_append, own]
  rfl

/-- The first part of a stream cut in two: whole units, and a proper part of the next. -/
theorem stream_cut {piece tail : List UInt8} {units : List StreamUnit}
    (whole : piece ++ tail = stream units) :
    ∃ front back part, units = front ++ back ∧ piece = stream front ++ part ∧
      part ++ tail = stream back ∧
      (part = [] ∨ ∃ unit rest, back = unit :: rest ∧ part.length < unit.bytes.length) := by
  induction units generalizing piece with
  | nil =>
      obtain ⟨rfl, rfl⟩ := List.append_eq_nil_iff.mp whole
      exact ⟨[], [], [], rfl, rfl, rfl, .inl rfl⟩
  | cons unit units ih =>
      by_cases inside : piece.length < unit.bytes.length
      · exact ⟨[], unit :: units, piece, rfl, rfl, whole, .inr ⟨unit, units, rfl, inside⟩⟩
      · rw [stream_cons] at whole
        rcases List.append_eq_append_iff.mp whole with ⟨beyond, long, _⟩ | ⟨rest, rfl, rest_whole⟩
        · have nothing : beyond = [] := by
            have size := congrArg List.length long
            rw [List.length_append] at size
            exact List.eq_nil_of_length_eq_zero (by omega)
          subst nothing
          rw [List.append_nil] at long
          have others : [] ++ tail = stream units := by
            rw [long] at whole
            exact List.append_cancel_left whole
          obtain ⟨front, back, part, rfl, cut, rest⟩ := ih others
          have own : unit.bytes = stream (unit :: front) ++ part := by
            rw [stream_cons, List.append_assoc, ← cut, List.append_nil]
          exact ⟨unit :: front, back, part, rfl, long.symm.trans own, rest⟩
        · obtain ⟨front, back, part, rfl, rfl, rest⟩ := ih rest_whole.symm
          have own : unit.bytes ++ (stream front ++ part) = stream (unit :: front) ++ part := by
            rw [stream_cons, List.append_assoc]
          exact ⟨unit :: front, back, part, rfl, own, rest⟩

/-- The unit behind a start code of three bytes. -/
def StreamUnit.shortened (unit : StreamUnit) : StreamUnit := { unit with long := false }

theorem stream_long {unit : StreamUnit} (long : unit.long = true) (units : List StreamUnit) :
    stream (unit :: units) = 0 :: stream (unit.shortened :: units) := by
  simp [StreamUnit.bytes, StreamUnit.code, StreamUnit.shortened, long]

section Part

variable {unit : StreamUnit} {part tail rest : List UInt8}

theorem codes_part_of_le (whole : part ++ tail = unit.bytes ++ rest)
    (cut : part.length ≤ unit.codeLength) : codes part = [] := by
  apply List.eq_nil_iff_forall_not_mem.mpr
  intro position member
  have code := mem_codes.mp member
  have bound := code.1
  have three := unit.three_le_codeLength
  have size := unit.bytes_length
  have own := codeAt_append_left tail code
  rw [whole, unit.codeAt_append] at own
  omega

theorem codes_part_of_lt (whole : part ++ tail = unit.bytes ++ rest)
    (inside : part.length < unit.bytes.length) (beyond : unit.codeLength < part.length) :
    codes part = [unit.codeLength - 3] := by
  have three := unit.three_le_codeLength
  apply codes_eq_singleton
  intro position
  apply Iff.intro
  · intro code
    have bound := code.1
    have own := codeAt_append_left tail code
    rw [whole, unit.codeAt_append] at own
    omega
  · intro here
    subst here
    have own := (unit.codeAt_append rest (unit.codeLength - 3)).mpr (.inl rfl)
    rw [← whole] at own
    obtain ⟨-, first, second, third⟩ := own
    rw [List.getElem?_append_left (by omega)] at first second third
    exact ⟨by omega, first, second, third⟩

end Part

/-- Where a piece of a stream ends inside a unit, the code it ends with is not followed by
the payload of that code's unit: the payload is cut, or bytes of the next code follow it. -/
theorem stream_cut_last {piece tail : List UInt8} {units : List StreamUnit}
    (whole : piece ++ tail = stream units) (some_code : codes piece ≠ []) :
    (∃ front back, units = front ++ back ∧ front ≠ [] ∧ piece = stream front ∧
        tail = stream back) ∨
      ∃ positions position, codes piece = positions ++ [position] ∧
        ∀ unit, units[positions.length]? = some unit →
          piece.length - (position + 3) ≠ unit.payload.length := by
  obtain ⟨front, back, part, rfl, rfl, rest, ending⟩ := stream_cut whole
  by_cases empty : part = []
  · subst empty
    have some_unit : front ≠ [] := by
      intro none
      rw [none] at some_code
      exact some_code rfl
    exact .inl ⟨front, back, rfl, some_unit, List.append_nil _, rest⟩
  · obtain ⟨unit, units, rfl, inside⟩ := ending.resolve_left empty
    rw [stream_cons] at rest
    have three := unit.three_le_codeLength
    have size := unit.bytes_length
    have some_byte := List.length_pos_iff.mpr empty
    by_cases cut : part.length ≤ unit.codeLength
    · -- The piece ends inside a start code, so its last unit is the one before.
      have noCode := codes_part_of_le rest cut
      rw [codes_stream_append, noCode, List.map_nil, List.append_nil] at some_code ⊢
      rcases List.eq_nil_or_concat front with rfl | ⟨front, last, rfl⟩
      · exact absurd rfl some_code
      · right
        rw [List.concat_eq_append, codes_stream_concat] at *
        use codes (stream front), (stream front).length + (last.codeLength - 3), rfl
        intro found here
        rw [codes_stream_length, List.append_assoc, List.getElem?_append_right (Nat.le_refl _),
          Nat.sub_self] at here
        obtain rfl : last = found := by simpa using here
        have lastThree := last.three_le_codeLength
        rw [stream, List.flatMap_append, List.flatMap_singleton, List.length_append,
          List.length_append, last.bytes_length]
        change (stream front).length + _ + _ - _ ≠ _
        omega
    · right
      have ends : codes (stream front ++ part) =
          codes (stream front) ++ [(stream front).length + (unit.codeLength - 3)] := by
        rw [codes_stream_append, codes_part_of_lt rest inside (by omega)]
        rfl
      use codes (stream front), (stream front).length + (unit.codeLength - 3), ends
      intro found here
      rw [codes_stream_length, List.getElem?_append_right (Nat.le_refl _), Nat.sub_self] at here
      obtain rfl : unit = found := by simpa using here
      rw [List.length_append]
      omega

end RcControl.Data
