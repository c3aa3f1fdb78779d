import Mathlib

namespace RcControl.Data

/-! Byte streams of units separated by start codes (the Annex B layout).

A unit is preceded by `00 00 01` or `00 00 00 01`.  Its payload ends in a nonzero
byte and contains no `00 00 01`, which is what lets a reader find the codes again.
-/

def SequenceAt (bytes : List UInt8) (position : Nat) : Prop :=
  bytes[position]? = some 0 ∧ bytes[position + 1]? = some 0 ∧ bytes[position + 2]? = some 1

instance (bytes : List UInt8) : DecidablePred (SequenceAt bytes) :=
  fun _ => inferInstanceAs (Decidable (_ ∧ _ ∧ _))

/-- A start code is a `00 00 01` with at least one byte after it. -/
def CodeAt (bytes : List UInt8) (position : Nat) : Prop :=
  position + 3 < bytes.length ∧ SequenceAt bytes position

instance (bytes : List UInt8) : DecidablePred (CodeAt bytes) :=
  fun _ => inferInstanceAs (Decidable (_ ∧ _))

def codes (bytes : List UInt8) : List Nat :=
  (List.range bytes.length).filter (CodeAt bytes ·)

/-- Where the unit whose code is at `position` begins: a zero byte in front of the
code makes it a four-byte one. -/
def unitStart (bytes : List UInt8) (position : Nat) : Nat :=
  if 0 < position ∧ bytes[position - 1]? = some 0 then position - 1 else position

def codesFrom (bytes : List UInt8) (start : Nat) : List Nat :=
  (List.range' start (bytes.length - start)).filter (CodeAt bytes ·)

theorem codesFrom_zero (bytes : List UInt8) : codesFrom bytes 0 = codes bytes := by
  rw [codesFrom, codes, List.range_eq_range', Nat.sub_zero]

theorem codesFrom_of_le {bytes : List UInt8} {start : Nat} (ended : bytes.length ≤ start + 3) :
    codesFrom bytes start = [] := by
  apply List.filter_eq_nil_iff.mpr
  intro position member accepted
  have later := (List.mem_range'_1.mp member).1
  have room := (of_decide_eq_true accepted).1
  omega

theorem codesFrom_step {bytes : List UInt8} {start : Nat} (bound : start < bytes.length) :
    codesFrom bytes start = if CodeAt bytes start then start :: codesFrom bytes (start + 1)
      else codesFrom bytes (start + 1) := by
  obtain ⟨count, size⟩ : ∃ count, bytes.length - start = count + 1 :=
    ⟨bytes.length - start - 1, by omega⟩
  rw [codesFrom, size, List.range'_succ, codesFrom,
    show bytes.length - (start + 1) = count by omega]
  simp only [List.filter_cons, decide_eq_true_eq]

theorem codesFrom_skip {bytes : List UInt8} {start : Nat} (bound : start + 3 < bytes.length)
    (nonzero : bytes[start + 2]? ≠ some 0) :
    codesFrom bytes start = if CodeAt bytes start then start :: codesFrom bytes (start + 3)
      else codesFrom bytes (start + 3) := by
  have notNext : ¬ CodeAt bytes (start + 1) := fun code => nonzero code.2.2.1
  have notSecond : ¬ CodeAt bytes (start + 2) := fun code => nonzero code.2.1
  rw [codesFrom_step (show start < bytes.length by omega),
    codesFrom_step (show start + 1 < bytes.length by omega),
    codesFrom_step (show start + 1 + 1 < bytes.length by omega), if_neg notNext, if_neg notSecond]

theorem mem_codes {bytes : List UInt8} {position : Nat} :
    position ∈ codes bytes ↔ CodeAt bytes position := by
  simp only [codes, List.mem_filter, List.mem_range, decide_eq_true_eq, and_iff_right_iff_imp]
  intro code
  have bound := code.1
  omega

theorem unitStart_le (bytes : List UInt8) (position : Nat) :
    unitStart bytes position ≤ position := by
  unfold unitStart
  split <;> omega

/-- Two start codes do not overlap, and not even the zero byte of a four-byte code
reaches into the code before it. -/
theorem le_unitStart {bytes : List UInt8} {first second : Nat}
    (firstCode : CodeAt bytes first) (secondCode : CodeAt bytes second)
    (ordered : first < second) : first + 3 ≤ unitStart bytes second := by
  obtain ⟨_, _, firstOne, firstTwo⟩ := firstCode
  obtain ⟨_, secondZero, secondOne, _⟩ := secondCode
  have apart : first + 3 ≤ second := by
    by_contra close
    rcases (by omega : second = first + 1 ∨ second = first + 2) with rfl | rfl
    · rw [show first + 1 + 1 = first + 2 from rfl, firstTwo] at secondOne
      exact absurd secondOne (by decide)
    · rw [firstTwo] at secondZero
      exact absurd secondZero (by decide)
  unfold unitStart
  split
  · rename_i long
    -- A zero byte right before the second code cannot be the `01` of the first one.
    have notAdjacent : second ≠ first + 3 := by
      intro adjacent
      subst adjacent
      rw [show first + 3 - 1 = first + 2 from rfl, firstTwo] at long
      exact absurd long.2 (by decide)
    omega
  · exact apart

structure StreamUnit where
  long : Bool
  payload : List UInt8
  nonempty : payload ≠ []
  stops : payload.getLast? ≠ some 0
  clean : ∀ position, ¬ SequenceAt payload position

namespace StreamUnit

def code (unit : StreamUnit) : List UInt8 := if unit.long then [0, 0, 0, 1] else [0, 0, 1]

def codeLength (unit : StreamUnit) : Nat := if unit.long then 4 else 3

def bytes (unit : StreamUnit) : List UInt8 := unit.code ++ unit.payload

@[simp] theorem code_length (unit : StreamUnit) : unit.code.length = unit.codeLength := by
  unfold code codeLength
  split <;> rfl

@[simp] theorem bytes_length (unit : StreamUnit) :
    unit.bytes.length = unit.codeLength + unit.payload.length := by
  simp [bytes]

theorem three_le_codeLength (unit : StreamUnit) : 3 ≤ unit.codeLength := by
  unfold codeLength
  split <;> omega

theorem payload_pos (unit : StreamUnit) : 0 < unit.payload.length :=
  List.length_pos_iff.mpr unit.nonempty

end StreamUnit

def StreamUnit.plain (long : Bool) (payload : List UInt8) (nonempty : payload ≠ [])
    (stops : payload.getLast? ≠ some 0) (no_one : 1 ∉ payload) : StreamUnit where
  long := long
  payload := payload
  nonempty := nonempty
  stops := stops
  clean _ found := no_one (List.mem_of_getElem? found.2.2)

def stream (units : List StreamUnit) : List UInt8 := units.flatMap StreamUnit.bytes

@[simp] theorem stream_nil : stream [] = [] := rfl

@[simp] theorem stream_cons (unit : StreamUnit) (units : List StreamUnit) :
    stream (unit :: units) = unit.bytes ++ stream units := rfl

theorem sequenceAt_append_right (front back : List UInt8) {position : Nat}
    (beyond : front.length ≤ position) :
    SequenceAt (front ++ back) position ↔ SequenceAt back (position - front.length) := by
  unfold SequenceAt
  rw [List.getElem?_append_right beyond, List.getElem?_append_right (by omega),
    List.getElem?_append_right (by omega), Nat.sub_add_comm beyond, Nat.sub_add_comm beyond]

theorem StreamUnit.getElem?_code (unit : StreamUnit) (rest : List UInt8) {index : Nat}
    (bound : index < unit.codeLength) : (unit.bytes ++ rest)[index]? = unit.code[index]? := by
  rw [StreamUnit.bytes, List.append_assoc,
    List.getElem?_append_left (by simpa using bound)]

theorem StreamUnit.getElem?_payload (unit : StreamUnit) (rest : List UInt8) {index : Nat}
    (bound : index < unit.payload.length) :
    (unit.bytes ++ rest)[unit.codeLength + index]? = unit.payload[index]? := by
  rw [StreamUnit.bytes, List.append_assoc, List.getElem?_append_right (by simp),
    unit.code_length, Nat.add_sub_cancel_left, List.getElem?_append_left bound]

theorem StreamUnit.last_ne_zero (unit : StreamUnit) :
    unit.payload[unit.payload.length - 1]? ≠ some 0 := by
  rw [← List.getLast?_eq_getElem?]
  exact unit.stops

theorem StreamUnit.code_getElem? (unit : StreamUnit) {index : Nat}
    (bound : index < unit.codeLength) :
    unit.code[index]? = some (if index + 1 = unit.codeLength then 1 else 0) := by
  unfold codeLength at bound ⊢
  unfold code
  cases long : unit.long with
  | true =>
      have below : index < 4 := by simpa [long] using bound
      interval_cases index <;> rfl
  | false =>
      have below : index < 3 := by simpa [long] using bound
      interval_cases index <;> rfl

theorem StreamUnit.sequenceAt_code (unit : StreamUnit) (rest : List UInt8) :
    SequenceAt (unit.bytes ++ rest) (unit.codeLength - 3) := by
  have three := unit.three_le_codeLength
  refine ⟨?_, ?_, ?_⟩
  · rw [unit.getElem?_code rest (by omega), unit.code_getElem? (by omega), if_neg (by omega)]
  · rw [unit.getElem?_code rest (by omega), unit.code_getElem? (by omega), if_neg (by omega)]
  · rw [unit.getElem?_code rest (by omega), unit.code_getElem? (by omega), if_pos (by omega)]

/-- Inside a unit the only `00 00 01` is the one of its own start code. -/
theorem StreamUnit.sequenceAt_inside (unit : StreamUnit) (rest : List UInt8) {position : Nat}
    (inside : position < unit.bytes.length) :
    SequenceAt (unit.bytes ++ rest) position ↔ position = unit.codeLength - 3 := by
  refine ⟨fun found => ?_, fun here => here ▸ unit.sequenceAt_code rest⟩
  obtain ⟨zero, one, two⟩ := found
  by_cases inCode : position < unit.codeLength
  · -- The two zeros are not the final byte of the code, so the `01` after them is.
    have notLast : position + 1 ≠ unit.codeLength := by
      intro last
      rw [unit.getElem?_code rest inCode, unit.code_getElem? inCode, if_pos last] at zero
      exact absurd zero (by decide)
    have notNext : position + 2 ≠ unit.codeLength := by
      intro last
      rw [unit.getElem?_code rest (by omega), unit.code_getElem? (by omega), if_pos last] at one
      exact absurd one (by decide)
    by_contra elsewhere
    rw [unit.getElem?_code rest (by omega), unit.code_getElem? (by omega),
      if_neg (by omega)] at two
    exact absurd two (by decide)
  · exfalso
    rw [unit.bytes_length] at inside
    obtain ⟨index, rfl⟩ : ∃ index, position = unit.codeLength + index :=
      ⟨position - unit.codeLength, by omega⟩
    have last := unit.last_ne_zero
    rw [unit.getElem?_payload rest (by omega)] at zero
    by_cases next : index + 1 < unit.payload.length
    · rw [Nat.add_assoc, unit.getElem?_payload rest next] at one
      by_cases third : index + 2 < unit.payload.length
      · rw [Nat.add_assoc, unit.getElem?_payload rest third] at two
        exact unit.clean index ⟨zero, one, two⟩
      · rw [show unit.payload.length - 1 = index + 1 by omega] at last
        exact last one
    · rw [show unit.payload.length - 1 = index by omega] at last
      exact last zero

theorem StreamUnit.codeAt_append (unit : StreamUnit) (rest : List UInt8) (position : Nat) :
    CodeAt (unit.bytes ++ rest) position ↔
      position = unit.codeLength - 3 ∨
        unit.bytes.length ≤ position ∧ CodeAt rest (position - unit.bytes.length) := by
  have three := unit.three_le_codeLength
  have some_payload := unit.payload_pos
  unfold CodeAt
  rw [List.length_append]
  by_cases inside : position < unit.bytes.length
  · rw [unit.sequenceAt_inside rest inside]
    rw [unit.bytes_length] at inside ⊢
    omega
  · have notCode : position ≠ unit.codeLength - 3 := by
      rw [unit.bytes_length] at inside
      omega
    rw [sequenceAt_append_right _ _ (by omega)]
    simp only [notCode, false_or, Nat.le_of_not_lt inside, true_and, and_congr_left_iff]
    intro _
    omega

/-- Behind bytes that do not end in zero, a unit begins where those bytes end. -/
theorem StreamUnit.unitStart_append (unit : StreamUnit) (front rest : List UInt8)
    (stopped : front.getLast? ≠ some 0) :
    unitStart (front ++ (unit.bytes ++ rest)) (front.length + (unit.codeLength - 3)) =
      front.length := by
  have first : (front ++ (unit.bytes ++ rest))[front.length]? = some 0 := by
    rw [List.getElem?_append_right (Nat.le_refl _), Nat.sub_self]
    have three := unit.three_le_codeLength
    rw [unit.getElem?_code rest (by omega), unit.code_getElem? (by omega), if_neg (by omega)]
  unfold unitStart
  cases long : unit.long with
  | true =>
      have codeLength : unit.codeLength = 4 := by simp [codeLength, long]
      rw [codeLength, show front.length + (4 - 3) - 1 = front.length from rfl,
        if_pos ⟨by omega, first⟩]
  | false =>
      have codeLength : unit.codeLength = 3 := by simp [codeLength, long]
      rw [codeLength, Nat.sub_self, Nat.add_zero]
      refine if_neg fun ⟨positive, zero⟩ => stopped ?_
      rwa [List.getLast?_eq_getElem?, ← List.getElem?_append_left (by omega)]

theorem StreamUnit.codes_append (unit : StreamUnit) (rest : List UInt8) :
    codes (unit.bytes ++ rest) =
      (unit.codeLength - 3) :: (codes rest).map (unit.bytes.length + ·) := by
  have three := unit.three_le_codeLength
  have some_payload := unit.payload_pos
  have own : (List.range unit.bytes.length).filter (CodeAt (unit.bytes ++ rest) ·) =
      [unit.codeLength - 3] := by
    have same : (List.range unit.bytes.length).filter (CodeAt (unit.bytes ++ rest) ·) =
        (List.range unit.bytes.length).filter (· = unit.codeLength - 3) := by
      apply List.filter_congr
      intro position inside
      have below := Nat.not_le.mpr (List.mem_range.mp inside)
      simp only [unit.codeAt_append, below, false_and, or_false]
    have within : unit.codeLength - 3 ∈ List.range unit.bytes.length := by
      rw [List.mem_range, unit.bytes_length]
      omega
    rw [same, List.filter_eq, List.count_eq_one_of_mem List.nodup_range within]
    rfl
  have others : ((List.range rest.length).map (unit.bytes.length + ·)).filter
      (CodeAt (unit.bytes ++ rest) ·) = (codes rest).map (unit.bytes.length + ·) := by
    rw [List.filter_map]
    congr 1
    apply List.filter_congr
    intro position _
    have later : unit.bytes.length + position ≠ unit.codeLength - 3 := by
      rw [unit.bytes_length]
      omega
    simp only [Function.comp_apply, unit.codeAt_append, later, false_or, Nat.le_add_right,
      true_and, Nat.add_sub_cancel_left]
  rw [codes, List.length_append, List.range_add, List.filter_append, own, others]
  rfl

end RcControl.Data
