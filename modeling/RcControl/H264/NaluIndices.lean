import RcControl.Data.ByteStream

namespace RcControl.H264

open RcControl.Data

abbrev kNaluShortStartSequenceSize : Nat := 3

def kNaluTypeMask : UInt8 := 0x1F

structure NaluIndex where
  startOffset : Nat
  payloadStartOffset : Nat
  payloadSize : Nat
deriving DecidableEq, Repr

def closeLast (endOffset : Nat) (naluIndices : List NaluIndex) : List NaluIndex :=
  naluIndices.modifyLast fun it => { it with payloadSize := endOffset - it.payloadStartOffset }

/-- The scanning loop of `FindNaluIndices`.  Every read carries the proof that it
stays inside the buffer. -/
def scan (buffer : List UInt8) (i : Nat) (naluIndices : List NaluIndex) : List NaluIndex :=
  if bound : i < buffer.length - kNaluShortStartSequenceSize then
    have inside : i + 3 < buffer.length := Nat.add_lt_of_lt_sub bound
    if buffer[i + 2] > 1 then
      scan buffer (i + 3) naluIndices
    else if buffer[i + 2] = 1 then
      if buffer[i + 1] = 0 ∧ buffer[i] = 0 then
        -- Found a start sequence; a zero byte in front makes it a four-byte one.
        let startOffset := if 0 < i ∧ buffer[i - 1] = 0 then i - 1 else i
        scan buffer (i + 3)
          (closeLast startOffset naluIndices ++ [⟨startOffset, i + 3, 0⟩])
      else
        scan buffer (i + 3) naluIndices
    else
      scan buffer (i + 1) naluIndices
  else
    naluIndices
termination_by buffer.length - i

/-- `FindNaluIndices(buffer, buffer_size)`, where the list holds the `buffer_size`
bytes.  The vector it fills is the namespace-level `nalu_indices`: the argument is
its value before the call, the result both its value afterwards and what is
returned. -/
def findNaluIndices (naluIndices : List NaluIndex) (buffer : List UInt8) : List NaluIndex :=
  if buffer.length < kNaluShortStartSequenceSize then
    naluIndices
  else
    closeLast buffer.length (scan buffer 0 [])

def parseNaluType (data : UInt8) : UInt8 := data &&& kNaluTypeMask

/-- The entries for start codes at the given positions: each one ends where the
next begins, and the last one at `finish`. -/
def entries (buffer : List UInt8) (finish : Nat) : List Nat → List NaluIndex
  | [] => []
  | [position] => [⟨unitStart buffer position, position + 3, finish - (position + 3)⟩]
  | position :: next :: rest =>
      ⟨unitStart buffer position, position + 3, unitStart buffer next - (position + 3)⟩ ::
        entries buffer finish (next :: rest)

theorem entries_concat (buffer : List UInt8) (finish position : Nat) (front : List Nat) :
    entries buffer finish (front ++ [position]) =
      entries buffer (unitStart buffer position) front ++
        [⟨unitStart buffer position, position + 3, finish - (position + 3)⟩] := by
  induction front with
  | nil => rfl
  | cons first front ih =>
      cases front with
      | nil => rfl
      | cons second front =>
          simp only [List.cons_append, entries, List.cons.injEq, true_and]
          exact ih

theorem closeLast_entries (buffer : List UInt8) (before after : Nat) (positions : List Nat) :
    closeLast after (entries buffer before positions) = entries buffer after positions := by
  rcases List.eq_nil_or_concat positions with rfl | ⟨front, position, rfl⟩
  · rfl
  · rw [List.concat_eq_append, entries_concat, entries_concat, closeLast,
      List.modifyLast_concat]

/-- The loop, started at `i` with open entries for the codes found so far, adds the
codes from `i` on.  Where it jumps three bytes, the byte it looked at rules out
that a code begins at either of the two positions it skips. -/
theorem scan_entries (buffer : List UInt8) (i : Nat) (found : List Nat) :
    scan buffer i (entries buffer 0 found) =
      entries buffer 0 (found ++ codesFrom buffer i) := by
  generalize start : entries buffer 0 found = naluIndices
  fun_induction scan buffer i naluIndices generalizing found with
  | case1 i naluIndices bound inside large ih =>
      have third : buffer[i + 2]? = some buffer[i + 2] := List.getElem?_eq_getElem _
      have notCode : ¬ CodeAt buffer i := by
        intro code
        have one := code.2.2.2
        rw [third, Option.some.injEq] at one
        rw [one] at large
        exact absurd large (by decide)
      have nonzero : buffer[i + 2]? ≠ some 0 := by
        rw [third, ne_eq, Option.some.injEq]
        intro zero
        rw [zero] at large
        exact absurd large (by decide)
      rw [codesFrom_skip inside nonzero, if_neg notCode]
      exact ih found start
  | case2 i naluIndices bound inside notLarge one zeros startOffset ih =>
      have code : CodeAt buffer i := by
        refine ⟨inside, ?_, ?_, ?_⟩
        · rw [List.getElem?_eq_getElem (by omega), zeros.2]
        · rw [List.getElem?_eq_getElem (by omega), zeros.1]
        · rw [List.getElem?_eq_getElem (by omega), one]
      have nonzero : buffer[i + 2]? ≠ some 0 := by
        rw [code.2.2.2]
        decide
      have sameStart : startOffset = unitStart buffer i := by
        simp only [startOffset, unitStart, List.getElem?_eq_getElem (by omega : i - 1 < buffer.length),
          Option.some.injEq, dite_eq_ite]
      have pushed : entries buffer 0 (found ++ [i]) =
          closeLast startOffset naluIndices ++ [⟨startOffset, i + 3, 0⟩] := by
        rw [entries_concat, ← start, closeLast_entries, sameStart, Nat.zero_sub]
      rw [codesFrom_skip inside nonzero, if_pos code, ih _ pushed, List.append_assoc]
      rfl
  | case3 i naluIndices bound inside notLarge one notZeros ih =>
      have notCode : ¬ CodeAt buffer i := by
        intro code
        obtain ⟨_, zero, zero', _⟩ := code
        rw [List.getElem?_eq_getElem (by omega), Option.some.injEq] at zero zero'
        exact notZeros ⟨zero', zero⟩
      have nonzero : buffer[i + 2]? ≠ some 0 := by
        rw [List.getElem?_eq_getElem (by omega), one]
        decide
      rw [codesFrom_skip inside nonzero, if_neg notCode]
      exact ih found start
  | case4 i naluIndices bound inside notLarge notOne ih =>
      have notCode : ¬ CodeAt buffer i := by
        intro code
        have isOne := code.2.2.2
        rw [List.getElem?_eq_getElem (by omega), Option.some.injEq] at isOne
        exact notOne isOne
      rw [codesFrom_step (by omega), if_neg notCode]
      exact ih found start
  | case5 i naluIndices ended =>
      change ¬ i < buffer.length - 3 at ended
      rw [codesFrom_of_le (by omega), List.append_nil, start]

/-- On a buffer of at least three bytes `FindNaluIndices` returns one entry for each
start code, whatever the vector held before. -/
theorem findNaluIndices_eq_entries (naluIndices : List NaluIndex) {buffer : List UInt8}
    (enough : kNaluShortStartSequenceSize ≤ buffer.length) :
    findNaluIndices naluIndices buffer = entries buffer buffer.length (codes buffer) := by
  have scanned : scan buffer 0 [] = entries buffer 0 (codes buffer) := by
    rw [← codesFrom_zero]
    exact scan_entries buffer 0 []
  rw [findNaluIndices, if_neg (Nat.not_lt.mpr enough), scanned, closeLast_entries]

theorem findNaluIndices_short (naluIndices : List NaluIndex) {buffer : List UInt8}
    (short : buffer.length < kNaluShortStartSequenceSize) :
    findNaluIndices naluIndices buffer = naluIndices :=
  if_pos short

end RcControl.H264
