import RcControl.H264.FramedSize

namespace RcControl.H264

open RcControl.Data

/-! The scan that jumps finds what a scan of every position finds.

`checkedFindNaluIndices` is the same program with reads and subtractions that can fail: a
read fails outside the buffer, a subtraction where `size_t` would wrap around. -/

/-- What a scan of every position finds: one entry for each start code, in order.  The
entries tile the buffer from the first one on. -/
structure PlainScan (buffer : List UInt8) (found : List NaluIndex) : Prop where
  complete : ∀ position, CodeAt buffer position →
    ∃ index ∈ found, index.payloadStartOffset = position + 3
  sound : ∀ index ∈ found, ∃ position, CodeAt buffer position ∧
    index.payloadStartOffset = position + 3 ∧
    index.startOffset = if 0 < position ∧ buffer[position - 1]? = some 0 then position - 1 else position
  increasing : found.Pairwise fun first second => first.payloadStartOffset < second.payloadStartOffset
  tiled : found.IsChain fun first second =>
    first.payloadStartOffset + first.payloadSize = second.startOffset
  ends : ∀ last ∈ found.getLast?, last.payloadStartOffset + last.payloadSize = buffer.length

section Checked

/-- A subtraction of two values of type `size_t`. -/
def checkedSub (minuend subtrahend : Nat) : Option Nat :=
  if subtrahend ≤ minuend then some (minuend - subtrahend) else none

def checkedCloseLast (endOffset : Nat) (naluIndices : List NaluIndex) : Option (List NaluIndex) :=
  match naluIndices.getLast? with
  | none => some naluIndices
  | some it => do
      let payloadSize ← checkedSub endOffset it.payloadStartOffset
      return naluIndices.dropLast ++ [{ it with payloadSize }]

/-- `buffer[i + 1] == 0 && buffer[i] == 0` -/
def checkedZeros (buffer : List UInt8) (i : Nat) : Option Bool := do
  let second ← buffer[i + 1]?
  if second = 0 then
    let first ← buffer[i]?
    return first = 0
  else return false

def checkedStart (buffer : List UInt8) (i : Nat) : Option Nat :=
  if 0 < i then do
    let before ← buffer[i - 1]?
    return if before = 0 then i - 1 else i
  else some i

def checkedScan (buffer : List UInt8) (i : Nat) (naluIndices : List NaluIndex) :
    Option (List NaluIndex) :=
  if bound : i < buffer.length - kNaluShortStartSequenceSize then do
    let third ← buffer[i + 2]?
    if third > 1 then
      checkedScan buffer (i + 3) naluIndices
    else if third = 1 then
      if ← checkedZeros buffer i then
        let startOffset ← checkedStart buffer i
        let naluIndices ← checkedCloseLast startOffset naluIndices
        checkedScan buffer (i + 3) (naluIndices ++ [⟨startOffset, i + 3, 0⟩])
      else
        checkedScan buffer (i + 3) naluIndices
    else
      checkedScan buffer (i + 1) naluIndices
  else
    some naluIndices
termination_by buffer.length - i

def checkedFindNaluIndices (naluIndices : List NaluIndex) (buffer : List UInt8) :
    Option (List NaluIndex) :=
  if buffer.length < kNaluShortStartSequenceSize then
    some naluIndices
  else do
    let scanned ← checkedScan buffer 0 []
    checkedCloseLast buffer.length scanned

theorem checkedCloseLast_eq {endOffset : Nat} {naluIndices : List NaluIndex}
    (fits : ∀ it ∈ naluIndices.getLast?, it.payloadStartOffset ≤ endOffset) :
    checkedCloseLast endOffset naluIndices = some (closeLast endOffset naluIndices) := by
  rcases List.eq_nil_or_concat naluIndices with rfl | ⟨front, it, rfl⟩
  · rfl
  · rw [List.concat_eq_append] at fits ⊢
    have room := fits it (List.getLast?_concat ..)
    simp [checkedCloseLast, checkedSub, room, closeLast, List.modifyLast_concat]

theorem checkedZeros_eq {buffer : List UInt8} {i : Nat} {first second : UInt8}
    (here : buffer[i]? = some first) (behind : buffer[i + 1]? = some second) :
    checkedZeros buffer i = some (decide (second = 0 ∧ first = 0)) := by
  rw [checkedZeros, behind, Option.bind_eq_bind, Option.bind_some]
  by_cases zero : second = 0
  · simp [zero, here]
  · simp [zero]

theorem checkedStart_eq {buffer : List UInt8} {i : Nat} (inside : i + 3 < buffer.length) :
    checkedStart buffer i = some (unitStart buffer i) := by
  unfold checkedStart unitStart
  by_cases positive : 0 < i
  · have before : i - 1 < buffer.length := by omega
    simp [positive, List.getElem?_eq_getElem before]
  · simp [positive]

theorem entries_getLast? {buffer : List UInt8} {finish : Nat} {positions : List Nat} {it : NaluIndex}
    (last : it ∈ (entries buffer finish positions).getLast?) :
    ∃ position ∈ positions, it.payloadStartOffset = position + 3 := by
  rcases List.eq_nil_or_concat positions with rfl | ⟨front, position, rfl⟩
  · cases last
  · rw [List.concat_eq_append, entries_concat, List.getLast?_concat] at last
    obtain rfl := Option.some.inj last
    exact ⟨position, by simp, rfl⟩

/-- The codes found so far lie before `i`, so the entry to close ends behind its code. -/
theorem checkedScan_eq (buffer : List UInt8) (i : Nat) (found : List Nat)
    (earlier : ∀ position ∈ found, CodeAt buffer position ∧ position < i) :
    checkedScan buffer i (entries buffer 0 found) = some (scan buffer i (entries buffer 0 found)) := by
  generalize start : entries buffer 0 found = naluIndices
  have later {next : Nat} (forward : i ≤ next) :
      ∀ position ∈ found, CodeAt buffer position ∧ position < next := fun position member =>
    ⟨(earlier position member).1, Nat.lt_of_lt_of_le (earlier position member).2 forward⟩
  fun_induction scan buffer i naluIndices generalizing found with
  | case1 i naluIndices bound inside large ih =>
      have third : buffer[i + 2]? = some buffer[i + 2] := List.getElem?_eq_getElem _
      rw [checkedScan, dif_pos bound, third, Option.bind_eq_bind, Option.bind_some, if_pos large]
      exact ih found (later (by omega)) start fun forward => later (by omega)
  | case2 i naluIndices bound inside notLarge one zeros startOffset ih =>
      have first : buffer[i]? = some buffer[i] := List.getElem?_eq_getElem _
      have second : buffer[i + 1]? = some buffer[i + 1] := List.getElem?_eq_getElem _
      have third : buffer[i + 2]? = some buffer[i + 2] := List.getElem?_eq_getElem _
      have code : CodeAt buffer i := by
        refine ⟨inside, ?_, ?_, ?_⟩
        · rw [first, zeros.2]
        · rw [second, zeros.1]
        · rw [third, one]
      have sameStart : startOffset = unitStart buffer i := by
        simp only [startOffset, unitStart, List.getElem?_eq_getElem (by omega : i - 1 < buffer.length),
          Option.some.injEq, dite_eq_ite]
      have fits : ∀ it ∈ naluIndices.getLast?, it.payloadStartOffset ≤ unitStart buffer i := by
        intro it last
        rw [← start] at last
        obtain ⟨position, member, opens⟩ := entries_getLast? last
        obtain ⟨before, ordered⟩ := earlier position member
        rw [opens]
        exact le_unitStart before code ordered
      have pushed : entries buffer 0 (found ++ [i]) =
          closeLast startOffset naluIndices ++ [⟨startOffset, i + 3, 0⟩] := by
        rw [entries_concat, ← start, closeLast_entries, sameStart, Nat.zero_sub]
      have earlierNext {next : Nat} (forward : i + 3 ≤ next) :
          ∀ position ∈ found ++ [i], CodeAt buffer position ∧ position < next := by
        intro position member
        rcases List.mem_append.mp member with old | new
        · exact later (by omega) position old
        · obtain rfl := List.mem_singleton.mp new
          exact ⟨code, by omega⟩
      have rest := ih (found ++ [i]) (earlierNext (Nat.le_refl _)) pushed earlierNext
      rw [checkedScan, dif_pos bound, third]
      simp only [Option.bind_eq_bind, Option.bind_some, if_neg notLarge, if_pos one,
        checkedZeros_eq first second, decide_eq_true zeros, if_true, checkedStart_eq inside,
        checkedCloseLast_eq fits]
      rw [← sameStart, rest]
  | case3 i naluIndices bound inside notLarge one notZeros ih =>
      have first : buffer[i]? = some buffer[i] := List.getElem?_eq_getElem _
      have second : buffer[i + 1]? = some buffer[i + 1] := List.getElem?_eq_getElem _
      have third : buffer[i + 2]? = some buffer[i + 2] := List.getElem?_eq_getElem _
      rw [checkedScan, dif_pos bound, third]
      simp only [Option.bind_eq_bind, Option.bind_some, if_neg notLarge, if_pos one,
        checkedZeros_eq first second, decide_eq_false notZeros, Bool.false_eq_true, if_false]
      exact ih found (later (by omega)) start fun forward => later (by omega)
  | case4 i naluIndices bound inside notLarge notOne ih =>
      have third : buffer[i + 2]? = some buffer[i + 2] := List.getElem?_eq_getElem _
      rw [checkedScan, dif_pos bound, third, Option.bind_eq_bind, Option.bind_some, if_neg notLarge,
        if_neg notOne]
      exact ih found (later (by omega)) start fun forward => later (by omega)
  | case5 i naluIndices ended => rw [checkedScan, dif_neg ended]

/-- No read of the program is outside the buffer, and no subtraction wraps around. -/
theorem checkedFindNaluIndices_eq (naluIndices : List NaluIndex) (buffer : List UInt8) :
    checkedFindNaluIndices naluIndices buffer = some (findNaluIndices naluIndices buffer) := by
  unfold checkedFindNaluIndices findNaluIndices
  split
  · rfl
  · have scanned := checkedScan_eq buffer 0 [] (by simp)
    have found : scan buffer 0 [] = entries buffer 0 (codes buffer) := by
      rw [← codesFrom_zero]
      exact scan_entries buffer 0 []
    change checkedScan buffer 0 [] = some (scan buffer 0 []) at scanned
    rw [scanned, Option.bind_eq_bind, Option.bind_some]
    apply checkedCloseLast_eq
    intro it last
    rw [found] at last
    obtain ⟨position, member, opens⟩ := entries_getLast? last
    have inside := (mem_codes.mp member).1
    omega

end Checked

section Entries

variable {buffer : List UInt8} {finish : Nat}

theorem entries_payloadStarts (positions : List Nat) :
    (entries buffer finish positions).map (·.payloadStartOffset) = positions.map (· + 3) := by
  match positions with
  | [] => rfl
  | [_] => rfl
  | position :: next :: rest =>
      rw [entries, List.map_cons, entries_payloadStarts (next :: rest)]
      rfl

theorem mem_entries {positions : List Nat} {index : NaluIndex}
    (member : index ∈ entries buffer finish positions) :
    ∃ position ∈ positions, index.payloadStartOffset = position + 3 ∧
      index.startOffset = unitStart buffer position := by
  match positions with
  | [] => cases member
  | [position] =>
      obtain rfl := List.mem_singleton.mp member
      exact ⟨position, by simp, rfl, rfl⟩
  | position :: next :: rest =>
      rcases List.mem_cons.mp member with rfl | later
      · exact ⟨position, by simp, rfl, rfl⟩
      · obtain ⟨other, here, opens, starts⟩ := mem_entries later
        exact ⟨other, List.mem_cons_of_mem _ here, opens, starts⟩

/-- Each entry ends where the next one begins. -/
theorem entries_tiled {first : Nat} {rest : List Nat}
    (codesOnly : ∀ position ∈ first :: rest, CodeAt buffer position)
    (sorted : (first :: rest).Pairwise (· < ·)) :
    (entries buffer finish (first :: rest)).IsChain fun first second =>
      first.payloadStartOffset + first.payloadSize = second.startOffset := by
  induction rest generalizing first with
  | nil => simp [entries]
  | cons next rest ih =>
      obtain ⟨before, sortedRest⟩ := List.pairwise_cons.mp sorted
      have apart := le_unitStart (codesOnly first (by simp)) (codesOnly next (by simp))
        (before next (by simp))
      have tail := ih (fun position member => codesOnly position (List.mem_cons_of_mem _ member))
        sortedRest
      cases rest with
      | nil =>
          simp only [entries, List.isChain_cons_cons, List.isChain_singleton, and_true]
          omega
      | cons second rest =>
          rw [entries] at tail ⊢
          rw [entries, List.isChain_cons_cons]
          apply And.intro
          · dsimp only
            omega
          · exact tail

theorem entries_ends {positions : List Nat} (inside : ∀ position ∈ positions, position + 3 ≤ finish) :
    ∀ last ∈ (entries buffer finish positions).getLast?,
      last.payloadStartOffset + last.payloadSize = finish := by
  intro last found
  rcases List.eq_nil_or_concat positions with rfl | ⟨front, position, rfl⟩
  · cases found
  · rw [List.concat_eq_append] at found inside
    rw [entries_concat, List.getLast?_concat] at found
    obtain rfl := Option.some.inj found
    have room := inside position (by simp)
    dsimp only
    omega

theorem entries_plainScan (buffer : List UInt8) :
    PlainScan buffer (entries buffer buffer.length (codes buffer)) where
  complete := by
    intro position code
    have opens : position + 3 ∈ (entries buffer buffer.length (codes buffer)).map
        (·.payloadStartOffset) := by
      rw [entries_payloadStarts]
      exact List.mem_map_of_mem (mem_codes.mpr code)
    obtain ⟨index, member, same⟩ := List.mem_map.mp opens
    exact ⟨index, member, same⟩
  sound := by
    intro index member
    obtain ⟨position, found, opens, starts⟩ := mem_entries member
    exact ⟨position, mem_codes.mp found, opens, starts⟩
  increasing := by
    rw [← List.pairwise_map (R := (· < ·)) (f := fun index : NaluIndex => index.payloadStartOffset),
      entries_payloadStarts, List.pairwise_map]
    exact (codes_sorted buffer).imp fun ordered => Nat.add_lt_add_right ordered 3
  tiled := by
    cases found : codes buffer with
    | nil => exact .nil
    | cons first rest =>
        have codesOnly : ∀ position ∈ first :: rest, CodeAt buffer position := fun position member =>
          mem_codes.mp (found ▸ member)
        exact entries_tiled codesOnly (found ▸ codes_sorted buffer)
  ends := entries_ends fun position member => Nat.le_of_lt (mem_codes.mp member).1

end Entries

namespace PlainScan

variable {buffer : List UInt8} {found : List NaluIndex} {index : NaluIndex}

/-- An entry runs to the end of the buffer, or to the entry that is found next. -/
theorem follower (scanned : PlainScan buffer found) (member : index ∈ found) :
    (index.payloadStartOffset + index.payloadSize = buffer.length ∧
        ∀ other ∈ found, other.payloadStartOffset ≤ index.payloadStartOffset) ∨
      ∃ next ∈ found, index.payloadStartOffset + index.payloadSize = next.startOffset ∧
        ∀ other ∈ found, other.payloadStartOffset ≤ index.payloadStartOffset ∨
          next.payloadStartOffset ≤ other.payloadStartOffset := by
  obtain ⟨before, after, rfl⟩ := List.append_of_mem member
  have tiled := scanned.tiled
  obtain ⟨_, later, ordered⟩ := List.pairwise_append.mp scanned.increasing
  have earlier : ∀ other ∈ before, other.payloadStartOffset ≤ index.payloadStartOffset :=
    fun other found => Nat.le_of_lt (ordered other found index (by simp))
  cases after with
  | nil =>
      left
      apply And.intro
      · exact scanned.ends index (by simp)
      · intro other found
        rcases List.mem_append.mp found with old | same
        · exact earlier other old
        · rw [List.mem_singleton.mp same]
  | cons next rest =>
      right
      have ends := (List.isChain_append_cons_cons.mp tiled).2.1
      refine ⟨next, by simp, ends, ?_⟩
      intro other found
      rcases List.mem_append.mp found with old | new
      · exact .inl (earlier other old)
      · rcases List.mem_cons.mp new with rfl | behind
        · exact .inl (Nat.le_refl _)
        · rcases List.mem_cons.mp behind with rfl | further
          · exact .inr (Nat.le_refl _)
          · have laterRest := (List.pairwise_cons.mp later).2
            exact .inr (Nat.le_of_lt ((List.pairwise_cons.mp laterRest).1 other further))

end PlainScan

/-- On every buffer of at least three bytes, the program runs through without a bad read or
a wrap-around, and returns what the plain scan finds. -/
theorem findNaluIndices_plainScan (naluIndices : List NaluIndex) {buffer : List UInt8}
    (enough : kNaluShortStartSequenceSize ≤ buffer.length) :
    ∃ found, checkedFindNaluIndices naluIndices buffer = some found ∧
      findNaluIndices naluIndices buffer = found ∧ PlainScan buffer found := by
  have found := findNaluIndices_eq_entries naluIndices enough
  have scanned := entries_plainScan buffer
  rw [← found] at scanned
  exact ⟨_, checkedFindNaluIndices_eq naluIndices buffer, rfl, scanned⟩

/-- Two start codes that touch. -/
theorem findNaluIndices_plainScan_touching :
    ∃ found, checkedFindNaluIndices [] [0, 0, 1, 0, 0, 1, 0x65] = some found ∧
      findNaluIndices [] [0, 0, 1, 0, 0, 1, 0x65] = found ∧
      PlainScan [0, 0, 1, 0, 0, 1, 0x65] found :=
  findNaluIndices_plainScan [] (by decide)

end RcControl.H264
