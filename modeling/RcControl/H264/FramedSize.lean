import RcControl.H264.NaluIndices

namespace RcControl.H264

open RcControl.Data

/-! The room the units of a buffer take once each has a four-byte length.

From the first unit on, a four-byte start code is replaced by its length and a
three-byte one grows by a byte. -/

/-- The code at the position has no zero byte in front of it. -/
def threeByteCode (buffer : List UInt8) (position : Nat) : Bool :=
  unitStart buffer position = position

def framedSize (buffer : List UInt8) : Nat :=
  match codes buffer with
  | [] => 0
  | first :: rest =>
      buffer.length - unitStart buffer first +
        (first :: rest).countP (threeByteCode buffer)

theorem codes_sorted (buffer : List UInt8) : (codes buffer).Pairwise (· < ·) :=
  List.Pairwise.filter _ List.pairwise_lt_range

theorem unitStart_eq_or (buffer : List UInt8) (position : Nat) :
    unitStart buffer position = position ∨ unitStart buffer position + 1 = position := by
  unfold unitStart
  split <;> omega

theorem framed_unit (buffer : List UInt8) {position finish : Nat} (bound : position + 3 ≤ finish) :
    4 + (finish - (position + 3)) + unitStart buffer position =
      finish + [position].countP (threeByteCode buffer) := by
  simp only [List.countP_singleton, threeByteCode, decide_eq_true_eq]
  rcases unitStart_eq_or buffer position with short | long
  · rw [if_pos short, short]
    omega
  · rw [if_neg (by omega)]
    omega

/-- The records of consecutive units cover everything from the first one to `finish`. -/
theorem entries_framed {buffer : List UInt8} {first finish : Nat} {rest : List Nat}
    (codesOnly : ∀ position ∈ first :: rest, CodeAt buffer position)
    (sorted : (first :: rest).Pairwise (· < ·)) (bound : buffer.length ≤ finish) :
    ((entries buffer finish (first :: rest)).map (4 + ·.payloadSize)).sum + unitStart buffer first =
      finish + (first :: rest).countP (threeByteCode buffer) := by
  induction rest generalizing first with
  | nil =>
      have inside := (codesOnly first (by simp)).1
      have unit := framed_unit buffer (show first + 3 ≤ finish by omega)
      rw [entries, List.map_singleton, List.sum_singleton]
      exact unit
  | cons next rest ih =>
      obtain ⟨before, sortedRest⟩ := List.pairwise_cons.mp sorted
      have apart := le_unitStart (codesOnly first (by simp)) (codesOnly next (by simp))
        (before next (by simp))
      have unit := framed_unit buffer apart
      have others := ih (fun position member => codesOnly position (List.mem_cons_of_mem _ member))
        sortedRest
      have counted : (first :: next :: rest).countP (threeByteCode buffer) =
          [first].countP (threeByteCode buffer) + (next :: rest).countP (threeByteCode buffer) := by
        rw [← List.countP_append, List.singleton_append]
      rw [entries, List.map_cons, List.sum_cons, counted]
      dsimp only
      omega

theorem entries_framedSize (buffer : List UInt8) :
    ((entries buffer buffer.length (codes buffer)).map (4 + ·.payloadSize)).sum =
      framedSize buffer := by
  rw [framedSize]
  cases found : codes buffer with
  | nil => rfl
  | cons first rest =>
      have codesOnly : ∀ position ∈ first :: rest, CodeAt buffer position := fun position member =>
        mem_codes.mp (found ▸ member)
      have sorted := found ▸ codes_sorted buffer
      have covered := entries_framed codesOnly sorted (Nat.le_refl _)
      have begins := unitStart_le buffer first
      have inside := (codesOnly first (by simp)).1
      dsimp only
      omega

end RcControl.H264
