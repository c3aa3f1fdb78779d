import Mathlib

namespace RcControl.Data

/-! Clock values that wrap around at `2 ^ 32`.

A value is compared with one before it by the ticks between them, as long as these
are fewer than half the range. -/

namespace Serial

def offset (base : UInt32) (ticks : Int) : UInt32 := base + UInt32.ofInt ticks

def Precedes (first second : UInt32) : Prop :=
  0 < (second - first).toNat ∧ (second - first).toNat < 2 ^ 31

/-- From the first value to the second the clock advances by `elapsed` ticks, up to one. -/
def Advances (first second : UInt32) (elapsed : ℚ) : Prop :=
  ∃ ticks : Int, second = offset first ticks ∧ |(ticks : ℚ) - elapsed| ≤ 1

theorem toNat_ofInt (value : Int) : (UInt32.ofInt value).toNat = (value % 2 ^ 32).toNat := by
  have bound : (value % 2 ^ 32).toNat < 2 ^ 32 := by omega
  rw [UInt32.ofInt, UInt32.toNat_ofNat', Nat.mod_eq_of_lt bound]

theorem ofInt_eq_iff (first second : Int) :
    UInt32.ofInt first = UInt32.ofInt second ↔ first % 2 ^ 32 = second % 2 ^ 32 := by
  rw [← UInt32.toNat_inj, toNat_ofInt, toNat_ofInt]
  omega

theorem ofInt_sub_toNat (minuend subtrahend : Int) :
    UInt32.ofInt (minuend - (UInt32.ofInt subtrahend).toNat) =
      UInt32.ofInt (minuend - subtrahend) := by
  rw [ofInt_eq_iff, toNat_ofInt]
  omega

theorem offset_sub_offset (base : UInt32) (first second : Int) :
    offset base second - offset base first = UInt32.ofInt (second - first) := by
  rw [offset, offset, sub_eq_add_neg second, UInt32.ofInt_add, UInt32.ofInt_neg]
  grind

theorem offset_offset (base : UInt32) (first second : Int) :
    offset (offset base first) second = offset base (first + second) := by
  rw [offset, offset, offset, UInt32.ofInt_add, UInt32.add_assoc]

theorem precedes_offset_iff (base : UInt32) {first second : Int}
    (near : |second - first| < 2 ^ 31) :
    Precedes (offset base first) (offset base second) ↔ first < second := by
  obtain ⟨lower, upper⟩ := abs_lt.mp near
  rw [Precedes, offset_sub_offset, toNat_ofInt]
  omega

/-- Offsets not far apart advance as their ticks do: no other number of ticks that
reaches the second value is anywhere near what has elapsed. -/
theorem advances_offset_iff (base : UInt32) {first second : Int} {elapsed : ℚ}
    (near : |second - first| < 2 ^ 30) (forward : 0 ≤ elapsed) (bound : elapsed < 2 ^ 31) :
    Advances (offset base first) (offset base second) elapsed ↔
      |((second - first : Int) : ℚ) - elapsed| ≤ 1 := by
  apply Iff.intro
  · intro advances
    obtain ⟨ticks, reached, close⟩ := advances
    have same : UInt32.ofInt ticks = UInt32.ofInt (second - first) := by
      rw [← offset_sub_offset base, reached, offset, offset]
      grind
    rw [ofInt_eq_iff] at same
    obtain ⟨above, below⟩ := abs_le.mp close
    have lower : (-2 : Int) < ticks := by
      have : (-2 : ℚ) < ticks := by linarith
      exact_mod_cast this
    have upper : ticks < 2 ^ 31 + 1 := by
      have : (ticks : ℚ) < 2 ^ 31 + 1 := by linarith
      exact_mod_cast this
    obtain ⟨left, right⟩ := abs_lt.mp near
    rwa [show second - first = ticks by omega]
  · intro close
    refine ⟨second - first, ?_, close⟩
    rw [offset_offset, add_sub_cancel]

end Serial

end RcControl.Data
