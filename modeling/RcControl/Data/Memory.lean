import Mathlib

namespace RcControl.Data

/-! Byte memory behind one pointer.

Addresses are offsets from the pointer, unbounded above: what lies beyond the
allocation is memory too, only not the allocation's.  `extent` is one past the
highest cell ever written, so "no write left an allocation of `n` bytes" is
`extent ≤ n`. -/

structure Memory where
  cells : Nat → UInt8
  extent : Nat

def window (cells : Nat → UInt8) (address count : Nat) : List UInt8 :=
  (List.range count).map fun index => cells (address + index)

@[simp] theorem window_length (cells : Nat → UInt8) (address count : Nat) :
    (window cells address count).length = count := by
  simp [window]

theorem window_add (cells : Nat → UInt8) (address first second : Nat) :
    window cells address (first + second) =
      window cells address first ++ window cells (address + first) second := by
  simp only [window, List.range_add, List.map_append, List.map_map, Function.comp_def,
    Nat.add_assoc]

theorem window_of_append (cells : Nat → UInt8) (address count : Nat) (front middle back : List UInt8)
    (whole : window cells address count = front ++ (middle ++ back)) :
    window cells (address + front.length) middle.length = middle := by
  have size : front.length + (middle.length + back.length) = count := by
    rw [← window_length cells address count, whole]
    simp
  rw [← size, window_add, window_add] at whole
  have rest := (List.append_inj whole (by simp)).2
  exact (List.append_inj rest (by simp)).1

namespace Memory

def read (memory : Memory) (address count : Nat) : List UInt8 :=
  window memory.cells address count

def write (memory : Memory) (address : Nat) (bytes : List UInt8) : Memory where
  cells index :=
    if index < address then memory.cells index
    else bytes.getD (index - address) (memory.cells index)
  extent := if bytes.isEmpty then memory.extent else max memory.extent (address + bytes.length)

theorem read_length (memory : Memory) (address count : Nat) :
    (memory.read address count).length = count :=
  window_length _ _ _

theorem read_congr {before after : Memory} {address count : Nat}
    (same : ∀ index, address ≤ index → index < address + count →
      after.cells index = before.cells index) :
    after.read address count = before.read address count := by
  apply List.map_congr_left
  intro index member
  have bound := List.mem_range.mp member
  exact same (address + index) (by omega) (by omega)

theorem write_cells_of_lt (memory : Memory) {address index : Nat} (bytes : List UInt8)
    (below : index < address) : (memory.write address bytes).cells index = memory.cells index :=
  if_pos below

theorem write_cells_of_ge (memory : Memory) {address index : Nat} {bytes : List UInt8}
    (above : address + bytes.length ≤ index) :
    (memory.write address bytes).cells index = memory.cells index := by
  simp only [write, if_neg (show ¬ index < address by omega)]
  exact List.getD_eq_default _ _ (by omega)

theorem write_cells_inside (memory : Memory) {address index : Nat} {bytes : List UInt8}
    (bound : index < bytes.length) :
    (memory.write address bytes).cells (address + index) = bytes[index] := by
  simp only [write, if_neg (show ¬ address + index < address by omega), Nat.add_sub_cancel_left,
    List.getD_eq_getElem _ _ bound]

theorem read_write (memory : Memory) (address : Nat) (bytes : List UInt8) :
    (memory.write address bytes).read address bytes.length = bytes := by
  apply List.ext_getElem (by simp [read])
  intro index _ bound
  simp only [read, window, List.getElem_map, List.getElem_range]
  exact memory.write_cells_inside bound

theorem read_write_below (memory : Memory) {address count position : Nat} (bytes : List UInt8)
    (below : address + count ≤ position) :
    (memory.write position bytes).read address count = memory.read address count :=
  read_congr fun _ _ upper => memory.write_cells_of_lt bytes (by omega)

theorem read_write_above (memory : Memory) {address count position : Nat} {bytes : List UInt8}
    (above : position + bytes.length ≤ address) :
    (memory.write position bytes).read address count = memory.read address count :=
  read_congr fun _ lower _ => memory.write_cells_of_ge (by omega)

theorem write_extent_le_iff (memory : Memory) {address limit : Nat} {bytes : List UInt8}
    (some_byte : bytes ≠ []) :
    (memory.write address bytes).extent ≤ limit ↔
      memory.extent ≤ limit ∧ address + bytes.length ≤ limit := by
  have notEmpty : bytes.isEmpty = false := by simpa using some_byte
  simp only [write, notEmpty, Bool.false_eq_true, if_false, max_le_iff]

theorem write_nil (memory : Memory) (address : Nat) :
    (memory.write address []).extent = memory.extent := rfl

end Memory

end RcControl.Data
