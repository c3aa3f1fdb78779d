import RcControl.Data.Machine
import RcControl.H264.NaluIndices

namespace RcControl.H264

open RcControl.Data

/-! Sequences of `FindNaluIndices` calls in one process.

The result vector is shared by all calls and a call on fewer than three bytes
returns it before clearing it.  A call therefore sees the last buffer that was
long enough to be scanned. -/

/-- The calls of one process: the state is `nalu_indices`, an event is a buffer. -/
def scanner : Machine (List NaluIndex) (List UInt8) (List NaluIndex) where
  next := findNaluIndices
  emit := findNaluIndices

def lastScanned (buffers : List (List UInt8)) : List UInt8 :=
  ((buffers.filter (kNaluShortStartSequenceSize ≤ ·.length)).getLast?).getD []

def NaluIndex.Within (index : NaluIndex) (size : Nat) : Prop :=
  index.startOffset ≤ index.payloadStartOffset ∧
    index.payloadStartOffset + index.payloadSize ≤ size

instance (index : NaluIndex) (size : Nat) : Decidable (index.Within size) :=
  inferInstanceAs (Decidable (_ ∧ _))

theorem entries_within {buffer : List UInt8} {positions : List Nat}
    (codesOnly : ∀ position ∈ positions, CodeAt buffer position) :
    ∀ index ∈ entries buffer buffer.length positions, index.Within buffer.length := by
  induction positions with
  | nil => simp [entries]
  | cons position rest ih =>
      have bound := (codesOnly position (by simp)).1
      have begins := unitStart_le buffer position
      cases rest with
      | nil =>
          simp only [entries, List.mem_singleton, forall_eq, NaluIndex.Within]
          omega
      | cons next rest =>
          have nextBound := (codesOnly next (by simp)).1
          have nextBegins := unitStart_le buffer next
          have tail := ih fun other member => codesOnly other (List.mem_cons_of_mem _ member)
          intro index member
          rcases List.mem_cons.mp member with rfl | member
          · simp only [NaluIndex.Within]
            omega
          · exact tail index member

theorem findNaluIndices_within (buffer : List UInt8) :
    ∀ index ∈ findNaluIndices [] buffer, index.Within buffer.length := by
  by_cases enough : kNaluShortStartSequenceSize ≤ buffer.length
  · rw [findNaluIndices_eq_entries [] enough]
    exact entries_within fun position member => mem_codes.mp member
  · rw [findNaluIndices_short [] (Nat.lt_of_not_le enough)]
    simp

theorem scanner_run (buffers : List (List UInt8)) :
    scanner.run [] buffers =
      entries (lastScanned buffers) (lastScanned buffers).length (codes (lastScanned buffers)) := by
  induction buffers using List.reverseRecOn with
  | nil => rfl
  | append_singleton front buffer ih =>
      rw [Machine.run_append]
      change findNaluIndices (scanner.run [] front) buffer = _
      by_cases enough : kNaluShortStartSequenceSize ≤ buffer.length
      · have latest : lastScanned (front ++ [buffer]) = buffer := by
          simp [lastScanned, List.filter_append, enough]
        rw [latest, findNaluIndices_eq_entries _ enough]
      · have latest : lastScanned (front ++ [buffer]) = lastScanned front := by
          simp [lastScanned, List.filter_append, enough]
        rw [latest, findNaluIndices_short _ (Nat.lt_of_not_le enough), ih]

theorem entries_eq_nil_iff {buffer : List UInt8} {finish : Nat} {positions : List Nat} :
    entries buffer finish positions = [] ↔ positions = [] := by
  match positions with
  | [] => simp [entries]
  | [_] => simp [entries]
  | _ :: _ :: _ => simp [entries]

theorem scanner_run_eq_nil_iff (buffers : List (List UInt8)) :
    scanner.run [] buffers = [] ↔ codes (lastScanned buffers) = [] := by
  rw [scanner_run, entries_eq_nil_iff]

/-- A call on fewer than three bytes returns what the call before it left behind. -/
theorem findNaluIndices_fresh_iff (naluIndices : List NaluIndex) (buffer : List UInt8) :
    findNaluIndices naluIndices buffer = findNaluIndices [] buffer ↔
      kNaluShortStartSequenceSize ≤ buffer.length ∨ naluIndices = [] := by
  by_cases enough : kNaluShortStartSequenceSize ≤ buffer.length
  · rw [findNaluIndices_eq_entries _ enough, findNaluIndices_eq_entries _ enough]
    simp [enough]
  · have short := Nat.lt_of_not_le enough
    rw [findNaluIndices_short _ short, findNaluIndices_short _ short]
    simp [enough]

/-- In every sequence of calls, each result is that of a fresh process and stays
inside its own buffer exactly when no call on fewer than three bytes follows a
scanned buffer that contains a start code. -/
theorem calls_history_free_iff (buffers : List (List UInt8)) :
    (∀ front buffer back, buffers = front ++ buffer :: back →
      findNaluIndices (scanner.run [] front) buffer = findNaluIndices [] buffer ∧
      ∀ index ∈ findNaluIndices (scanner.run [] front) buffer, index.Within buffer.length) ↔
    (∀ front buffer back, buffers = front ++ buffer :: back →
      kNaluShortStartSequenceSize ≤ buffer.length ∨ codes (lastScanned front) = []) := by
  apply Iff.intro
  · intro free front buffer back split
    have fresh := (free front buffer back split).1
    rwa [findNaluIndices_fresh_iff, scanner_run_eq_nil_iff] at fresh
  · intro met front buffer back split
    have fresh : findNaluIndices (scanner.run [] front) buffer = findNaluIndices [] buffer := by
      rw [findNaluIndices_fresh_iff, scanner_run_eq_nil_iff]
      exact met front buffer back split
    refine ⟨fresh, ?_⟩
    rw [fresh]
    exact findNaluIndices_within buffer

theorem calls_not_history_free :
    ¬ ∀ buffers : List (List UInt8), ∀ front buffer back, buffers = front ++ buffer :: back →
      findNaluIndices (scanner.run [] front) buffer = findNaluIndices [] buffer ∧
      ∀ index ∈ findNaluIndices (scanner.run [] front) buffer, index.Within buffer.length := by
  intro free
  have leaked := (free [[0, 0, 1, 9], []] [[0, 0, 1, 9]] [] [] rfl).1
  exact absurd leaked (by decide +kernel)

end RcControl.H264
