import Mathlib

namespace RcControl.Data

/-! Records of a four-byte big-endian length followed by that many bytes. -/

namespace Framing

def lengthBytes (size : Nat) : List UInt8 :=
  [UInt8.ofNat (size / 2 ^ 24), UInt8.ofNat (size / 2 ^ 16), UInt8.ofNat (size / 2 ^ 8),
    UInt8.ofNat size]

def readLength (a b c d : UInt8) : Nat :=
  2 ^ 24 * a.toNat + 2 ^ 16 * b.toNat + 2 ^ 8 * c.toNat + d.toNat

def record (payload : List UInt8) : List UInt8 := lengthBytes payload.length ++ payload

def encode (payloads : List (List UInt8)) : List UInt8 := payloads.flatMap record

/-- Reads records until the bytes are used up; `none` if they end inside a record. -/
def decode : List UInt8 → Option (List (List UInt8))
  | [] => some []
  | a :: b :: c :: d :: rest =>
      if readLength a b c d ≤ rest.length then
        (decode (rest.drop (readLength a b c d))).map (rest.take (readLength a b c d) :: ·)
      else
        none
  | _ => none
termination_by bytes => bytes.length

@[simp] theorem lengthBytes_length (size : Nat) : (lengthBytes size).length = 4 := rfl

@[simp] theorem record_length (payload : List UInt8) :
    (record payload).length = 4 + payload.length := by
  simp [record]

@[simp] theorem encode_nil : encode [] = [] := rfl

@[simp] theorem encode_cons (payload : List UInt8) (payloads : List (List UInt8)) :
    encode (payload :: payloads) = record payload ++ encode payloads := rfl

theorem encode_append (front back : List (List UInt8)) :
    encode (front ++ back) = encode front ++ encode back :=
  List.flatMap_append

theorem encode_length (payloads : List (List UInt8)) :
    (encode payloads).length = (payloads.map (4 + ·.length)).sum := by
  simp [encode, List.length_flatMap]

theorem readLength_lengthBytes {size : Nat} (bound : size < 2 ^ 32) :
    readLength (UInt8.ofNat (size / 2 ^ 24)) (UInt8.ofNat (size / 2 ^ 16))
      (UInt8.ofNat (size / 2 ^ 8)) (UInt8.ofNat size) = size := by
  simp only [readLength, UInt8.toNat_ofNat']
  omega

theorem lengthBytes_readLength (a b c d : UInt8) :
    lengthBytes (readLength a b c d) = [a, b, c, d] := by
  have ha := a.toNat_lt
  have hb := b.toNat_lt
  have hc := c.toNat_lt
  have hd := d.toNat_lt
  simp only [lengthBytes, readLength, List.cons.injEq, ← UInt8.toNat_inj, UInt8.toNat_ofNat',
    and_true]
  omega

theorem decode_encode {payloads : List (List UInt8)}
    (bounded : ∀ payload ∈ payloads, payload.length < 2 ^ 32) :
    decode (encode payloads) = some payloads := by
  induction payloads with
  | nil => simp [decode]
  | cons payload payloads ih =>
      have rest := ih fun other member => bounded other (List.mem_cons_of_mem _ member)
      have size := readLength_lengthBytes (bounded payload (by simp))
      simp only [encode_cons, record, lengthBytes, List.cons_append, List.nil_append, decode, size]
      rw [if_pos (by simp), List.drop_left, List.take_left, rest]
      rfl

/-- Bytes that can be read as records are the framing of those records. -/
theorem encode_of_decode {bytes : List UInt8} {payloads : List (List UInt8)}
    (decoded : decode bytes = some payloads) : encode payloads = bytes := by
  fun_induction decode bytes generalizing payloads with
  | case1 => cases decoded; rfl
  | case2 a b c d rest enough ih =>
      obtain ⟨tail, tailDecoded, rfl⟩ := Option.map_eq_some_iff.mp decoded
      have size : (rest.take (readLength a b c d)).length = readLength a b c d :=
        List.length_take_of_le enough
      rw [encode_cons, record, size, lengthBytes_readLength, ih tailDecoded, List.append_assoc,
        List.take_append_drop]
      rfl
  | case3 => cases decoded
  | case4 => cases decoded

end Framing

end RcControl.Data
