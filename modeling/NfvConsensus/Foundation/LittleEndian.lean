import Mathlib.Data.Nat.Digits.Defs

/-! Binary numerals of fixed width over lists of characters, the lowest byte first. -/
namespace NfvConsensus.Foundation.LittleEndian

/-- What does not fit the width is dropped. -/
def littleEndian : Nat → Nat → List Char
  | 0,_ => []
  | width + 1,n => Char.ofNat (n % 256) :: littleEndian width (n / 256)

def readLittleEndian (bytes : List Char) : Nat := Nat.ofDigits 256 (bytes.map Char.toNat)

theorem byte_toNat (n : Nat) (small : n < 256) : (Char.ofNat n).toNat = n := by
  have valid : n.isValidChar := .inl (by omega)
  rw [Char.ofNat,dif_pos valid]
  rfl

theorem byte_digit (n : Nat) (small : n < 256) : (Char.ofNat n).isDigit = true ↔ 48 ≤ n ∧ n ≤ 57 := by
  rw [Char.isDigit_iff_toNat,byte_toNat n small]
  rfl

@[simp] theorem littleEndian_length (width n : Nat) : (littleEndian width n).length = width := by
  induction width generalizing n with
  | zero => rfl
  | succ width ih => rw [littleEndian,List.length_cons,ih]

/-- Bytes beyond those that a number fills are 0. -/
theorem littleEndian_zeros (width more n : Nat) (small : n < 256^width) :
    littleEndian (width + more) n = littleEndian width n ++ List.replicate more '\x00' := by
  induction width generalizing n with
  | zero =>
    have zero : n = 0 := by simpa using small
    rw [zero,Nat.zero_add,littleEndian,List.nil_append]
    induction more with
    | zero => rfl
    | succ more ih => exact congrArg (List.cons '\x00') ih
  | succ width ih =>
    have rest : n / 256 < 256^width := Nat.div_lt_of_lt_mul (by rwa [Nat.pow_succ'] at small)
    rw [Nat.succ_add,littleEndian,littleEndian,ih (n / 256) rest,List.cons_append]

theorem littleEndian_value (width n : Nat) (small : n < 256^width) : readLittleEndian (littleEndian width n) = n := by
  induction width generalizing n with
  | zero =>
    have zero : n = 0 := by simpa using small
    rw [zero]
    rfl
  | succ width ih =>
    have rest : n / 256 < 256^width := Nat.div_lt_of_lt_mul (by rwa [Nat.pow_succ'] at small)
    have low : (Char.ofNat (n % 256)).toNat = n % 256 := byte_toNat _ (Nat.mod_lt _ (by decide))
    have high := ih (n / 256) rest
    rw [readLittleEndian] at high ⊢
    rw [littleEndian,List.map_cons,Nat.ofDigits_cons,low,high]
    exact Nat.mod_add_div n 256

end NfvConsensus.Foundation.LittleEndian
