/-!
Byte strings, byte strings of a fixed length, and numbers written with their most significant byte
first. Reading a number back from the bytes written for it gives the number, as long as it fits the
width.
-/

namespace AccountTx

abbrev Bytes := List UInt8

/-- A byte string of exactly `n` bytes. -/
@[ext] structure FixedBytes (n : Nat) where
  toList : Bytes
  length_eq : toList.length = n
  deriving DecidableEq

namespace FixedBytes

def ofList? (n : Nat) (bytes : Bytes) : Option (FixedBytes n) :=
  if h : bytes.length = n then some ⟨bytes, h⟩ else none

@[simp] theorem ofList?_toList {n : Nat} (b : FixedBytes n) : ofList? n b.toList = some b := by
  simp [ofList?, b.length_eq]

theorem ofList?_eq_none_iff {n : Nat} {bytes : Bytes} :
    ofList? n bytes = none ↔ bytes.length ≠ n := by
  simp [ofList?]

end FixedBytes

namespace BigEndian

/-- The low `width` bytes of a number, most significant first. -/
def ofNat : Nat → Nat → Bytes
  | 0, _ => []
  | width + 1, n => UInt8.ofNat (n / Nat.pow 256 width) :: ofNat width n

def toNat (bytes : Bytes) : Nat :=
  bytes.foldl (fun n b => n * 256 + b.toNat) 0

@[simp] theorem length_ofNat (width n : Nat) : (ofNat width n).length = width := by
  induction width with
  | zero => rfl
  | succ width ih => simp [ofNat, ih]

theorem pow_succ (width : Nat) : Nat.pow 256 (width + 1) = Nat.pow 256 width * 256 := rfl

theorem foldl_eq (bytes : Bytes) (n : Nat) :
    bytes.foldl (fun n b => n * 256 + b.toNat) n = n * Nat.pow 256 bytes.length + toNat bytes := by
  induction bytes generalizing n with
  | nil => simp [toNat]
  | cons b bytes ih =>
      simp only [toNat, List.foldl_cons, List.length_cons]
      rw [ih, ih (0 * 256 + b.toNat)]
      rw [pow_succ, Nat.zero_mul, Nat.zero_add, Nat.add_mul, Nat.mul_assoc,
        Nat.mul_comm 256, Nat.add_assoc]

theorem toNat_cons (b : UInt8) (bytes : Bytes) :
    toNat (b :: bytes) = b.toNat * Nat.pow 256 bytes.length + toNat bytes := by
  rw [toNat, List.foldl_cons, foldl_eq, Nat.zero_mul, Nat.zero_add]

theorem toNat_lt (bytes : Bytes) : toNat bytes < Nat.pow 256 bytes.length := by
  induction bytes with
  | nil => exact Nat.zero_lt_one
  | cons b bytes ih =>
      have hb : b.toNat + 1 ≤ 256 := b.toNat_lt
      have hmul := Nat.mul_le_mul_right (Nat.pow 256 bytes.length) hb
      rw [toNat_cons, List.length_cons, pow_succ, Nat.mul_comm _ 256]
      rw [Nat.add_mul] at hmul
      omega

theorem toNat_ofNat (width n : Nat) : toNat (ofNat width n) = n % Nat.pow 256 width := by
  induction width with
  | zero => exact (Nat.mod_one n).symm
  | succ width ih =>
      rw [ofNat, toNat_cons, length_ofNat, ih, pow_succ, Nat.mod_mul, UInt8.toNat_ofNat',
        Nat.mul_comm, Nat.add_comm]

theorem toNat_ofNat_of_lt {width n : Nat} (h : n < Nat.pow 256 width) :
    toNat (ofNat width n) = n := by
  rw [toNat_ofNat, Nat.mod_eq_of_lt h]

theorem ofNat_toNat (bytes : Bytes) : ofNat bytes.length (toNat bytes) = bytes := by
  suffices h : ∀ n, ofNat bytes.length (n * Nat.pow 256 bytes.length + toNat bytes) = bytes by
    simpa using h 0
  induction bytes with
  | nil => simp [ofNat]
  | cons b bytes ih =>
      intro n
      have hlt := toNat_lt bytes
      have hpos : 0 < Nat.pow 256 bytes.length := Nat.lt_of_le_of_lt (Nat.zero_le _) hlt
      have heq : n * Nat.pow 256 (bytes.length + 1) + toNat (b :: bytes)
          = (n * 256 + b.toNat) * Nat.pow 256 bytes.length + toNat bytes := by
        rw [toNat_cons, pow_succ, Nat.add_mul, Nat.mul_assoc, Nat.mul_comm 256, Nat.add_assoc]
      have hdiv : ((n * 256 + b.toNat) * Nat.pow 256 bytes.length + toNat bytes)
          / Nat.pow 256 bytes.length = n * 256 + b.toNat := by
        rw [Nat.add_comm, Nat.add_mul_div_right _ _ hpos, Nat.div_eq_of_lt hlt, Nat.zero_add]
      rw [List.length_cons, heq, ofNat, ih, hdiv]
      congr 1
      apply UInt8.toNat_inj.mp
      simp

end BigEndian

end AccountTx
