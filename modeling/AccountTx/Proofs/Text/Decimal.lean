import AccountTx.Form.Value
import AccountTx.Text.Decimal
import Mathlib.Algebra.Order.Ring.Nat

/-!
Numbers in decimal. The digits that are written for a number have the value of the number, with or
without zeros before them, and an index is read from exactly the digits that are written for it.
-/

namespace AccountTx

theorem Json.digitsValue_eq (ds : List Char) : digitsValue ds = Nat.ofDigitChars 10 ds 0 := by
  rw [digitsValue, Nat.ofDigitChars]
  congr 1
  funext m c
  rw [Nat.mul_comm]
  rfl

theorem Json.digitsValue_toDigits (n : Nat) : digitsValue (Nat.toDigits 10 n) = n := by
  rw [digitsValue_eq, Nat.ofDigitChars_ten_toDigits]

theorem toList_toString_nat (n : Nat) : (toString n).toList = Nat.toDigits 10 n := by
  rw [Nat.toString_eq_ofList_toDigits, String.toList_ofList]

theorem toList_toString_byte (k : UInt8) : (toString k).toList = Nat.toDigits 10 k.toNat :=
  toList_toString_nat k.toNat

theorem index?_eq_some_iff {ds : List Char} {k : UInt8} :
    index? ds = some k ↔ ds = (toString k).toList := by
  rw [index?, toList_toString_byte, toList_toString_nat]
  constructor
  · intro h
    split at h
    next hdigits =>
      obtain ⟨-, hlt, hspelled⟩ := hdigits
      have hk : k.toNat = Json.digitsValue ds := by
        rw [← Option.some.inj h, UInt8.toNat_ofNat_of_lt' hlt]
      rw [hk, hspelled]
    next => cases h
  · rintro rfl
    have hlength : (Nat.toDigits 10 k.toNat).length ≤ 3 :=
      (Nat.length_toDigits_le_iff (by decide) (by decide)).mpr
        (Nat.lt_of_lt_of_le k.toNat_lt (by decide))
    rw [Json.digitsValue_toDigits, if_pos ⟨hlength, k.toNat_lt, rfl⟩, UInt8.ofNat_toNat]

@[simp] theorem index?_toString (k : UInt8) : index? (toString k).toList = some k :=
  index?_eq_some_iff.mpr rfl

theorem toString_byte_inj {k l : UInt8} (h : toString k = toString l) : k = l := by
  have hk := index?_toString k
  rw [h, index?_toString] at hk
  exact (Option.some.inj hk).symm

/-! ### Numbers of a least width -/

namespace Text

variable {width n : Nat}

theorem toList_pad (width n : Nat) :
    (pad width n).toList = (Nat.toDigits 10 n).leftpad width '0' :=
  String.toList_ofList

/-- A number that has no more digits than the width asks for is exactly so wide. -/
theorem length_pad (hpos : 0 < width) (hlt : n < 10 ^ width) :
    (pad width n).toList.length = width := by
  have hle : (Nat.toDigits 10 n).length ≤ width :=
    (Nat.length_toDigits_le_iff (by decide) hpos).mpr hlt
  rw [toList_pad, List.length_leftpad, Nat.max_eq_left hle]

theorem isDigit_of_mem_pad {c : Char} (h : c ∈ (pad width n).toList) : c.isDigit = true := by
  rw [toList_pad, List.leftpad, List.mem_append] at h
  rcases h with hzero | hdigit
  · rw [List.eq_of_mem_replicate hzero]
    rfl
  · exact Nat.isDigit_of_mem_toDigits (by decide) (by decide) hdigit

theorem ofDigitChars_pad (width n : Nat) : Nat.ofDigitChars 10 (pad width n).toList 0 = n := by
  rw [toList_pad, List.leftpad, Nat.ofDigitChars_append, Nat.ofDigitChars_replicate_zero,
    Nat.mul_zero, Nat.ofDigitChars_ten_toDigits]

/-- Digits before a number of the given width count as many powers of ten more. -/
theorem ofDigitChars_pad_behind (hpos : 0 < width) (hlt : n < 10 ^ width) (before : Nat) :
    Nat.ofDigitChars 10 (pad width n).toList before = 10 ^ width * before + n := by
  rw [Nat.ofDigitChars_eq_ofDigitChars_zero, ofDigitChars_pad, length_pad hpos hlt]

end Text

end AccountTx
