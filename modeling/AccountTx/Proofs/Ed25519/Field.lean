import AccountTx.Proofs.Ed25519.Prime
import Mathlib.NumberTheory.LegendreSymbol.Basic

/-!
Residues as elements of the field. The operations on residues are those of the field; minus one is a
square in it, the constant of the curve is not, and the square root of a quotient is found whenever
there is one.
-/

namespace AccountTx.Ed25519

instance : Fact prime.Prime := ⟨prime_prime⟩

/-- The field of the curve. -/
abbrev Fp : Type := ZMod prime

theorem prime_pos : 0 < prime := prime_prime.pos

namespace Residue

@[simp] theorem cast_add (a b : Nat) : (add a b : Fp) = a + b := by
  rw [add, ZMod.natCast_mod, Nat.cast_add]

@[simp] theorem cast_mul (a b : Nat) : (mul a b : Fp) = a * b := by
  rw [mul, ZMod.natCast_mod, Nat.cast_mul]

@[simp] theorem cast_sub (a b : Nat) : (sub a b : Fp) = a - b := by
  rw [sub, ZMod.natCast_mod, Nat.cast_add, Nat.cast_sub (Nat.mod_lt b prime_pos).le,
    ZMod.natCast_mod, ZMod.natCast_self]
  ring

theorem cast_pow (a : Nat) {exponent : Nat} (h : exponent < 2 ^ 256) :
    (pow a exponent : Fp) = (a : Fp) ^ exponent := by
  rw [pow_eq_powMod, powMod_eq prime_prime.one_lt a h, ZMod.natCast_mod, Nat.cast_pow]

@[simp] theorem cast_inverse (a : Nat) : (inverse a : Fp) = (a : Fp)⁻¹ := by
  rw [inverse, cast_pow a (by decide +kernel)]
  rcases eq_or_ne (a : Fp) 0 with hzero | hne
  · rw [hzero, inv_zero, zero_pow (by decide +kernel)]
  · have hpow := ZMod.pow_card_sub_one_eq_one hne
    rw [show prime - 1 = prime - 2 + 1 by decide +kernel, pow_succ] at hpow
    exact eq_inv_of_mul_eq_one_left hpow

theorem mul_lt (a b : Nat) : mul a b < prime := Nat.mod_lt _ prime_pos

theorem sub_lt (a b : Nat) : sub a b < prime := Nat.mod_lt _ prime_pos

theorem cast_eq_iff {a b : Nat} (ha : a < prime) (hb : b < prime) : (a : Fp) = b ↔ a = b := by
  rw [ZMod.natCast_eq_natCast_iff', Nat.mod_eq_of_lt ha, Nat.mod_eq_of_lt hb]

end Residue

open Residue

/-! ### Squares -/

theorem Fp.two_ne_zero : (2 : Fp) ≠ 0 := by
  rw [Ne, ← Nat.cast_two, ZMod.natCast_eq_zero_iff]
  decide +kernel

theorem rootMinusOne_mul_self : (rootMinusOne : Fp) * rootMinusOne = -1 := by
  have h : mul rootMinusOne rootMinusOne = sub 0 1 := by decide +kernel
  rw [← cast_mul, h, cast_sub, Nat.cast_zero, Nat.cast_one, zero_sub]

theorem d_ne_zero : (d : Fp) ≠ 0 := by
  rw [Ne, ZMod.natCast_eq_zero_iff]
  decide +kernel

/-- Its power that would be one for a square is not one. -/
theorem not_isSquare_d : ¬ IsSquare (d : Fp) := by
  rw [ZMod.euler_criterion prime d_ne_zero, ← cast_pow d (by decide +kernel), ← Nat.cast_one,
    ZMod.natCast_eq_natCast_iff']
  decide +kernel

/-- A square that is `d` times another square is zero, and so is the other. -/
theorem eq_zero_of_mul_self_eq_d_mul {a b : Fp} (h : a * a = d * (b * b)) : b = 0 := by
  by_contra hb
  refine not_isSquare_d ⟨a / b, ?_⟩
  rw [div_mul_div_comm, h, mul_div_cancel_right₀ _ (mul_ne_zero hb hb)]

/-! ### Roots of quotients -/

namespace Residue

/-- The root of `u / v` up to a fourth root of unity. -/
def candidate (u v : Nat) : Nat :=
  let v3 := mul (mul v v) v
  mul (mul u v3) (pow (mul u (mul (mul v3 v3) v)) ((prime - 5) / 8))

/-- Of a residue and its negation, the one that is even as a number. -/
def evenOf (r : Nat) : Nat := if r % 2 = 0 then r else sub 0 r

theorem sqrtRatio?_eq (u v : Nat) : sqrtRatio? u v =
    if mul v (mul (candidate u v) (candidate u v)) = u % prime then
      some (evenOf (candidate u v))
    else if mul v (mul (candidate u v) (candidate u v)) = sub 0 u then
      some (evenOf (mul (candidate u v) rootMinusOne))
    else none := rfl

theorem evenOf_mul_self (r : Nat) : (evenOf r : Fp) * evenOf r = r * r := by
  rw [evenOf]
  split
  · rfl
  · rw [cast_sub, Nat.cast_zero, zero_sub, neg_mul_neg]

theorem cast_check (u v : Nat) :
    ((mul v (mul (candidate u v) (candidate u v)) : Nat) : Fp)
      = u * (u * v ^ 7) ^ ((prime - 1) / 4) := by
  have hexponent : (prime - 1) / 4 = 2 * ((prime - 5) / 8) + 1 := by decide +kernel
  simp only [candidate, cast_mul, cast_pow _ (show (prime - 5) / 8 < 2 ^ 256 by decide +kernel)]
  rw [hexponent, pow_succ, pow_mul]
  ring

theorem check_eq_iff (u v : Nat) :
    mul v (mul (candidate u v) (candidate u v)) = u % prime
      ↔ (u : Fp) * (u * v ^ 7) ^ ((prime - 1) / 4) = u := by
  rw [← cast_eq_iff (mul_lt _ _) (Nat.mod_lt _ prime_pos), cast_check, ZMod.natCast_mod]

theorem check_eq_neg_iff (u v : Nat) :
    mul v (mul (candidate u v) (candidate u v)) = sub 0 u
      ↔ (u : Fp) * (u * v ^ 7) ^ ((prime - 1) / 4) = -u := by
  rw [← cast_eq_iff (mul_lt _ _) (sub_lt _ _), cast_check, cast_sub, Nat.cast_zero, zero_sub]

/-- What is found is a root. -/
theorem mul_self_of_sqrtRatio?_eq_some {u v r : Nat} (h : sqrtRatio? u v = some r) :
    (v : Fp) * (r * r) = u := by
  rw [sqrtRatio?_eq] at h
  split at h
  case isTrue hcheck =>
    obtain rfl := Option.some.inj h
    rw [evenOf_mul_self, ← cast_mul, ← cast_mul, hcheck, ZMod.natCast_mod]
  case isFalse =>
    split at h
    case isTrue hcheck =>
      obtain rfl := Option.some.inj h
      have hneg : (v : Fp) * (candidate u v * candidate u v) = -u := by
        rw [← cast_mul, ← cast_mul, hcheck, cast_sub, Nat.cast_zero, zero_sub]
      rw [evenOf_mul_self, cast_mul, mul_mul_mul_comm, rootMinusOne_mul_self, mul_neg_one, mul_neg,
        hneg, neg_neg]
    case isFalse => cases h

/-- With `u = v * x ^ 2`, the power is one of a square, hence a square root of one. -/
theorem mul_pow_quarter {u v x : Fp} (h : v * (x * x) = u) :
    u * (u * v ^ 7) ^ ((prime - 1) / 4) = u ∨ u * (u * v ^ 7) ^ ((prime - 1) / 4) = -u := by
  rcases eq_or_ne u 0 with rfl | hu
  · simp
  · have hsquare : u * v ^ 7 = (v ^ 4 * x) ^ 2 := by rw [← h]; ring
    have hroot : v ^ 4 * x ≠ 0 := by
      refine mul_ne_zero (pow_ne_zero 4 ?_) ?_ <;>
      · rintro rfl
        exact hu (by rw [← h]; ring)
    rw [hsquare, ← pow_mul, show 2 * ((prime - 1) / 4) = prime / 2 by decide +kernel]
    rcases ZMod.pow_div_two_eq_neg_one_or_one prime hroot with h1 | h1 <;> rw [h1]
    · exact .inl (mul_one u)
    · exact .inr (mul_neg_one u)

/-- A root is found if and only if there is one. -/
theorem isSome_sqrtRatio?_iff (u v : Nat) :
    (sqrtRatio? u v).isSome = true ↔ ∃ x : Fp, v * (x * x) = u := by
  constructor
  · intro h
    obtain ⟨r, hr⟩ := Option.isSome_iff_exists.mp h
    exact ⟨r, mul_self_of_sqrtRatio?_eq_some hr⟩
  · rintro ⟨x, hx⟩
    rw [sqrtRatio?_eq]
    rcases mul_pow_quarter hx with h | h
    · rw [if_pos ((check_eq_iff u v).mpr h)]
      rfl
    · split
      · rfl
      · rw [if_pos ((check_eq_neg_iff u v).mpr h)]
        rfl

end Residue

end AccountTx.Ed25519
