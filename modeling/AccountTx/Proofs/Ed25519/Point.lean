import AccountTx.Ed25519.Signature
import AccountTx.Proofs.Ed25519.Field
import Mathlib.Tactic.FieldSimp
import Mathlib.Tactic.LinearCombination

/-!
The points that are computed with are on the curve: the neutral point, the base point, sums and
multiples. The sum of two points is always a point because the constant of the curve is not a
square. The bytes of a point on the curve are those of a point, so every key derived from a seed is
one.
-/

namespace AccountTx.Ed25519

open Residue

namespace Point

/-- The point `(x / z, y / z)` satisfies the equation of the curve, and `t` is what it should be. -/
structure OnCurve (p : Point) : Prop where
  z_ne_zero : (p.z : Fp) ≠ 0
  product : (p.x : Fp) * p.y = p.z * p.t
  equation : (p.y : Fp) ^ 2 - p.x ^ 2 = p.z ^ 2 + d * p.t ^ 2

theorem onCurve_zero : zero.OnCurve where
  z_ne_zero := by
    rw [zero, Nat.cast_one]
    exact one_ne_zero
  product := by simp only [zero, Nat.cast_zero, zero_mul, mul_zero]
  equation := by
    simp only [zero, Nat.cast_zero, Nat.cast_one]
    ring

theorem onCurve_ofAffine {x y : Nat}
    (h : (y : Fp) ^ 2 - x ^ 2 = 1 + d * (x * y) ^ 2) : (ofAffine x y).OnCurve where
  z_ne_zero := by
    rw [ofAffine, Nat.cast_one]
    exact one_ne_zero
  product := by simp only [ofAffine, cast_mul, Nat.cast_one, one_mul]
  equation := by simpa only [ofAffine, cast_mul, Nat.cast_one, one_pow] using h

/-- The equation of the curve, solved for the square of the abscissa. -/
theorem equation_iff {x y : Fp} :
    (d * y ^ 2 + 1) * (x * x) = y ^ 2 - 1 ↔ y ^ 2 - x ^ 2 = 1 + d * (x * y) ^ 2 := by
  constructor <;> intro h <;> linear_combination -h

theorem onCurve_base : base.OnCurve := by
  let y := mul 4 (inverse 5)
  have hsome : (sqrtRatio? (sub (mul y y) 1) (Residue.add (mul d (mul y y)) 1)).isSome = true := by
    decide +kernel
  obtain ⟨x, hx⟩ := Option.isSome_iff_exists.mp hsome
  have hbase : base = ofAffine x y := by
    show ofAffine ((sqrtRatio? _ _).getD 0) y = _
    rw [hx]
    rfl
  have hroot := mul_self_of_sqrtRatio?_eq_some hx
  rw [hbase]
  refine onCurve_ofAffine (equation_iff.mp ?_)
  rw [pow_two]
  simpa only [cast_add, cast_sub, cast_mul, Nat.cast_one] using hroot

/-- No two points make a denominator of their sum zero, whichever sign `ε` it has: otherwise the
constant of the curve would be the quotient of two squares. -/
theorem OnCurve.denominator_ne_zero {p q : Point} (hp : p.OnCurve) (hq : q.OnCurve) {ε : Fp}
    (hε : ε ^ 2 = 1) : (p.z : Fp) * q.z - ε * (d * p.t * q.t) ≠ 0 := by
  intro hzero
  have hz : (p.z : Fp) * q.z = ε * (d * p.t * q.t) := sub_eq_zero.mp hzero
  have hnonzero : (p.z : Fp) * q.z ≠ 0 := mul_ne_zero hp.z_ne_zero hq.z_ne_zero
  have hp_t : (p.t : Fp) ≠ 0 := by
    intro h
    exact hnonzero (by rw [hz, h]; ring)
  have hq_t : (q.t : Fp) ≠ 0 := by
    intro h
    exact hnonzero (by rw [hz, h]; ring)
  -- By the equations of both points, for either square root `i` of minus one, the square of
  -- `q.z * (i * p.x + ε * p.y)` is `d` times that of `p.t * (q.y + i * q.x)`.
  have hsum {i : Fp} (hi : i ^ 2 = -1) : (q.y : Fp) + i * q.x = 0 := by
    have hsquares : ((q.z : Fp) * (i * p.x + ε * p.y)) * (q.z * (i * p.x + ε * p.y))
        = d * (p.t * (q.y + i * q.x) * (p.t * (q.y + i * q.x))) := by
      linear_combination (q.z ^ 2 * p.x ^ 2 - d * p.t ^ 2 * q.x ^ 2) * hi
        + (q.z ^ 2 * p.y ^ 2 + (d * p.t * q.t) ^ 2 + 2 * i * q.z * p.t * (d * p.t * q.t)) * hε
        + 2 * i * ε * q.z ^ 2 * hp.product - 2 * i * d * p.t ^ 2 * hq.product
        + q.z ^ 2 * hp.equation - d * p.t ^ 2 * hq.equation
        + (p.z * q.z + ε * (d * p.t * q.t) + 2 * i * ε * q.z * p.t) * hz
    exact (mul_eq_zero.mp (eq_zero_of_mul_self_eq_d_mul hsquares)).resolve_left hp_t
  have hroot : (rootMinusOne : Fp) ^ 2 = -1 := by rw [pow_two, rootMinusOne_mul_self]
  have hplus := hsum hroot
  have hminus := hsum (show (-(rootMinusOne : Fp)) ^ 2 = -1 by rw [neg_sq, hroot])
  have hy : (q.y : Fp) = 0 := by
    refine (mul_eq_zero.mp ?_).resolve_left Fp.two_ne_zero
    linear_combination hplus + hminus
  have hproduct := hq.product
  rw [hy, mul_zero] at hproduct
  exact mul_ne_zero hq.z_ne_zero hq_t hproduct.symm

theorem OnCurve.sum_of_squares_sq {p : Point} (hp : p.OnCurve) :
    ((p.x : Fp) ^ 2 + p.y ^ 2) ^ 2 = (p.z ^ 2 + d * p.t ^ 2) ^ 2 + 4 * (p.z * p.t) ^ 2 := by
  rw [← hp.equation, ← hp.product]
  ring

/-- The coordinates of a sum as products of two factors each. -/
theorem exists_factors_add (p q : Point) : ∃ f g h i : Fp,
    f = 2 * (p.x * q.y + p.y * q.x) ∧ g = 2 * (p.z * q.z - d * p.t * q.t) ∧
    h = 2 * (p.z * q.z + d * p.t * q.t) ∧ i = 2 * (p.y * q.y + p.x * q.x) ∧
    ((p.add q).x : Fp) = f * g ∧ ((p.add q).y : Fp) = h * i ∧
    ((p.add q).z : Fp) = g * h ∧ ((p.add q).t : Fp) = f * i := by
  refine ⟨_, _, _, _, rfl, rfl, rfl, rfl, ?_, ?_, ?_, ?_⟩ <;>
  · simp only [add, twoD, cast_mul, cast_add, cast_sub]
    ring

theorem OnCurve.add {p q : Point} (hp : p.OnCurve) (hq : q.OnCurve) : (p.add q).OnCurve := by
  obtain ⟨f, g, h, i, hf, hg, hh, hi, hx, hy, hz, ht⟩ := exists_factors_add p q
  have hg_ne : g ≠ 0 := by
    rw [hg]
    refine mul_ne_zero Fp.two_ne_zero ?_
    simpa only [one_mul] using hp.denominator_ne_zero hq (one_pow 2)
  have hh_ne : h ≠ 0 := by
    rw [hh]
    refine mul_ne_zero Fp.two_ne_zero ?_
    simpa only [neg_one_mul, sub_neg_eq_add] using
      hp.denominator_ne_zero hq (show (-1 : Fp) ^ 2 = 1 by rw [neg_sq, one_pow])
  refine ⟨?_, ?_, ?_⟩
  · rw [hz]
    exact mul_ne_zero hg_ne hh_ne
  · rw [hx, hy, hz, ht]
    ring
  · have hdifference : i ^ 2 - f ^ 2
        = 4 * ((p.z ^ 2 + d * p.t ^ 2) * (q.z ^ 2 + d * q.t ^ 2)) := by
      rw [← hp.equation, ← hq.equation, hi, hf]
      ring
    have hsum : i ^ 2 + f ^ 2 = 4 * ((p.x ^ 2 + p.y ^ 2) * (q.x ^ 2 + q.y ^ 2)
        + 4 * (p.z * p.t) * (q.z * q.t)) := by
      rw [← hp.product, ← hq.product, hi, hf]
      ring
    have hproduct : f * i = 4 * (p.z * p.t * (q.x ^ 2 + q.y ^ 2)
        + q.z * q.t * (p.x ^ 2 + p.y ^ 2)) := by
      rw [← hp.product, ← hq.product, hi, hf]
      ring
    rw [hx, hy, hz, ht, hg, hh]
    linear_combination
      4 * ((p.z * q.z) ^ 2 + (d * p.t * q.t) ^ 2) * hdifference
        + 8 * (p.z * q.z) * (d * p.t * q.t) * hsum
        - d * (f * i + 4 * (p.z * p.t * (q.x ^ 2 + q.y ^ 2)
            + q.z * q.t * (p.x ^ 2 + p.y ^ 2))) * hproduct
        - 16 * d * (p.z * p.t) ^ 2 * hq.sum_of_squares_sq
        - 16 * d * (q.z * q.t) ^ 2 * hp.sum_of_squares_sq

/-- Doubling and adding stays on the curve at each bit. -/
theorem OnCurve.scale {p : Point} (hp : p.OnCurve) (n : Nat) : (p.scale n).OnCurve := by
  rw [Point.scale]
  induction bits 256 n with
  | nil => exact onCurve_zero
  | cons bit rest ih =>
      rw [List.foldr_cons]
      cases bit with
      | false => exact ih.add ih
      | true => exact (ih.add ih).add hp

/-- The height that 32 bytes stand for. -/
def height (bytes : Bytes) : Nat := BigEndian.toNat bytes.reverse % Nat.pow 2 255 % prime

end Point

/-- The bytes are a point if the curve has one of that height. -/
theorem isPoint_iff (bytes : Bytes) : isPoint bytes = true ↔
    ∃ x : Fp, (Point.height bytes : Fp) ^ 2 - x ^ 2
      = 1 + d * (x * Point.height bytes) ^ 2 := by
  simp only [isPoint, Point.decompress?, Option.isSome_map, isSome_sqrtRatio?_iff]
  rw [← Point.height]
  simp only [cast_sub, cast_add, cast_mul, Nat.cast_one, ← pow_two (Point.height bytes : Fp),
    Point.equation_iff]

namespace Point

theorem height_compress (p : Point) : height p.compress = mul p.y (inverse p.z) := by
  have hy : mul p.y (inverse p.z) < prime := mul_lt _ _
  have hy_bits : mul p.y (inverse p.z) < Nat.pow 2 255 := hy.trans (by decide +kernel)
  have hparity : mul p.x (inverse p.z) % 2 ≤ 1 := Nat.le_of_lt_succ (Nat.mod_lt _ Nat.two_pos)
  have hbits : mul p.y (inverse p.z) + mul p.x (inverse p.z) % 2 * Nat.pow 2 255
      < Nat.pow 256 32 :=
    calc
      _ < Nat.pow 2 255 + 1 * Nat.pow 2 255 :=
        Nat.add_lt_add_of_lt_of_le hy_bits (Nat.mul_le_mul_right _ hparity)
      _ = Nat.pow 256 32 := by decide +kernel
  rw [height, compress, List.reverse_reverse, BigEndian.toNat_ofNat_of_lt hbits,
    Nat.add_mul_mod_self_right, Nat.mod_eq_of_lt hy_bits, Nat.mod_eq_of_lt hy]

/-- A point of the curve is written as bytes that are a point. -/
theorem OnCurve.isPoint_compress {p : Point} (hp : p.OnCurve) : isPoint p.compress = true := by
  have hz := hp.z_ne_zero
  refine (isPoint_iff _).mpr ⟨p.x / p.z, ?_⟩
  rw [height_compress, cast_mul, cast_inverse, ← div_eq_mul_inv, div_mul_div_comm, hp.product]
  field_simp
  linear_combination hp.equation

end Point

/-- The public key of every seed is a point. -/
theorem isPoint_publicKey (seed : Bytes) : isPoint (publicKey seed) = true :=
  (Point.onCurve_base.scale _).isPoint_compress

end AccountTx.Ed25519
