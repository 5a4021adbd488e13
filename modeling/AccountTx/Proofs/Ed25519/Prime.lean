import AccountTx.Ed25519.Curve
import Mathlib.Data.List.Prime
import Mathlib.NumberTheory.LucasPrimality
import Mathlib.Tactic.NormNum.Prime

/-!
The modulus `p` of the field is a prime number: a witness has the order `p - 1` modulo `p`, as only
a prime allows. Finding the order takes the prime factors of `p - 1`, and the large ones pass the
same test in turn. Powers are taken by squaring and multiplying, as those of residues are.
-/

namespace AccountTx.Ed25519

namespace Residue

/-- A power modulo any number, for exponents of so many bits, as `pow` takes it. -/
def powMod (m a count exponent : Nat) : Nat :=
  (bits count exponent).foldr (fun bit r => if bit then r * r % m * a % m else r * r % m) 1

theorem pow_eq_powMod (a exponent : Nat) : pow a exponent = powMod prime a 256 exponent := rfl

theorem powMod_eq {m : Nat} (hm : 1 < m) (a : Nat) {count exponent : Nat}
    (h : exponent < 2 ^ count) : powMod m a count exponent = a ^ exponent % m := by
  induction count generalizing exponent with
  | zero =>
      obtain rfl : exponent = 0 := Nat.lt_one_iff.mp h
      exact (Nat.mod_eq_of_lt hm).symm
  | succ count ih =>
      have hhalf : powMod m a count (exponent / 2) = a ^ (exponent / 2) % m :=
        ih (Nat.div_lt_of_lt_mul (by omega))
      have hsquare : a ^ (exponent / 2) % m * (a ^ (exponent / 2) % m) % m
          = a ^ (2 * (exponent / 2)) % m := by
        rw [← Nat.mul_mod, ← pow_add, two_mul]
      rw [powMod, bits, List.foldr_cons, ← powMod, hhalf, hsquare]
      rcases Nat.mod_two_eq_zero_or_one exponent with heven | hodd
      · rw [if_neg (by simp [heven]), Nat.mul_div_cancel' (Nat.dvd_of_mod_eq_zero heven)]
      · rw [if_pos (by simp [hodd]), Nat.mod_mul_mod, ← pow_succ]
        congr 2
        omega

end Residue

open Residue (powMod powMod_eq)

/-- Whether a witness has the order `p - 1` modulo `p`, given the prime powers whose product that
is. -/
def orderTest (p witness : Nat) (factors : List (Nat × Nat)) : Bool :=
  decide (1 < p) && decide (p < 2 ^ 256) && (factors.map fun q => q.1 ^ q.2).prod + 1 == p
    && powMod p witness 256 (p - 1) == 1
    && factors.all fun q => powMod p witness 256 ((p - 1) / q.1) != 1

theorem prime_of_orderTest {p : Nat} (witness : Nat) (factors : List (Nat × Nat))
    (hfactors : factors.Forall fun q => q.1.Prime) (h : orderTest p witness factors = true) :
    p.Prime := by
  simp only [orderTest, Bool.and_eq_true, decide_eq_true_eq, beq_iff_eq, List.all_eq_true,
    bne_iff_ne] at h
  obtain ⟨⟨⟨⟨hone, hbits⟩, hprod⟩, hfull⟩, hparts⟩ := h
  have hpow (n : Nat) (hn : n ≤ p - 1) :
      (witness : ZMod p) ^ n = 1 ↔ powMod p witness 256 n = 1 := by
    rw [powMod_eq hone _ (by omega), ← Nat.cast_pow, ← Nat.cast_one,
      ZMod.natCast_eq_natCast_iff', Nat.mod_eq_of_lt hone]
  refine lucas_primality p witness ((hpow _ (Nat.le_refl _)).mpr hfull) fun q hq hdvd => ?_
  obtain ⟨n, hn, hqn⟩ := (Prime.dvd_prod_iff hq.prime).mp
    (show q ∣ (factors.map fun q => q.1 ^ q.2).prod by rwa [← hprod, Nat.add_sub_cancel] at hdvd)
  obtain ⟨factor, hmem, rfl⟩ := List.mem_map.mp hn
  have hprime : factor.1.Prime := List.forall_iff_forall_mem.mp hfactors factor hmem
  obtain rfl := (Nat.prime_dvd_prime_iff_eq hq hprime).mp (hq.dvd_of_dvd_pow hqn)
  rw [Ne, hpow _ (Nat.div_le_self _ _)]
  exact hparts factor hmem

theorem prime_prime : prime.Prime := by
  have h₁ : Nat.Prime 2773320623 :=
    prime_of_orderTest 5 [(2, 1), (2437, 1), (569003, 1)]
      ⟨Nat.prime_two, by norm_num, by norm_num⟩ (by decide +kernel)
  have h₂ : Nat.Prime 72106336199 :=
    prime_of_orderTest 7 [(2, 1), (13, 1), (2773320623, 1)]
      ⟨Nat.prime_two, by norm_num, h₁⟩ (by decide +kernel)
  have h₃ : Nat.Prime 1919519569386763 :=
    prime_of_orderTest 2 [(2, 1), (3, 1), (7, 1), (19, 1), (47, 2), (127, 1), (8574133, 1)]
      ⟨Nat.prime_two, Nat.prime_three, by norm_num, by norm_num, by norm_num, by norm_num,
        by norm_num⟩ (by decide +kernel)
  have h₄ : Nat.Prime 75445702479781427272750846543864801 :=
    prime_of_orderTest 7
      [(2, 5), (3, 2), (5, 2), (75707, 1), (72106336199, 1), (1919519569386763, 1)]
      ⟨Nat.prime_two, Nat.prime_three, Nat.prime_five, by norm_num, h₂, h₃⟩ (by decide +kernel)
  have h₅ : Nat.Prime 31757755568855353 :=
    prime_of_orderTest 10
      [(2, 3), (3, 1), (31, 1), (107, 1), (223, 1), (4153, 1), (430751, 1)]
      ⟨Nat.prime_two, Nat.prime_three, by norm_num, by norm_num, by norm_num, by norm_num,
        by norm_num⟩ (by decide +kernel)
  have h₆ : Nat.Prime 74058212732561358302231226437062788676166966415465897661863160754340907 :=
    prime_of_orderTest 2
      [(2, 1), (3, 1), (353, 1), (57467, 1), (132049, 1), (1923133, 1), (31757755568855353, 1),
        (75445702479781427272750846543864801, 1)]
      ⟨Nat.prime_two, Nat.prime_three, by norm_num, by norm_num, by norm_num, by norm_num, h₅, h₄⟩
      (by decide +kernel)
  exact prime_of_orderTest 2
    [(2, 2), (3, 1), (65147, 1),
      (74058212732561358302231226437062788676166966415465897661863160754340907, 1)]
    ⟨Nat.prime_two, Nat.prime_three, by norm_num, h₆⟩ (by decide +kernel)

end AccountTx.Ed25519
