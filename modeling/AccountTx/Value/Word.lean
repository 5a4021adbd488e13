/-!
Arithmetic on 64-bit words that notices when the exact result is no such word. Main statements: each
operation gives a word exactly when that word is the exact result, and sums and products give none
exactly when they are too large.
-/

namespace AccountTx.Word

/-- A sum that wrapped around is below either summand. -/
def add? (a b : UInt64) : Option UInt64 :=
  if a + b < a then none else some (a + b)

def sub? (a b : UInt64) : Option UInt64 :=
  if a < b then none else some (a - b)

/-- A product fits if one factor is at most what the other leaves room for. -/
def mul? (a b : UInt64) : Option UInt64 :=
  if b = 0 then some 0
  else if a ≤ 18446744073709551615 / b then some (a * b)
  else none

theorem add?_eq_some_iff {a b c : UInt64} :
    add? a b = some c ↔ a.toNat + b.toNat = c.toNat := by
  have ha := a.toNat_lt
  have hb := b.toNat_lt
  have hc := c.toNat_lt
  have hsum : (a + b).toNat = (a.toNat + b.toNat) % 2 ^ 64 := UInt64.toNat_add a b
  unfold add?
  split
  next h =>
    have hlt := UInt64.lt_iff_toNat_lt.mp h
    constructor
    · simp
    · intro heq
      omega
  next h =>
    have hge : ¬ (a + b).toNat < a.toNat := fun hlt => h (UInt64.lt_iff_toNat_lt.mpr hlt)
    rw [Option.some.injEq, ← UInt64.toNat_inj, hsum]
    omega

theorem sub?_eq_some_iff {a b c : UInt64} :
    sub? a b = some c ↔ a.toNat = b.toNat + c.toNat := by
  have hc := c.toNat_lt
  unfold sub?
  split
  next h =>
    have hlt := UInt64.lt_iff_toNat_lt.mp h
    constructor
    · simp
    · intro heq
      omega
  next h =>
    have hle : b ≤ a := UInt64.not_lt.mp h
    have hle' := UInt64.le_iff_toNat_le.mp hle
    rw [Option.some.injEq, ← UInt64.toNat_inj, UInt64.toNat_sub_of_le _ _ hle]
    omega

/-- Where the difference is no word, zero stands for it, as in subtraction of natural numbers. -/
theorem sub?_getD_zero (a b : UInt64) : (sub? a b).getD 0 = UInt64.ofNat (a.toNat - b.toNat) := by
  have ha := a.toNat_lt
  cases hsub : sub? a b with
  | none =>
      have hlt : a < b := by simpa [sub?] using hsub
      have hle := Nat.le_of_lt (UInt64.lt_iff_toNat_lt.mp hlt)
      rw [Nat.sub_eq_zero_of_le hle]
      rfl
  | some c =>
      have hc := sub?_eq_some_iff.mp hsub
      have hdiff : a.toNat - b.toNat = c.toNat := by omega
      rw [hdiff, UInt64.ofNat_toNat, Option.getD_some]

theorem mul?_eq_some_iff {a b c : UInt64} :
    mul? a b = some c ↔ a.toNat * b.toNat = c.toNat := by
  have hc := c.toNat_lt
  unfold mul?
  split
  next h =>
    subst h
    rw [Option.some.injEq, ← UInt64.toNat_inj]
    simp
  next h =>
    have hb : 0 < b.toNat := by
      refine Nat.pos_of_ne_zero fun h0 => h (UInt64.toNat_inj.mp ?_)
      simpa using h0
    have hroom : a ≤ 18446744073709551615 / b ↔ a.toNat * b.toNat < 2 ^ 64 := by
      rw [UInt64.le_iff_toNat_le, UInt64.toNat_div, Nat.le_div_iff_mul_le hb]
      simp
      omega
    split
    next hle =>
      have hlt := hroom.mp hle
      rw [Option.some.injEq, ← UInt64.toNat_inj, UInt64.toNat_mul, Nat.mod_eq_of_lt hlt]
    next hgt =>
      have hge := mt hroom.mpr hgt
      constructor
      · simp
      · intro heq
        omega

/-! ### Results that are no words -/

/-- A number that fits a word, as a word. -/
theorem exists_eq_toNat {n : Nat} (h : n < UInt64.size) : ∃ w : UInt64, n = w.toNat :=
  ⟨UInt64.ofNat n, (UInt64.toNat_ofNat_of_lt' h).symm⟩

/-- An operation that gives the exact result wherever this is a word gives none where it is not. -/
theorem eq_none_iff_of_eq_some_iff {word? : Option UInt64} {n : Nat}
    (hword : ∀ w, word? = some w ↔ n = w.toNat) : word? = none ↔ UInt64.size ≤ n := by
  constructor
  · rintro rfl
    refine Nat.not_lt.mp fun hlt => ?_
    obtain ⟨w, hw⟩ := exists_eq_toNat hlt
    cases (hword w).mpr hw
  · intro hle
    cases word? with
    | none => rfl
    | some w =>
        have hn := (hword w).mp rfl
        have hlt : w.toNat < UInt64.size := w.toNat_lt
        omega

theorem add?_eq_none_iff {a b : UInt64} : add? a b = none ↔ UInt64.size ≤ a.toNat + b.toNat :=
  eq_none_iff_of_eq_some_iff fun _ => add?_eq_some_iff

theorem mul?_eq_none_iff {a b : UInt64} : mul? a b = none ↔ UInt64.size ≤ a.toNat * b.toNat :=
  eq_none_iff_of_eq_some_iff fun _ => mul?_eq_some_iff

end AccountTx.Word
