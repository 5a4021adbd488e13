import AccountTx.Value.Energy
import Mathlib.Algebra.Order.Ring.Nat

/-!
The charge for a transaction is the exact sum of its parts, and fails only where that sum is no
64-bit word; no step on the way overflows before the sum does.
-/

namespace AccountTx

namespace Energy

/-- The checked sum is the exact one. -/
theorem total_eq_some_iff {signatures : UInt32} {base : UInt64} {headerSize payloadSize : UInt32}
    {value : UInt64} :
    (do
      let forSignatures ← Word.mul? Limits.energyPerSignature signatures.toUInt64
      let size ← Word.add? headerSize.toUInt64 payloadSize.toUInt64
      let forBytes ← Word.mul? size Limits.energyPerByte
      let charged ← Word.add? base forSignatures
      Word.add? charged forBytes) = some value ↔
      base.toNat + 100 * signatures.toNat + headerSize.toNat + payloadSize.toNat
        = value.toNat := by
  have hper : Limits.energyPerSignature.toNat = 100 := rfl
  have hbyte : Limits.energyPerByte.toNat = 1 := rfl
  simp only [Option.bind_eq_bind, Option.bind_eq_some_iff, Word.mul?_eq_some_iff,
    Word.add?_eq_some_iff, UInt32.toNat_toUInt64, hper, hbyte]
  constructor
  · rintro ⟨forSignatures, _, size, _, forBytes, _, charged, _, _⟩
    omega
  -- no partial sum exceeds the whole, which is a word
  · intro h
    have hvalue : value.toNat < UInt64.size := value.toNat_lt
    obtain ⟨forSignatures, hs⟩ := Word.exists_eq_toNat (n := 100 * signatures.toNat) (by omega)
    obtain ⟨size, hsize⟩ :=
      Word.exists_eq_toNat (n := headerSize.toNat + payloadSize.toNat) (by omega)
    obtain ⟨charged, hcharged⟩ :=
      Word.exists_eq_toNat (n := base.toNat + 100 * signatures.toNat) (by omega)
    exact ⟨forSignatures, hs, size, hsize, size, Nat.mul_one _, charged, by omega, by omega⟩

theorem cost_eq_ok_iff {signatures : UInt32} {base : Energy} {headerSize payloadSize : UInt32}
    {e : Energy} :
    cost signatures base headerSize payloadSize = .ok e ↔
      base.value.toNat + 100 * signatures.toNat + headerSize.toNat + payloadSize.toNat
        = e.value.toNat := by
  rw [← total_eq_some_iff]
  simp only [cost]
  split
  next value heq =>
    rw [heq, Except.ok.injEq, Option.some.injEq]
    exact ⟨fun h => h ▸ rfl, fun h => h ▸ rfl⟩
  next heq =>
    rw [heq]
    exact iff_of_false nofun nofun

theorem cost_eq_error_iff {signatures : UInt32} {base : Energy} {headerSize payloadSize : UInt32}
    {e : EnergyError} :
    cost signatures base headerSize payloadSize = .error e ↔
      UInt64.size ≤
        base.value.toNat + 100 * signatures.toNat + headerSize.toNat + payloadSize.toNat := by
  cases hcost : cost signatures base headerSize payloadSize with
  | ok energy =>
      have hsum := cost_eq_ok_iff.mp hcost
      have hlt : energy.value.toNat < UInt64.size := energy.value.toNat_lt
      constructor
      · simp
      · intro h
        omega
  | error fault =>
      cases fault
      cases e
      refine iff_of_true rfl (Nat.not_lt.mp fun hlt => ?_)
      obtain ⟨w, hw⟩ := Word.exists_eq_toNat hlt
      have hok : cost signatures base headerSize payloadSize = .ok ⟨w⟩ := cost_eq_ok_iff.mpr hw
      rw [hcost] at hok
      cases hok

/-- The charges for the signatures and the size alone always fit. -/
theorem exists_cost_zero (signatures headerSize payloadSize : UInt32) :
    ∃ e, cost signatures .zero headerSize payloadSize = .ok e ∧
      e.value.toNat = 100 * signatures.toNat + headerSize.toNat + payloadSize.toNat := by
  have hs := signatures.toNat_lt
  have hh := headerSize.toNat_lt
  have hp := payloadSize.toNat_lt
  have hsize : UInt64.size = 18446744073709551616 := rfl
  have hzero : Energy.zero.value.toNat = 0 := rfl
  obtain ⟨w, hw⟩ := Word.exists_eq_toNat
    (n := 100 * signatures.toNat + headerSize.toNat + payloadSize.toNat) (by omega)
  exact ⟨⟨w⟩, cost_eq_ok_iff.mpr (by rw [hzero, Nat.zero_add]; exact hw), hw.symm⟩

/-! ### The formula -/

/-- What the formula charges, as a natural number. -/
def charge (signatures : UInt32) (base : Energy) (headerSize payloadSize : UInt32) : Nat :=
  base.value.toNat + 100 * signatures.toNat + headerSize.toNat + payloadSize.toNat

/-- Every step of the computation gives a word. -/
def NoStepOverflows (signatures : UInt32) (base : Energy) (headerSize payloadSize : UInt32) :
    Prop :=
  ∃ forSignatures size forBytes charged total : UInt64,
    Word.mul? Limits.energyPerSignature signatures.toUInt64 = some forSignatures ∧
    Word.add? headerSize.toUInt64 payloadSize.toUInt64 = some size ∧
    Word.mul? size Limits.energyPerByte = some forBytes ∧
    Word.add? base.value forSignatures = some charged ∧
    Word.add? charged forBytes = some total

section

variable {signatures signatures' : UInt32} {base base' : Energy}
  {headerSize headerSize' payloadSize payloadSize' : UInt32} {e e' : Energy}

theorem exists_cost_iff :
    (∃ e, cost signatures base headerSize payloadSize = .ok e) ↔
      charge signatures base headerSize payloadSize ≤ 2 ^ 64 - 1 := by
  constructor
  · rintro ⟨e, he⟩
    have hsum := cost_eq_ok_iff.mp he
    have hlt := e.value.toNat_lt
    rw [charge]
    omega
  · intro hle
    obtain ⟨w, hw⟩ := Word.exists_eq_toNat (Nat.lt_succ_of_le hle)
    exact ⟨⟨w⟩, cost_eq_ok_iff.mpr hw⟩

theorem noStepOverflows_of_le (h : charge signatures base headerSize payloadSize ≤ 2 ^ 64 - 1) :
    NoStepOverflows signatures base headerSize payloadSize := by
  obtain ⟨total, htotal⟩ := Word.exists_eq_toNat (Nat.lt_succ_of_le h)
  have hsteps := total_eq_some_iff.mpr htotal
  simp only [Option.bind_eq_bind, Option.bind_eq_some_iff] at hsteps
  obtain ⟨forSignatures, hs, size, hsize, forBytes, hbytes, charged, hcharged, hlast⟩ := hsteps
  exact ⟨forSignatures, size, forBytes, charged, total, hs, hsize, hbytes, hcharged, hlast⟩

theorem charge_le_charge (hsignatures : signatures ≤ signatures') (hbase : base.value ≤ base'.value)
    (hheader : headerSize ≤ headerSize') (hpayload : payloadSize ≤ payloadSize') :
    charge signatures base headerSize payloadSize ≤
      charge signatures' base' headerSize' payloadSize' := by
  rw [UInt32.le_iff_toNat_le] at hsignatures hheader hpayload
  rw [UInt64.le_iff_toNat_le] at hbase
  rw [charge, charge]
  omega

/-- A transaction that is larger in no respect is charged no more, and its charge fits if the other
one does. -/
theorem exists_cost_le (hsignatures : signatures ≤ signatures') (hbase : base.value ≤ base'.value)
    (hheader : headerSize ≤ headerSize') (hpayload : payloadSize ≤ payloadSize')
    (he' : cost signatures' base' headerSize' payloadSize' = .ok e') :
    ∃ e, cost signatures base headerSize payloadSize = .ok e ∧ e.value ≤ e'.value := by
  have hle := charge_le_charge hsignatures hbase hheader hpayload
  obtain ⟨e, he⟩ := exists_cost_iff.mpr (Nat.le_trans hle (exists_cost_iff.mp ⟨e', he'⟩))
  refine ⟨e, he, UInt64.le_iff_toNat_le.mpr ?_⟩
  rw [← cost_eq_ok_iff.mp he, ← cost_eq_ok_iff.mp he']
  exact hle

/-- The charges for signatures and size leave the base cost of an allowance. -/
theorem exists_sub?_cost_zero (he : cost signatures base headerSize payloadSize = .ok e) :
    ∃ overhead, cost signatures .zero headerSize payloadSize = .ok overhead ∧
      Word.sub? e.value overhead.value = some base.value := by
  obtain ⟨overhead, hoverhead, hvalue⟩ := exists_cost_zero signatures headerSize payloadSize
  have hsum := cost_eq_ok_iff.mp he
  refine ⟨overhead, hoverhead, Word.sub?_eq_some_iff.mpr ?_⟩
  omega

end

/-- The charge as a sum of four numbers, none of which is bounded but by its own width. -/
structure CostLaws : Prop where
  value (signatures : UInt32) (base : Energy) (headerSize payloadSize : UInt32) (e : Energy) :
    cost signatures base headerSize payloadSize = .ok e ↔
      e.value.toNat = charge signatures base headerSize payloadSize
  fits (signatures : UInt32) (base : Energy) (headerSize payloadSize : UInt32) :
    (∃ e, cost signatures base headerSize payloadSize = .ok e) ↔
      charge signatures base headerSize payloadSize ≤ 2 ^ 64 - 1
  overflow (signatures : UInt32) (base : Energy) (headerSize payloadSize : UInt32) :
    cost signatures base headerSize payloadSize = .error .overflow ↔
      2 ^ 64 - 1 < charge signatures base headerSize payloadSize
  steps (signatures : UInt32) (base : Energy) (headerSize payloadSize : UInt32) :
    charge signatures base headerSize payloadSize ≤ 2 ^ 64 - 1 →
      NoStepOverflows signatures base headerSize payloadSize
  withoutBase (signatures headerSize payloadSize : UInt32) :
    ∃ e, cost signatures .zero headerSize payloadSize = .ok e
  monotone {signatures signatures' : UInt32} {base base' : Energy}
    {headerSize headerSize' payloadSize payloadSize' : UInt32} {e' : Energy} :
    signatures ≤ signatures' → base.value ≤ base'.value → headerSize ≤ headerSize' →
      payloadSize ≤ payloadSize' → cost signatures' base' headerSize' payloadSize' = .ok e' →
      ∃ e, cost signatures base headerSize payloadSize = .ok e ∧ e.value ≤ e'.value
  base {signatures : UInt32} {base : Energy} {headerSize payloadSize : UInt32} {e : Energy} :
    cost signatures base headerSize payloadSize = .ok e →
      ∃ overhead, cost signatures .zero headerSize payloadSize = .ok overhead ∧
        Word.sub? e.value overhead.value = some base.value

/-- The charge is what the formula says as long as that is a word, and overflows where it is not;
no step overflows before the sum, and the base cost is what is left of it after the other parts. -/
theorem cost_exact : CostLaws where
  value _ _ _ _ _ := cost_eq_ok_iff.trans eq_comm
  fits _ _ _ _ := exists_cost_iff
  overflow _ _ _ _ := cost_eq_error_iff.trans Nat.lt_iff_add_one_le.symm
  steps _ _ _ _ := noStepOverflows_of_le
  withoutBase signatures headerSize payloadSize := by
    obtain ⟨e, he, -⟩ := exists_cost_zero signatures headerSize payloadSize
    exact ⟨e, he⟩
  monotone := exists_cost_le
  base := exists_sub?_cost_zero

/-- The last word is reached, and one more byte is too much. -/
theorem cost_at_limit :
    cost 3 ⟨18446744073709551214⟩ 60 41 = .ok ⟨18446744073709551615⟩ ∧
      NoStepOverflows 3 ⟨18446744073709551214⟩ 60 41 ∧
      cost 3 ⟨18446744073709551214⟩ 60 42 = .error .overflow ∧
      (∃ e, cost 1 ⟨300⟩ 60 41 = .ok e ∧ e.value ≤ 18446744073709551615) ∧
      ∃ overhead, cost 3 .zero 60 41 = .ok overhead ∧
        Word.sub? 18446744073709551615 overhead.value = some 18446744073709551214 := by
  have hlast : cost 3 ⟨18446744073709551214⟩ 60 41 = .ok ⟨18446744073709551615⟩ := rfl
  refine ⟨hlast, cost_exact.steps _ _ _ _ (by decide),
    (cost_exact.overflow _ _ _ _).mpr (by decide), ?_, cost_exact.base hlast⟩
  exact cost_exact.monotone (by decide) (by decide) (by decide) (by decide) hlast

end Energy

end AccountTx
