import AccountTx.Payload.Basic
import Mathlib.Algebra.Order.Ring.Nat

/-!
The cost of deploying a module is a tenth of its length, rounded to the nearest number, and to the
even one of two that are equally near. This determines the cost, so the other properties of it are
those of rounding.
-/

namespace AccountTx.Energy

/-- The integer is at most a half away from a tenth of the length, and even if it is a half away. -/
def IsNearestEven (length : Nat) (c : Int) : Prop :=
  (10 * c - length).natAbs ≤ 5 ∧ ((10 * c - length).natAbs = 5 → 2 ∣ c)

namespace IsNearestEven

variable {length length' : Nat} {c c' : Int}

/-- Longer modules do not round to less. If they did, they would be in the middle between the same
two neighbours, which are not both even. -/
theorem le (h : IsNearestEven length c) (h' : IsNearestEven length' c') (hle : length ≤ length') :
    c ≤ c' := by
  obtain ⟨hnear, heven⟩ := h
  obtain ⟨hnear', heven'⟩ := h'
  by_contra hlt
  have hneighbours : c = c' + 1 := by omega
  have hmiddle : 10 * c - length = 5 := by omega
  have hmiddle' : 10 * c' - length' = -5 := by omega
  have hc : 2 ∣ c := heven (by omega)
  have hc' : 2 ∣ c' := heven' (by omega)
  omega

theorem unique (h : IsNearestEven length c) (h' : IsNearestEven length c') : c = c' :=
  Int.le_antisymm (h.le h' (Nat.le_refl _)) (h'.le h (Nat.le_refl _))

/-- No integer is nearer. -/
theorem natAbs_le (h : IsNearestEven length c) (k : Int) :
    (10 * c - length).natAbs ≤ (10 * k - length).natAbs := by
  have hnear := h.1
  by_cases hk : k = c
  · rw [hk]
  · omega

theorem add_twenty (h : IsNearestEven length c) : IsNearestEven (length + 20) (c + 2) := by
  obtain ⟨hnear, heven⟩ := h
  have hsame : 10 * (c + 2) - ((length + 20 : Nat) : Int) = 10 * c - length := by omega
  rw [IsNearestEven, hsame]
  refine ⟨hnear, fun htie => ?_⟩
  have hc := heven htie
  omega

end IsNearestEven

theorem isNearestEven_ofModuleLength (length : Nat) :
    IsNearestEven length (ofModuleLength length) := by
  have hbytes : Limits.moduleBytesPerEnergy = 10 := rfl
  simp only [ofModuleLength, hbytes]
  split
  next hup =>
    rw [IsNearestEven]
    omega
  next hdown =>
    rw [IsNearestEven]
    omega

theorem isNearestEven_iff {length : Nat} {c : Int} :
    IsNearestEven length c ↔ c = ofModuleLength length := by
  constructor
  · intro h
    exact h.unique (isNearestEven_ofModuleLength length)
  · rintro rfl
    exact isNearestEven_ofModuleLength length

theorem ofModuleLength_le_self (length : Nat) : ofModuleLength length ≤ length := by
  have hnear := (isNearestEven_ofModuleLength length).1
  omega

theorem ofModuleLength_mono : Monotone ofModuleLength := by
  intro length length' hle
  have h := (isNearestEven_ofModuleLength length).le (isNearestEven_ofModuleLength length') hle
  exact Int.ofNat_le.mp h

theorem ofModuleLength_add_twenty (length : Nat) :
    ofModuleLength (length + 20) = ofModuleLength length + 2 := by
  have h := isNearestEven_iff.mp (isNearestEven_ofModuleLength length).add_twenty
  omega

/-- A length that is a word has a cost that is one. -/
theorem baseCost_deployModule {module : Bytes} (h : module.length < 2 ^ 64) :
    (Payload.deployModule module).baseCost.value.toNat = ofModuleLength module.length :=
  UInt64.toNat_ofNat_of_lt' (Nat.lt_of_le_of_lt (ofModuleLength_le_self _) h)

/-- What holds of the cost of deploying a module, which the length of the module determines. -/
structure ModuleCostLaws : Prop where
  baseCost (module : Bytes) : module.length < 2 ^ 64 →
    (Payload.deployModule module).baseCost.value.toNat = ofModuleLength module.length
  rounded (length : Nat) (c : Int) :
    ((10 * c - length).natAbs ≤ 5 ∧ ((10 * c - length).natAbs = 5 → 2 ∣ c)) ↔
      c = ofModuleLength length
  nearest (length : Nat) (c : Int) :
    (10 * (ofModuleLength length : Int) - length).natAbs ≤ (10 * c - length).natAbs
  monotone : Monotone ofModuleLength
  period (length : Nat) : ofModuleLength (length + 20) = ofModuleLength length + 2

/-- The base cost of a module is its length in tens, rounded half to even: it is the only integer
within a half that is even wherever it is off by a half. -/
theorem module_cost_rounds : ModuleCostLaws where
  baseCost _ := baseCost_deployModule
  rounded _ _ := isNearestEven_iff
  nearest length c := (isNearestEven_ofModuleLength length).natAbs_le c
  monotone := ofModuleLength_mono
  period := ofModuleLength_add_twenty

/-- Twenty-five bytes are in the middle between two and three units, and cost two; sixty more bytes
cost six more units. -/
theorem module_cost_at_tie :
    (Payload.deployModule (List.replicate 25 7)).baseCost.value.toNat = 2 ∧
      (10 * (2 : Int) - 25).natAbs = 5 ∧ (10 * (3 : Int) - 25).natAbs = 5 ∧
      ofModuleLength 85 = 8 ∧ ofModuleLength 25 ≤ ofModuleLength 31 := by
  have hcost : ofModuleLength 25 = 2 := rfl
  have hbase := module_cost_rounds.baseCost (List.replicate 25 7) (by decide)
  have hperiod : ofModuleLength 85 = ofModuleLength 25 + 2 + 2 + 2 := by
    rw [← module_cost_rounds.period, ← module_cost_rounds.period, ← module_cost_rounds.period]
  refine ⟨hbase.trans hcost, rfl, rfl, ?_, module_cost_rounds.monotone (by decide)⟩
  rw [hperiod, hcost]

end AccountTx.Energy
