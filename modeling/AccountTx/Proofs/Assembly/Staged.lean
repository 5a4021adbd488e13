import AccountTx.Proofs.Assembly.Outcome

/-!
Signing in two stages. The number of signatures is fixed before the signers are at hand, so it may
turn out to be another than the registry gives. If it is the same, and not zero, the stages do what
signing at once does; in all other cases they end in an error, and the charge is looked at before
the signers.
-/

namespace AccountTx

namespace UnsignedTransaction

variable {u : UnsignedTransaction} {r : Registry}

/-- Signers that give another number of signatures than the header charges for are refused. -/
theorem sign_of_count_ne {actual : UInt32} (hactual : actual.toNat = r.count)
    (hne : u.signatureCount.toNat ≠ r.count) :
    u.sign r = .error (.signing (.signatureCountMismatch u.signatureCount actual)) := by
  have hcount : UInt32.ofNat r.count = actual := by
    rw [← hactual, UInt32.ofNat_toNat]
  have hdiffers : actual ≠ u.signatureCount := by
    rintro rfl
    exact hne hactual
  rw [sign]
  simp only [hcount]
  rw [if_pos hdiffers]

/-- Where both numbers are zero there is nobody to sign. -/
theorem sign_of_count_zero (hcount : u.signatureCount.toNat = 0) (hnone : r.count = 0) :
    u.sign r = .error (.signing .noSigners) := by
  have hsame : u.signatureCount = UInt32.ofNat r.count := by
    rw [hnone, ← hcount, UInt32.ofNat_toNat]
  have hslots : r.slots = [] := Registry.slots_eq_nil_iff.mpr hnone
  rw [sign_eq_error_iff hsame]
  exact ⟨_, Registry.sign_eq_error_iff.mpr (.inl ⟨hslots, rfl⟩), rfl⟩

end UnsignedTransaction

namespace PreparedTransaction

variable {t : PreparedTransaction} {count : UInt32} {r : Registry}

/-- Makes the header for a number of signatures, and signs with a registry that need not give as
many. -/
def signInStages (t : PreparedTransaction) (count : UInt32) (r : Registry) :
    Except TransactionError SignedTransaction := do
  let u ← t.withSignatureCount count
  u.sign r

/-- The number is that of the signatures of a registry with signers. -/
def Foreseen (count : UInt32) (r : Registry) : Prop := 0 < r.count ∧ count.toNat = r.count

/-- The ways in which signing in two stages can end. -/
inductive StagedOutcome (t : PreparedTransaction) (count : UInt32) (r : Registry) :
    Except TransactionError SignedTransaction → Prop where
  | asAtOnce : Foreseen count r → StagedOutcome t count r (t.sign r)
  | payloadTooLarge : ¬ Foreseen count r → UInt32.size ≤ t.payload.encode.length →
      StagedOutcome t count r (.error (.payloadTooLarge t.payload.encode.length))
  | overflow : ¬ Foreseen count r → t.payload.encode.length < UInt32.size →
      UInt64.size ≤ t.charge count.toNat → StagedOutcome t count r (.error (.energy .overflow))
  | countMismatch {actual : UInt32} : t.payload.encode.length < UInt32.size →
      t.charge count.toNat < UInt64.size → actual.toNat = r.count → count ≠ actual →
      StagedOutcome t count r (.error (.signing (.signatureCountMismatch count actual)))
  | noSigners : t.payload.encode.length < UInt32.size → t.charge count.toNat < UInt64.size →
      count.toNat = 0 → r.count = 0 → StagedOutcome t count r (.error (.signing .noSigners))

theorem signInStages_of_foreseen (h : Foreseen count r) : t.signInStages count r = t.sign r := by
  obtain ⟨hpos, hcount⟩ := h
  have hslots : r.slots ≠ [] := fun hnone =>
    Nat.ne_of_gt hpos (Registry.slots_eq_nil_iff.mp hnone)
  rw [sign_of_slots hslots, ← hcount, UInt32.ofNat_toNat]
  rfl

/-- There is a header for so many signatures if the size and the charge can be written. -/
theorem exists_withSignatureCount (hlength : t.payload.encode.length < UInt32.size)
    (hcharge : t.charge count.toNat < UInt64.size) :
    ∃ u, t.withSignatureCount count = .ok u ∧ u.signatureCount = count := by
  cases hheader : t.withSignatureCount count with
  | ok u => exact ⟨u, rfl, (withSignatureCount_eq_ok_iff.mp hheader).2.2⟩
  | error e =>
      exfalso
      rcases withSignatureCount_eq_error_iff.mp hheader with ⟨hlong, -⟩ | ⟨-, hhigh, -⟩
      · exact absurd hlength (Nat.not_lt.mpr hlong)
      · exact absurd hcharge (Nat.not_lt.mpr hhigh)

/-- The size and the charge that a header states are numbers that can be written. -/
theorem lt_of_withSignatureCount {u : UnsignedTransaction}
    (hheader : t.withSignatureCount count = .ok u) :
    t.payload.encode.length < UInt32.size ∧ t.charge count.toNat < UInt64.size := by
  have hof := (withSignatureCount_eq_ok_iff.mp hheader).1
  constructor
  · rw [← hof.size_eq]
    exact u.header.payloadSize.value.toNat_lt
  · have henergy : u.header.energy.value.toNat = t.charge count.toNat := hof.energy_eq
    rw [← henergy]
    exact u.header.energy.value.toNat_lt

/-- Signing in two stages ends in one of these ways. -/
theorem outcome_signInStages (t : PreparedTransaction) (count : UInt32) (r : Registry) :
    t.StagedOutcome count r (t.signInStages count r) := by
  by_cases hforeseen : Foreseen count r
  · rw [signInStages_of_foreseen hforeseen]
    exact .asAtOnce hforeseen
  · cases hheader : t.withSignatureCount count with
    | error e =>
        have hstages : t.signInStages count r = .error e := by
          rw [signInStages, hheader]
          rfl
        rw [hstages]
        rcases withSignatureCount_eq_error_iff.mp hheader with
          ⟨hlength, rfl⟩ | ⟨hlength, hcharge, rfl⟩
        · exact .payloadTooLarge hforeseen hlength
        · exact .overflow hforeseen hlength hcharge
    | ok u =>
        have hstages : t.signInStages count r = u.sign r := by
          rw [signInStages, hheader]
          rfl
        obtain ⟨hlength, hcharge⟩ := lt_of_withSignatureCount hheader
        obtain rfl := (withSignatureCount_eq_ok_iff.mp hheader).2.2
        rw [hstages]
        by_cases hcount : u.signatureCount.toNat = r.count
        -- the numbers agree and are not foreseen, so that both of them are zero
        · have hnone : r.count = 0 :=
            Nat.eq_zero_of_not_pos fun hpos => hforeseen ⟨hpos, hcount⟩
          rw [UnsignedTransaction.sign_of_count_zero (hcount.trans hnone) hnone]
          exact .noSigners hlength hcharge (hcount.trans hnone) hnone
        · have hactual := r.toNat_ofNat_count
          rw [UnsignedTransaction.sign_of_count_ne hactual hcount]
          refine .countMismatch hlength hcharge hactual fun heq => hcount ?_
          rw [heq, hactual]

/-- Signing in two stages ends in no other way than the one whose conditions hold. -/
theorem signInStages_of_outcome {outcome : Except TransactionError SignedTransaction}
    (h : t.StagedOutcome count r outcome) : t.signInStages count r = outcome := by
  cases h with
  | asAtOnce hforeseen => exact signInStages_of_foreseen hforeseen
  | payloadTooLarge _ hlength =>
      rw [signInStages, withSignatureCount_eq_error_iff.mpr (.inl ⟨hlength, rfl⟩)]
      rfl
  | overflow _ hlength hcharge =>
      rw [signInStages, withSignatureCount_eq_error_iff.mpr (.inr ⟨hlength, hcharge, rfl⟩)]
      rfl
  | @countMismatch actual hlength hcharge hactual hne =>
      obtain ⟨u, hheader, rfl⟩ := exists_withSignatureCount hlength hcharge
      have hcount : u.signatureCount.toNat ≠ r.count := by
        rw [← hactual]
        exact fun heq => hne (UInt32.toNat_inj.mp heq)
      rw [signInStages, hheader]
      exact UnsignedTransaction.sign_of_count_ne hactual hcount
  | noSigners hlength hcharge hcount hnone =>
      obtain ⟨u, hheader, rfl⟩ := exists_withSignatureCount hlength hcharge
      rw [signInStages, hheader]
      exact UnsignedTransaction.sign_of_count_zero hcount hnone

theorem signInStages_eq_iff {outcome : Except TransactionError SignedTransaction} :
    t.signInStages count r = outcome ↔ t.StagedOutcome count r outcome :=
  ⟨fun h => h ▸ outcome_signInStages t count r, signInStages_of_outcome⟩

/-- The stages give a transaction only where the number was foreseen, and then the one that signing
at once gives. -/
theorem signInStages_eq_ok_iff {tx : SignedTransaction} :
    t.signInStages count r = .ok tx ↔ t.sign r = .ok tx ∧ count.toNat = r.count := by
  constructor
  · intro hstages
    have houtcome := signInStages_eq_iff.mp hstages
    generalize hok : Except.ok tx = outcome at houtcome
    cases houtcome with
    | asAtOnce hforeseen => exact ⟨rfl, hforeseen.2⟩
    | payloadTooLarge | overflow | countMismatch | noSigners => cases hok
  · rintro ⟨hsign, hcount⟩
    have hslots : r.slots ≠ [] := by
      intro hnone
      rw [sign_of_outcome (.noSigners hnone)] at hsign
      cases hsign
    have hpos : 0 < r.count :=
      Nat.pos_of_ne_zero fun hzero => hslots (Registry.slots_eq_nil_iff.mpr hzero)
    rw [signInStages_of_foreseen ⟨hpos, hcount⟩, hsign]

/-- Signing in two stages is signing at once if the number of signatures was foreseen, and an error
otherwise, which is determined by the charge and then by the two numbers. Whatever number is fixed,
a transaction that is signed carries this number of signatures and its header charges for it. -/
theorem staged_outcome (t : PreparedTransaction) (count : UInt32) (r : Registry) :
    (∀ outcome, t.signInStages count r = outcome ↔ t.StagedOutcome count r outcome) ∧
    ∀ tx, t.signInStages count r = .ok tx ↔
      t.sign r = .ok tx ∧ tx.signatures.count = count.toNat ∧
        tx.header.IsOf t tx.signatures.count := by
  refine ⟨fun outcome => signInStages_eq_iff, fun tx => ?_⟩
  rw [signInStages_eq_ok_iff]
  constructor
  · rintro ⟨hsign, hcount⟩
    have hof := sign_eq_ok_iff.mp hsign
    have hsame : tx.signatures.count = r.count := hof.count_eq
    refine ⟨hsign, hsame.trans hcount.symm, ?_⟩
    rw [hsame]
    exact hof.header_isOf
  · rintro ⟨hsign, hcount, -⟩
    have hof := sign_eq_ok_iff.mp hsign
    exact ⟨hsign, hcount.symm.trans hof.count_eq⟩

end PreparedTransaction

end AccountTx
