import AccountTx.Proofs.Assembly.Signing

/-!
How the assembly of a transaction ends. The stages report their faults in a fixed order: signers
that are missing, a payload or a charge that cannot be written, and a signature that is too long. If
there is none of these, a transaction results whose header charges for the signatures it carries.
-/

namespace AccountTx

/-- There is no header for a payload that is too long, or else for a charge that is too high. -/
theorem PreparedTransaction.withSignatureCount_eq_error_iff {t : PreparedTransaction}
    {count : UInt32} {e : TransactionError} :
    t.withSignatureCount count = .error e ↔
      (UInt32.size ≤ t.payload.encode.length ∧
        e = .payloadTooLarge t.payload.encode.length) ∨
      (t.payload.encode.length < UInt32.size ∧ UInt64.size ≤ t.charge count.toNat ∧
        e = .energy .overflow) := by
  rw [withSignatureCount, payloadBytes]
  by_cases hlength : t.payload.encode.length < UInt32.size
  · simp only [hlength, Nat.not_le.mpr hlength, if_true, false_and, false_or, true_and]
    cases hcost : Energy.cost count t.payload.baseCost Limits.headerSize
        (UInt32.ofNat t.payload.encode.length) with
    | ok energy =>
        have hcharge := (t.cost_eq_ok_iff hlength).mp hcost
        have hlt : energy.value.toNat < UInt64.size := energy.value.toNat_lt
        have hfits : ¬ UInt64.size ≤ t.charge count.toNat := by omega
        simp [hfits]
    | error fault =>
        cases fault
        have hcharge := (t.cost_eq_error_iff hlength).mp hcost
        simp [hcharge, eq_comm]
  · simp [hlength, Nat.not_lt.mp hlength, eq_comm]

theorem UnsignedTransaction.sign_eq_error_iff {u : UnsignedTransaction} {r : Registry}
    {e : TransactionError} (hcount : u.signatureCount = UInt32.ofNat r.count) :
    u.sign r = .error e ↔ ∃ fault, r.sign u.digest.toList = .error fault ∧ e = .signing fault := by
  rw [sign]
  simp only [hcount, ne_eq, not_true_eq_false, if_false]
  cases r.sign u.digest.toList with
  | error fault => simp [eq_comm]
  | ok s => simp

namespace PreparedTransaction

variable {t : PreparedTransaction} {r : Registry}

/-- The ways in which signing a prepared transaction with a registry can end. -/
inductive Outcome (t : PreparedTransaction) (r : Registry) :
    Except TransactionError SignedTransaction → Prop where
  | noSigners : r.slots = [] → Outcome t r (.error (.signing .noSigners))
  | payloadTooLarge : r.slots ≠ [] → UInt32.size ≤ t.payload.encode.length →
      Outcome t r (.error (.payloadTooLarge t.payload.encode.length))
  | overflow : r.slots ≠ [] → t.payload.encode.length < UInt32.size →
      UInt64.size ≤ t.charge r.count → Outcome t r (.error (.energy .overflow))
  | signatureTooLong {header : Header} {digest : Bytes} {credential key : UInt8} {signer : Signer} :
      r.slots ≠ [] → header.IsOf t r.count →
      digest = (signingDigest header t.payload.encode).toList →
      SlotMap.IsFirst (Registry.TooLong digest) r.signers credential key signer →
      Outcome t r
        (.error (.signing (.signatureTooLong credential key (signer digest).length)))
  | signed {tx : SignedTransaction} : r.slots ≠ [] → tx.IsOf t r → Outcome t r (.ok tx)

theorem sign_of_slots (h : r.slots ≠ []) :
    t.sign r = (t.withSignatureCount (UInt32.ofNat r.count)).bind fun u => u.sign r := by
  rw [sign, if_neg (mt Registry.isEmpty_iff.mp h)]
  rfl

/-- Signing ends in one of these ways. -/
theorem outcome_sign (t : PreparedTransaction) (r : Registry) : t.Outcome r (t.sign r) := by
  by_cases hslots : r.slots = []
  · rw [sign, if_pos (Registry.isEmpty_iff.mpr hslots)]
    exact .noSigners hslots
  · cases hsign : t.sign r with
    | ok tx => exact .signed hslots (sign_eq_ok_iff.mp hsign)
    | error e =>
        rw [sign_of_slots hslots] at hsign
        cases hheader : t.withSignatureCount (UInt32.ofNat r.count) with
        | error e' =>
            rw [hheader] at hsign
            cases hsign
            rw [withSignatureCount_eq_error_iff, r.toNat_ofNat_count] at hheader
            rcases hheader with ⟨hlength, rfl⟩ | ⟨hlength, hcharge, rfl⟩
            · exact .payloadTooLarge hslots hlength
            · exact .overflow hslots hlength hcharge
        | ok u =>
            rw [hheader] at hsign
            obtain ⟨header, payload, count⟩ := u
            rw [withSignatureCount_eq_ok_iff, r.toNat_ofNat_count] at hheader
            obtain ⟨hof, rfl, hcount⟩ := hheader
            -- with a header at hand only the signers can be at fault
            obtain ⟨fault, hfault, rfl⟩ := (UnsignedTransaction.sign_eq_error_iff hcount).mp hsign
            rcases Registry.sign_eq_error_iff.mp hfault with
              ⟨hnone, -⟩ | ⟨-, credential, key, signer, hfirst, rfl⟩
            · exact absurd hnone hslots
            · exact .signatureTooLong hslots hof rfl hfirst

/-- Signing ends in no other way than the one whose conditions hold. -/
theorem sign_of_outcome {outcome : Except TransactionError SignedTransaction}
    (h : t.Outcome r outcome) : t.sign r = outcome := by
  cases h with
  | noSigners hslots => rw [sign, if_pos (Registry.isEmpty_iff.mpr hslots)]
  | payloadTooLarge hslots hlength =>
      have hheader : t.withSignatureCount (UInt32.ofNat r.count)
          = .error (.payloadTooLarge t.payload.encode.length) :=
        withSignatureCount_eq_error_iff.mpr (.inl ⟨hlength, rfl⟩)
      rw [sign_of_slots hslots, hheader]
      rfl
  | overflow hslots hlength hcharge =>
      -- the count that the header is made for has 32 bits, and loses nothing
      rw [← r.toNat_ofNat_count] at hcharge
      have hheader := withSignatureCount_eq_error_iff.mpr (.inr ⟨hlength, hcharge, rfl⟩)
      rw [sign_of_slots hslots, hheader]
      rfl
  | @signatureTooLong header digest credential key signer hslots hof hdigest hfirst =>
      have hheader : t.withSignatureCount (UInt32.ofNat r.count)
          = .ok ⟨header, t.payload, UInt32.ofNat r.count⟩ := by
        rw [withSignatureCount_eq_ok_iff, r.toNat_ofNat_count]
        exact ⟨hof, rfl, rfl⟩
      have hfault := Registry.sign_eq_error_iff.mpr
        (.inr ⟨hslots, credential, key, signer, hfirst, rfl⟩)
      rw [sign_of_slots hslots, hheader]
      subst hdigest
      exact (UnsignedTransaction.sign_eq_error_iff rfl).mpr ⟨_, hfault, rfl⟩
  | signed hslots hof => exact sign_eq_ok_iff.mpr hof

/-- Completing a header with the registry that it was made for is the same as signing at once. -/
theorem sign_of_withSignatureCount {u : UnsignedTransaction}
    (hheader : t.withSignatureCount (UInt32.ofNat r.count) = .ok u) :
    u.sign r = t.sign r := by
  by_cases hslots : r.slots = []
  · obtain ⟨-, -, hcount⟩ := withSignatureCount_eq_ok_iff.mp hheader
    have hunsigned : u.sign r = .error (.signing .noSigners) :=
      (UnsignedTransaction.sign_eq_error_iff hcount).mpr
        ⟨_, Registry.sign_eq_error_iff.mpr (.inl ⟨hslots, rfl⟩), rfl⟩
    rw [hunsigned, sign_of_outcome (.noSigners hslots)]
  · rw [sign_of_slots hslots, hheader]
    rfl

/-- The outcome of signing is determined by the signers, the length of the payload, the exact charge
and the first signature that is too long, in this order. What is signed carries as many signatures
as its header charges for, and the limits on credentials and keys are never the fault. -/
theorem sign_outcome (t : PreparedTransaction) (r : Registry) :
    (∀ outcome, t.sign r = outcome ↔ t.Outcome r outcome) ∧
    (∀ tx, t.sign r = .ok tx ↔
      tx.IsOf t r ∧ tx.signatures.count = r.count ∧ tx.header.IsOf t tx.signatures.count) ∧
    (∀ max, t.sign r ≠ .error (.signing (.tooManyCredentials max))) ∧
    (∀ credential max, t.sign r ≠ .error (.signing (.tooManyKeys credential max))) ∧
    ∀ expected actual, t.sign r ≠ .error (.signing (.signatureCountMismatch expected actual)) := by
  have hiff (outcome) : t.sign r = outcome ↔ t.Outcome r outcome :=
    ⟨fun h => h ▸ outcome_sign t r, sign_of_outcome⟩
  refine ⟨hiff, fun tx => ?_, fun max => ?_, fun credential max => ?_, fun expected actual => ?_⟩
  · rw [sign_eq_ok_iff]
    constructor
    · intro hof
      have hcount := hof.count_eq
      have hheader := hof.header_isOf
      rw [← hcount] at hheader
      exact ⟨hof, hcount, hheader⟩
    · exact fun h => h.1
  all_goals
    rw [ne_eq, hiff]
    nofun

end PreparedTransaction

end AccountTx
