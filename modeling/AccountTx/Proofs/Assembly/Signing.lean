import AccountTx.Proofs.Energy.Cost
import AccountTx.Proofs.Signing.Registry
import AccountTx.Transaction.Assembly

/-!
What signing gives. A signed transaction repeats the prepared one, its header charges for exactly
the signatures that were made, and each of them is what the signer of its slot returned for the
digest of this very header and payload.
-/

namespace AccountTx

/-- The header repeats a prepared transaction and charges for so many signatures. -/
structure Header.IsOf (h : Header) (t : PreparedTransaction) (signatures : Nat) : Prop where
  sender_eq : h.sender = t.sender
  nonce_eq : h.nonce = t.nonce
  expiry_eq : h.expiry = t.expiry
  size_eq : h.payloadSize.value.toNat = t.payload.encode.length
  energy_eq : h.energy.value.toNat =
    t.payload.baseCost.value.toNat + 100 * signatures + 60 + t.payload.encode.length

theorem Header.IsOf.unique {h h' : Header} {t : PreparedTransaction} {n : Nat} (hof : h.IsOf t n)
    (hof' : h'.IsOf t n) : h = h' := by
  ext1
  · rw [hof.sender_eq, hof'.sender_eq]
  · rw [hof.nonce_eq, hof'.nonce_eq]
  · apply Energy.ext
    apply UInt64.toNat_inj.mp
    rw [hof.energy_eq, hof'.energy_eq]
  · apply PayloadSize.ext
    apply UInt32.toNat_inj.mp
    rw [hof.size_eq, hof'.size_eq]
  · rw [hof.expiry_eq, hof'.expiry_eq]

/-- What is charged for a payload, its header and so many signatures, as an exact number. -/
def PreparedTransaction.charge (t : PreparedTransaction) (signatures : Nat) : Nat :=
  t.payload.baseCost.value.toNat + 100 * signatures + 60 + t.payload.encode.length

section Cost

variable (t : PreparedTransaction) {count : UInt32}

theorem PreparedTransaction.cost_eq_ok_iff (h : t.payload.encode.length < UInt32.size)
    {energy : Energy} :
    Energy.cost count t.payload.baseCost Limits.headerSize
        (UInt32.ofNat t.payload.encode.length) = .ok energy ↔
      t.charge count.toNat = energy.value.toNat := by
  rw [Energy.cost_eq_ok_iff, UInt32.toNat_ofNat_of_lt' h]
  rfl

theorem PreparedTransaction.cost_eq_error_iff (h : t.payload.encode.length < UInt32.size)
    {fault : EnergyError} :
    Energy.cost count t.payload.baseCost Limits.headerSize
        (UInt32.ofNat t.payload.encode.length) = .error fault ↔
      UInt64.size ≤ t.charge count.toNat := by
  rw [Energy.cost_eq_error_iff, UInt32.toNat_ofNat_of_lt' h]
  rfl

end Cost

/-- There is a header for a payload if both its size and its charge can be written. -/
theorem PreparedTransaction.withSignatureCount_eq_ok_iff {t : PreparedTransaction} {count : UInt32}
    {u : UnsignedTransaction} :
    t.withSignatureCount count = .ok u ↔
      u.header.IsOf t count.toNat ∧ u.payload = t.payload ∧ u.signatureCount = count := by
  rw [withSignatureCount, payloadBytes]
  by_cases hlength : t.payload.encode.length < UInt32.size
  · simp only [if_pos hlength]
    split
    next energy hcost =>
      have hcharge := (t.cost_eq_ok_iff hlength).mp hcost
      have hof : Header.IsOf ⟨t.sender, t.nonce, energy,
          ⟨UInt32.ofNat t.payload.encode.length⟩, t.expiry⟩ t count.toNat :=
        ⟨rfl, rfl, rfl, UInt32.toNat_ofNat_of_lt' hlength, hcharge.symm⟩
      rw [Except.ok.injEq]
      constructor
      · rintro rfl
        exact ⟨hof, rfl, rfl⟩
      · obtain ⟨header, payload, signatureCount⟩ := u
        rintro ⟨hof', rfl, rfl⟩
        rw [hof.unique hof']
    next e hcost =>
      have hcharge := (t.cost_eq_error_iff hlength).mp hcost
      refine iff_of_false nofun ?_
      rintro ⟨hof, -, -⟩
      have henergy : u.header.energy.value.toNat = t.charge count.toNat := hof.energy_eq
      have hlt : u.header.energy.value.toNat < UInt64.size := u.header.energy.value.toNat_lt
      omega
  · rw [if_neg hlength]
    refine iff_of_false nofun ?_
    rintro ⟨hof, -, -⟩
    have hlt := u.header.payloadSize.value.toNat_lt
    rw [hof.size_eq] at hlt
    exact hlength hlt

/-- The transaction is a prepared one with the header for a registry, and with what the signers of
the registry return for the digest. -/
structure SignedTransaction.IsOf (tx : SignedTransaction) (t : PreparedTransaction) (r : Registry) :
    Prop where
  header_isOf : tx.header.IsOf t r.count
  payload_eq : tx.payload = t.payload
  payloadBytes_eq : tx.payloadBytes = t.payload.encode
  slots_eq : tx.signatures.slots =
    SlotMap.mapValues (fun signer => signer tx.digest.toList) r.signers

theorem SignedTransaction.IsOf.count_eq {t : PreparedTransaction} {r : Registry}
    {tx : SignedTransaction} (hof : tx.IsOf t r) : tx.signatures.count = r.count := by
  rw [SignatureMap.count, hof.slots_eq, SlotMap.count_mapValues, Registry.count]

theorem UnsignedTransaction.sign_eq_ok_iff {u : UnsignedTransaction} {r : Registry}
    {tx : SignedTransaction} (hcount : u.signatureCount = UInt32.ofNat r.count) :
    u.sign r = .ok tx ↔
      ∃ s, r.sign u.digest.toList = .ok s ∧ tx = ⟨u.header, u.payload, u.payload.encode, s⟩ := by
  rw [sign]
  simp only [hcount, ne_eq, not_true_eq_false, if_false]
  cases r.sign u.digest.toList with
  | error e => simp
  | ok s => simp [payloadBytes, eq_comm]

/-- Signing succeeds exactly with the transactions of this form, of which there is at most one. -/
theorem PreparedTransaction.sign_eq_ok_iff {t : PreparedTransaction} {r : Registry}
    {tx : SignedTransaction} : t.sign r = .ok tx ↔ tx.IsOf t r := by
  rw [sign]
  split
  next hempty =>
    refine iff_of_false nofun ?_
    intro hof
    have hsign := Registry.sign_eq_ok_iff.mpr hof.slots_eq
    rw [Registry.sign, if_pos hempty] at hsign
    cases hsign
  next =>
    constructor
    · intro hsign
      cases hheader : t.withSignatureCount (UInt32.ofNat r.count) with
      | error e =>
          rw [hheader] at hsign
          cases hsign
      | ok u =>
          rw [hheader] at hsign
          obtain ⟨hof, hpayload, hcount⟩ := withSignatureCount_eq_ok_iff.mp hheader
          obtain ⟨s, hs, rfl⟩ := (UnsignedTransaction.sign_eq_ok_iff hcount).mp hsign
          rw [r.toNat_ofNat_count] at hof
          exact ⟨hof, hpayload, congrArg Payload.encode hpayload, Registry.sign_eq_ok_iff.mp hs⟩
    · intro hof
      have hpayload : tx.payloadBytes = tx.payload.encode := by
        rw [hof.payloadBytes_eq, hof.payload_eq]
      have hheader : t.withSignatureCount (UInt32.ofNat r.count) =
          .ok ⟨tx.header, tx.payload, UInt32.ofNat r.count⟩ := by
        rw [withSignatureCount_eq_ok_iff, r.toNat_ofNat_count]
        exact ⟨hof.header_isOf, hof.payload_eq, rfl⟩
      rw [hheader]
      refine (UnsignedTransaction.sign_eq_ok_iff rfl).mpr ⟨tx.signatures, ?_, ?_⟩
      -- the signers saw the bytes of the payload, the transaction keeps them beside it
      · rw [Registry.sign_eq_ok_iff, hof.slots_eq, SignedTransaction.digest, hpayload]
        rfl
      · rw [← hpayload]

end AccountTx
