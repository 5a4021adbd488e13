import AccountTx.Proofs.Assembly.Signing
import AccountTx.Proofs.BlockItem.Canonical

/-!
What is assembled survives the wire. The energy of a contract call is not written; since the header
of a signed transaction holds this energy and the charges and nothing else, taking the charges off
gives it back.
-/

namespace AccountTx

namespace SignedTransaction.IsOf

variable {t : PreparedTransaction} {r : Registry} {tx : SignedTransaction}

/-- The parts of the block item of a signed transaction. -/
def parts (hof : tx.IsOf t r) : BlockItem.Parts where
  signatures := tx.signatures
  header := tx.header
  payload := t.payload
  size_eq := hof.header_isOf.size_eq

/-- Taking the charges off undoes adding them to the base cost. -/
theorem allowance_parts (hof : tx.IsOf t r) :
    hof.parts.allowance = t.payload.baseCost.value.toNat := by
  have henergy := hof.header_isOf.energy_eq
  have hsize := hof.header_isOf.size_eq
  have hcount := hof.count_eq
  simp only [BlockItem.Parts.allowance, parts]
  omega

theorem transaction_parts (hof : tx.IsOf t r) : hof.parts.transaction = tx := by
  have hpayload : hof.parts.transaction.payload = tx.payload := by
    have henergy : (⟨UInt64.ofNat hof.parts.allowance⟩ : Energy) = t.payload.baseCost := by
      rw [hof.allowance_parts, UInt64.ofNat_toNat]
    calc hof.parts.transaction.payload
        = t.payload.withMaxEnergy ⟨UInt64.ofNat hof.parts.allowance⟩ := rfl
      _ = t.payload.withMaxEnergy t.payload.baseCost := by rw [henergy]
      _ = t.payload := t.payload.withMaxEnergy_baseCost
      _ = tx.payload := hof.payload_eq.symm
  have hbytes : hof.parts.transaction.payloadBytes = tx.payloadBytes := hof.payloadBytes_eq.symm
  calc hof.parts.transaction
      = ⟨tx.header, hof.parts.transaction.payload, hof.parts.transaction.payloadBytes,
          tx.signatures⟩ := rfl
    _ = tx := by rw [hpayload, hbytes]

theorem decode_toBlockItem (hof : tx.IsOf t r) :
    BlockItem.decode tx.toBlockItem.bytes = .ok tx := by
  rw [BlockItem.decode_eq_ok_iff]
  refine ⟨hof.parts, ?_, hof.transaction_parts.symm⟩
  rw [← hof.parts.bytes_toBlockItem, hof.transaction_parts]

end SignedTransaction.IsOf

/-- A transaction that was signed is read back from its block item as it was prepared, the energy of
a contract call included, and its hash is that of the block item without the version. -/
theorem decode_of_sign {t : PreparedTransaction} {r : Registry} {tx : SignedTransaction}
    (hsign : t.sign r = .ok tx) :
    BlockItem.decode tx.toBlockItem.bytes = .ok tx ∧
    tx.payload = t.payload ∧
    tx.payloadBytes = t.payload.encode ∧
    tx.toBlockItem.hash = tx.hash ∧
    tx.toBlockItem.hash.bytes = sha256 (tx.toBlockItem.bytes.drop 1) := by
  have hof := PreparedTransaction.sign_eq_ok_iff.mp hsign
  exact ⟨hof.decode_toBlockItem, hof.payload_eq, hof.payloadBytes_eq, rfl, rfl⟩

/-- A call of an init function that may use 5000 units of energy. -/
def initCall : PreparedTransaction where
  sender := ⟨⟨List.replicate 32 3, rfl⟩⟩
  nonce := ⟨7, by decide⟩
  expiry := ⟨1700000000, by decide⟩
  payload := .initContract ⟨1⟩ ⟨⟨List.replicate 32 9, rfl⟩⟩ ⟨"init_a", by decide⟩ .empty ⟨5000⟩

/-- Two signers of different credentials, one of which returns no bytes. -/
def twoSigners : Registry where
  signers := ⟨[(0, ⟨[(4, fun _ => [1, 2, 3])], by simp⟩), (6, ⟨[(0, fun _ => [])], by simp⟩)],
    by simp⟩
  fits := by simp [Registry.Fits, Registry.KeysFit, IndexMap.size, Limits.maxSigners]

theorem decode_initCall :
    ∃ tx, initCall.sign twoSigners = .ok tx ∧ tx.header.energy.value = 5311 ∧
      BlockItem.decode tx.toBlockItem.bytes = .ok tx ∧ tx.payload = initCall.payload := by
  have hsign : initCall.sign twoSigners = .ok
      { header := ⟨initCall.sender, initCall.nonce, ⟨5311⟩, ⟨51⟩, initCall.expiry⟩
        payload := initCall.payload
        payloadBytes := initCall.payload.encode
        signatures :=
          { slots := SlotMap.mapValues (fun signer => signer []) twoSigners.signers
            fits := SignatureMap.fault?_eq_none_iff.mp rfl } } := by
    rfl
  have hround := decode_of_sign hsign
  exact ⟨_, hsign, rfl, hround.1, hround.2.1⟩

end AccountTx
