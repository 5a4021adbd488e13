import AccountTx.Proofs.Assembly.RoundTrip
import AccountTx.Proofs.Assembly.Staged

/-!
Where signed transactions come from: they are assembled, in one step or in two, or read from a block
item. Whichever it is, such a transaction is the one of some parts of a block item, so that its
header states the size of its payload, and the energy of a contract call is what the header leaves
for it.
-/

namespace AccountTx

/-- Signing in two steps gives nothing that signing in one step does not give. -/
theorem PreparedTransaction.sign_of_steps {t : PreparedTransaction} {count : UInt32}
    {u : UnsignedTransaction} {r : Registry} {tx : SignedTransaction}
    (hheader : t.withSignatureCount count = .ok u) (hsign : u.sign r = .ok tx) :
    t.sign r = .ok tx := by
  have hstages : t.signInStages count r = .ok tx := by
    rw [signInStages, hheader]
    exact hsign
  exact (signInStages_eq_ok_iff.mp hstages).1

namespace SignedTransaction

/-- The ways to come by a signed transaction. -/
inductive Obtained : SignedTransaction → Prop where
  | assembled {t : PreparedTransaction} {r : Registry} {tx : SignedTransaction} :
      t.sign r = .ok tx → Obtained tx
  | assembledInSteps {t : PreparedTransaction} {count : UInt32} {u : UnsignedTransaction}
      {r : Registry} {tx : SignedTransaction} :
      t.withSignatureCount count = .ok u → u.sign r = .ok tx → Obtained tx
  | read {bytes : Bytes} {tx : SignedTransaction} : BlockItem.decode bytes = .ok tx → Obtained tx

theorem obtained_iff {tx : SignedTransaction} :
    tx.Obtained ↔ ∃ x : BlockItem.Parts, tx = x.transaction := by
  have hassembled {t : PreparedTransaction} {r : Registry} (hsign : t.sign r = .ok tx) :
      ∃ x : BlockItem.Parts, tx = x.transaction := by
    have hof := PreparedTransaction.sign_eq_ok_iff.mp hsign
    exact ⟨hof.parts, hof.transaction_parts.symm⟩
  constructor
  · intro h
    cases h with
    | assembled hsign => exact hassembled hsign
    | assembledInSteps hheader hsign =>
        exact hassembled (PreparedTransaction.sign_of_steps hheader hsign)
    | read hdecode =>
        obtain ⟨x, -, htx⟩ := BlockItem.decode_eq_ok_iff.mp hdecode
        exact ⟨x, htx⟩
  · rintro ⟨x, rfl⟩
    exact .read (BlockItem.decode_eq_ok_iff.mpr ⟨x, rfl, rfl⟩)

theorem Obtained.size_eq {tx : SignedTransaction} (h : tx.Obtained) :
    tx.header.payloadSize.value.toNat = tx.payloadBytes.length := by
  obtain ⟨x, rfl⟩ := obtained_iff.mp h
  exact x.size_eq

theorem Obtained.encode_payload {tx : SignedTransaction} (h : tx.Obtained) :
    tx.payload.encode = tx.payloadBytes := by
  obtain ⟨x, rfl⟩ := obtained_iff.mp h
  exact Payload.encode_withMaxEnergy x.payload

end SignedTransaction

end AccountTx
