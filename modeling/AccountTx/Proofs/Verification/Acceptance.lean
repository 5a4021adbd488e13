import AccountTx.Proofs.Assembly.RoundTrip
import AccountTx.Proofs.Verification.Verdict

/-!
Which transactions the chain accepts: those that come in time, pay for their signatures and their
size, and have no slot whose signature fails. What a registry signs is accepted, whether it is taken
from memory or from its block item.
-/

namespace AccountTx

namespace SignedTransaction

variable {t : PreparedTransaction} {r : Registry} {tx : SignedTransaction}
  {keys : SlotMap PublicKey} {blockTime : UInt64}

/-- The signature of this slot is one of the digest, under the key that is known for the slot. -/
def VerifiesAt (tx : SignedTransaction) (keys : SlotMap PublicKey) (credential key : UInt8) :
    Prop :=
  ∃ signature publicKey, tx.signatures.get? credential key = some signature ∧
    SlotMap.find? keys credential key = some publicKey ∧
    publicKey.verify tx.digest.toList signature = true

/-- Where every signer signs for the key of its slot, a signed transaction has no invalid slot, and
its header pays for what it is. -/
theorem IsOf.verify_eq_ok (hof : tx.IsOf t r)
    (hkeys : ∀ credential key signer, SlotMap.find? r.signers credential key = some signer →
      ∃ publicKey, SlotMap.find? keys credential key = some publicKey ∧
        publicKey.verify tx.digest.toList (signer tx.digest.toList) = true)
    (htime : blockTime < t.expiry.seconds) : tx.verify keys blockTime = .ok () := by
  rw [verify_eq_ok_iff]
  refine ⟨?_, ?_, ?_⟩
  · rw [hof.header_isOf.expiry_eq]
    exact htime
  · have henergy := hof.header_isOf.energy_eq
    have hsize := hof.header_isOf.size_eq
    have hcount := hof.count_eq
    omega
  · intro credential key signature hsignature
    rw [SignatureMap.get?, hof.slots_eq, SlotMap.find?_mapValues_eq_some_iff] at hsignature
    obtain ⟨signer, hsigner, rfl⟩ := hsignature
    rw [SignatureMap.slotVerifies_iff]
    exact hkeys credential key signer hsigner

/-- What the signers of an account sign is accepted until it expires, as it was made and as it is
read from its block item. Further keys of the account do no harm. -/
theorem verify_of_sign (hsign : t.sign r = .ok tx)
    (hkeys : ∀ credential key signer, SlotMap.find? r.signers credential key = some signer →
      ∃ publicKey, SlotMap.find? keys credential key = some publicKey ∧
        publicKey.verify tx.digest.toList (signer tx.digest.toList) = true)
    (htime : blockTime < t.expiry.seconds) :
    tx.verify keys blockTime = .ok () ∧
    ∃ tx', BlockItem.decode tx.toBlockItem.bytes = .ok tx' ∧
      tx'.verify keys blockTime = .ok () := by
  have hof := PreparedTransaction.sign_eq_ok_iff.mp hsign
  have hverify := hof.verify_eq_ok hkeys htime
  exact ⟨hverify, tx, hof.decode_toBlockItem, hverify⟩

/-- A transfer of one CCD to the sender itself. -/
def smallTransfer : PreparedTransaction :=
  { initCall with payload := .transfer ⟨1000000⟩ initCall.sender }

def smallKey : SecretKey := ⟨⟨List.replicate 32 7, rfl⟩⟩

/-- The account has a second credential with the same key, which does not sign. -/
def smallAccount : SlotMap PublicKey :=
  ⟨[(0, ⟨[(0, smallKey.publicKey)], by simp⟩), (1, ⟨[(0, smallKey.publicKey)], by simp⟩)], by simp⟩

def signedTransfer : SignedTransaction :=
  let header : Header :=
    ⟨smallTransfer.sender, smallTransfer.nonce, ⟨501⟩, ⟨41⟩, smallTransfer.expiry⟩
  let digest := signingDigest header smallTransfer.payload.encode
  { header := header
    payload := smallTransfer.payload
    payloadBytes := smallTransfer.payload.encode
    signatures :=
      { slots := ⟨[(0, ⟨[(0, smallKey.sign digest.toList)], by simp⟩)], by simp⟩
        fits := by
          simp [SignatureMap.Fits, SignatureMap.KeysFit, IndexMap.size, Limits.maxSigners,
            SecretKey.length_sign, Limits.signatureLength, Limits.maxSignatureLength] } }

theorem verify_signedTransfer :
    smallTransfer.sign (.single smallKey.sign) = .ok signedTransfer ∧
    signedTransfer.verify smallAccount 1699999999 = .ok () ∧
    ∃ tx, BlockItem.decode signedTransfer.toBlockItem.bytes = .ok tx ∧
      tx.verify smallAccount 1699999999 = .ok () := by
  have hsign : smallTransfer.sign (.single smallKey.sign) = .ok signedTransfer := by
    have hslots (digest : Bytes) :
        SlotMap.mapValues (fun signer => signer digest) (Registry.single smallKey.sign).signers =
          ⟨[(0, ⟨[(0, smallKey.sign digest)], by simp⟩)], by simp⟩ := rfl
    rw [PreparedTransaction.sign_eq_ok_iff]
    exact ⟨⟨rfl, rfl, rfl, rfl, rfl⟩, rfl, rfl, (hslots signedTransfer.digest.toList).symm⟩
  have hkey : smallKey.publicKey.verify signedTransfer.digest.toList
      (smallKey.sign signedTransfer.digest.toList) = true := by
    decide +kernel
  refine ⟨hsign, verify_of_sign hsign ?_ (by decide)⟩
  intro credential key signer hsigner
  rw [SlotMap.find?_eq_some_iff] at hsigner
  obtain ⟨signers, hcredential, hslot⟩ := hsigner
  obtain ⟨rfl, rfl⟩ := Prod.mk.inj (List.mem_singleton.mp hcredential)
  obtain ⟨rfl, rfl⟩ := Prod.mk.inj (List.mem_singleton.mp hslot)
  exact ⟨smallKey.publicKey, rfl, hkey⟩

/-- An accepted transaction with a signature has one that verifies. -/
theorem exists_verifiesAt (hverify : tx.verify keys blockTime = .ok ())
    (hcount : tx.signatures.count ≠ 0) : ∃ credential key, tx.VerifiesAt keys credential key := by
  have hvalid := (verify_eq_ok_iff.mp hverify).2.2
  rw [SignatureMap.count, Ne, SlotMap.count_eq_zero_iff] at hcount
  push Not at hcount
  obtain ⟨credential, key, hsome⟩ := hcount
  obtain ⟨signature, hsignature⟩ := Option.ne_none_iff_exists'.mp hsome
  obtain ⟨publicKey, hkey, hsigned⟩ :=
    SignatureMap.slotVerifies_iff.mp (hvalid credential key signature hsignature)
  exact ⟨credential, key, signature, publicKey, hsignature, hkey, hsigned⟩

/-- A map may consist of credentials that have no keys. Its transaction is accepted for its time
and its energy alone, whatever the keys of the account are, and these are the only transactions that
are accepted without a signature that verifies. -/
theorem accepted_unsigned_iff {bytes : Bytes} :
    (BlockItem.decode bytes = .ok tx ∧ tx.verify keys blockTime = .ok () ∧
      ¬ ∃ credential key, tx.VerifiesAt keys credential key) ↔
    BlockItem.decode bytes = .ok tx ∧ tx.signatures.count = 0 ∧
      blockTime < tx.header.expiry.seconds ∧
      60 + tx.payloadBytes.length ≤ tx.header.energy.value.toNat := by
  constructor
  · rintro ⟨hdecode, hverify, hunsigned⟩
    have hcount : tx.signatures.count = 0 := by
      by_contra hcount
      exact hunsigned (exists_verifiesAt hverify hcount)
    obtain ⟨htime, henergy, -⟩ := verify_eq_ok_iff.mp hverify
    rw [hcount, BlockItem.payloadSize_of_decode hdecode] at henergy
    exact ⟨hdecode, hcount, htime, henergy⟩
  · rintro ⟨hdecode, hcount, htime, henergy⟩
    have hnone := SlotMap.count_eq_zero_iff.mp hcount
    refine ⟨hdecode, ?_, ?_⟩
    · rw [verify_eq_ok_iff, hcount, BlockItem.payloadSize_of_decode hdecode]
      refine ⟨htime, henergy, fun credential key signature hsignature => ?_⟩
      rw [SignatureMap.get?, hnone] at hsignature
      cases hsignature
    · rintro ⟨credential, key, signature, _, hsignature, -, -⟩
      rw [SignatureMap.get?, hnone] at hsignature
      cases hsignature

/-- A transfer that is signed by one credential with none of its keys. -/
def keylessTransfer : BlockItem.Parts where
  signatures :=
    { slots := ⟨[(0, .empty)], by simp⟩
      fits := SignatureMap.fault?_eq_none_iff.mp rfl }
  header := ⟨smallTransfer.sender, smallTransfer.nonce, ⟨101⟩, ⟨41⟩, smallTransfer.expiry⟩
  payload := smallTransfer.payload
  size_eq := rfl

/-- It is accepted for an account without keys, so acceptance does not mean that anybody signed. -/
theorem accepted_keylessTransfer :
    ¬ ∀ bytes tx keys blockTime, BlockItem.decode bytes = .ok tx →
      tx.verify keys blockTime = .ok () → ∃ credential key, tx.VerifiesAt keys credential key := by
  intro hall
  have hdecode : BlockItem.decode keylessTransfer.write = .ok keylessTransfer.transaction :=
    BlockItem.decode_eq_ok_iff.mpr ⟨keylessTransfer, rfl, rfl⟩
  have hverify : keylessTransfer.transaction.verify .empty 0 = .ok () := by rfl
  obtain ⟨credential, key, signature, _, hsignature, -, -⟩ := hall _ _ _ _ hdecode hverify
  have hcount : keylessTransfer.signatures.count = 0 := rfl
  have hnone := SlotMap.count_eq_zero_iff.mp hcount credential key
  cases hnone.symm.trans hsignature

end SignedTransaction

end AccountTx
