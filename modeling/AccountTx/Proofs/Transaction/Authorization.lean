import AccountTx.Proofs.Transaction.Obtained

/-!
What a signature authorizes. The bytes that are signed are those of the header and of the payload;
the header is always as long, so the bytes tell where it ends, and with it which header and which
payload they are. Only the energy of a contract call is not among them, and this follows from the
header once the number of signatures is known.
-/

namespace AccountTx

theorem Header.encode_append_inj {h h' : Header} {rest rest' : Bytes} :
    h.encode ++ rest = h'.encode ++ rest' ↔ h = h' ∧ rest = rest' :=
  Reader.append_inj_of_read fun _ _ => read_eq_ok_iff.mpr rfl

/-- What a header leaves for a contract call depends on the number of signatures alone. -/
theorem BlockItem.Parts.allowance_congr {x y : Parts} (hheader : x.header = y.header)
    (hcount : x.signatures.count = y.signatures.count) : x.allowance = y.allowance := by
  rw [allowance, allowance, hheader, hcount]

namespace SignedTransaction

/-- The bytes whose digest is signed. -/
def signedBytes (tx : SignedTransaction) : Bytes := tx.header.encode ++ tx.payloadBytes

theorem digest_eq (tx : SignedTransaction) : tx.digest = sha256 tx.signedBytes := rfl

variable {tx tx' : SignedTransaction}

theorem Obtained.signedBytes_eq_iff (h : tx.Obtained) (h' : tx'.Obtained) :
    tx.signedBytes = tx'.signedBytes ↔
      tx.header = tx'.header ∧ ∃ e, tx.payload.withMaxEnergy e = tx'.payload := by
  rw [signedBytes, signedBytes, Header.encode_append_inj, ← h.encode_payload, ← h'.encode_payload,
    Payload.encode_eq_encode_iff]

/-- The energy of a contract call is the same where the headers and the numbers of signatures
are. -/
theorem Obtained.payload_eq (h : tx.Obtained) (h' : tx'.Obtained) {e : Energy}
    (hheader : tx.header = tx'.header) (hcount : tx.signatures.count = tx'.signatures.count)
    (hpayload : tx.payload.withMaxEnergy e = tx'.payload) : tx.payload = tx'.payload := by
  obtain ⟨x, rfl⟩ := obtained_iff.mp h
  obtain ⟨y, rfl⟩ := obtained_iff.mp h'
  have hallowance : x.allowance = y.allowance :=
    BlockItem.Parts.allowance_congr hheader hcount
  simp only [BlockItem.Parts.transaction, Payload.withMaxEnergy_withMaxEnergy] at hpayload ⊢
  calc x.payload.withMaxEnergy ⟨UInt64.ofNat x.allowance⟩
      = (x.payload.withMaxEnergy e).withMaxEnergy ⟨UInt64.ofNat x.allowance⟩ := by
        rw [Payload.withMaxEnergy_withMaxEnergy]
    _ = (y.payload.withMaxEnergy ⟨UInt64.ofNat y.allowance⟩).withMaxEnergy
          ⟨UInt64.ofNat x.allowance⟩ := by rw [hpayload]
    _ = y.payload.withMaxEnergy ⟨UInt64.ofNat y.allowance⟩ := by
        rw [Payload.withMaxEnergy_withMaxEnergy, hallowance]

/-- Of transactions that were obtained in any way, two with the same signed bytes have the same
header, and payloads that differ at most in the energy of a contract call; with as many signatures,
they have the same payload. -/
theorem signedBytes_authorize (h : tx.Obtained) (h' : tx'.Obtained) :
    (tx.signedBytes = tx'.signedBytes ↔
      tx.header = tx'.header ∧ ∃ e, tx.payload.withMaxEnergy e = tx'.payload) ∧
    (tx.signatures.count = tx'.signatures.count →
      (tx.signedBytes = tx'.signedBytes ↔ tx.header = tx'.header ∧ tx.payload = tx'.payload)) ∧
    tx.digest = sha256 tx.signedBytes := by
  refine ⟨h.signedBytes_eq_iff h', fun hcount => ?_, tx.digest_eq⟩
  rw [h.signedBytes_eq_iff h']
  constructor
  · rintro ⟨hheader, e, hpayload⟩
    exact ⟨hheader, h.payload_eq h' hheader hcount hpayload⟩
  · rintro ⟨hheader, hpayload⟩
    exact ⟨hheader, tx'.payload.baseCost, by rw [hpayload, Payload.withMaxEnergy_baseCost]⟩

/-- The parts of a call of an init function with the energy for two signatures, but with one. -/
def initCallOnce : BlockItem.Parts where
  signatures :=
    { slots := ⟨[(0, ⟨[(4, [1, 2, 3])], by simp⟩)], by simp⟩
      fits := SignatureMap.fault?_eq_none_iff.mp rfl }
  header := ⟨initCall.sender, initCall.nonce, ⟨5311⟩, ⟨51⟩, initCall.expiry⟩
  payload := initCall.payload
  size_eq := rfl

theorem authorize_initCall :
    ∃ tx tx' : SignedTransaction, initCall.sign twoSigners = .ok tx ∧
      BlockItem.decode initCallOnce.write = .ok tx' ∧ tx.signedBytes = tx'.signedBytes ∧
      tx.header = tx'.header ∧ (∃ e, tx.payload.withMaxEnergy e = tx'.payload) ∧
      tx.payload ≠ tx'.payload := by
  have hsign : initCall.sign twoSigners = .ok
      { header := ⟨initCall.sender, initCall.nonce, ⟨5311⟩, ⟨51⟩, initCall.expiry⟩
        payload := initCall.payload
        payloadBytes := initCall.payload.encode
        signatures :=
          { slots := SlotMap.mapValues (fun signer => signer []) twoSigners.signers
            fits := SignatureMap.fault?_eq_none_iff.mp rfl } } := by
    rfl
  have hdecode : BlockItem.decode initCallOnce.write = .ok initCallOnce.transaction :=
    BlockItem.decode_eq_ok_iff.mpr ⟨initCallOnce, rfl, rfl⟩
  have hequal := (signedBytes_authorize (.assembled hsign) (.read hdecode)).1.mp rfl
  refine ⟨_, _, hsign, hdecode, rfl, hequal.1, hequal.2, ?_⟩
  decide

end SignedTransaction

end AccountTx
