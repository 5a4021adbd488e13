import AccountTx.Proofs.Transaction.Obtained

/-!
Sizes that are found without writing anything. They are the lengths of what is written, for payloads
and for signature maps, so that the size of a block item is known from its parts. What is charged by
the byte is what stands behind the signatures of a block item, all of it and nothing else.
-/

namespace AccountTx

/-! ### Payloads -/

@[simp] theorem Amount.length_encode (a : Amount) : a.encode.length = 8 :=
  BigEndian.length_ofNat _ _

@[simp] theorem ContractAddress.length_encode (a : ContractAddress) : a.encode.length = 16 := by
  rw [encode, List.length_append, BigEndian.length_ofNat, BigEndian.length_ofNat]

namespace Payload

@[simp] theorem length_counted (bytes : Bytes) : (counted bytes).length = 2 + bytes.length := by
  rw [counted, List.length_append, BigEndian.length_ofNat]

theorem length_counted_initName (name : InitName) :
    (counted name.encode).length = name.encodedSize :=
  length_counted _

theorem length_counted_receiveName (name : ReceiveName) :
    (counted name.encode).length = name.encodedSize :=
  length_counted _

theorem length_counted_parameter (parameter : Parameter) :
    (counted parameter.bytes).length = parameter.encodedSize :=
  length_counted _

theorem length_counted_data (data : ChainData) :
    (counted data.bytes).length = data.encodedSize :=
  length_counted _

/-- The tag takes a byte, and the fields take what `size` adds for them. -/
theorem length_encode (p : Payload) : p.encode.length = p.size := by
  rw [encode, List.length_cons]
  cases p with
  | deployModule module => exact Nat.add_comm _ 1
  | initContract amount module name parameter energy =>
      simp only [encodeBody, List.length_append, amount.length_encode, module.bytes.length_eq,
        length_counted_initName, length_counted_parameter, size]
      omega
  | updateContract amount contract name parameter energy =>
      simp only [encodeBody, List.length_append, amount.length_encode, contract.length_encode,
        length_counted_receiveName, length_counted_parameter, size]
      omega
  | transfer amount receiver =>
      simp only [encodeBody, List.length_append, amount.length_encode, receiver.bytes.length_eq,
        size]
  | registerData data =>
      rw [encodeBody, length_counted_data, size, Nat.add_comm]
  | transferWithMemo amount receiver memo =>
      simp only [encodeBody, List.length_append, amount.length_encode, receiver.bytes.length_eq,
        length_counted_data, size]
      omega

end Payload

/-! ### Block items -/

namespace SignedTransaction

/-- What is charged by the byte. -/
def chargedBytes (tx : SignedTransaction) : Bytes := tx.header.encode ++ tx.payloadBytes

theorem bytes_toBlockItem_eq (tx : SignedTransaction) :
    tx.toBlockItem.bytes = [0, 0] ++ tx.signatures.encode ++ tx.chargedBytes := by
  simp [toBlockItem, encode, chargedBytes, Limits.blockItemVersion, Limits.accountTransactionKind]

namespace Obtained

variable {tx : SignedTransaction}

theorem length_chargedBytes (h : tx.Obtained) : tx.chargedBytes.length = 60 + tx.payload.size := by
  rw [chargedBytes, List.length_append, tx.header.length_encode, ← h.encode_payload,
    Payload.length_encode]

theorem length_toBlockItem (h : tx.Obtained) :
    tx.toBlockItem.bytes.length = 2 + tx.signatures.encodedSize + 60 + tx.payload.size := by
  calc tx.toBlockItem.bytes.length
      = 2 + tx.signatures.encode.length + tx.chargedBytes.length := by
        rw [bytes_toBlockItem_eq, List.length_append, List.length_append]
        rfl
    _ = 2 + tx.signatures.encodedSize + (60 + tx.payload.size) := by
        rw [tx.signatures.length_encode, h.length_chargedBytes]
    _ = 2 + tx.signatures.encodedSize + 60 + tx.payload.size := (Nat.add_assoc _ _ _).symm

end Obtained

/-- A transaction is made from a prepared one, in one step or in two. -/
inductive IsAssembly (t : PreparedTransaction) (tx : SignedTransaction) : Prop where
  | atOnce {r : Registry} : t.sign r = .ok tx → IsAssembly t tx
  | inSteps {count : UInt32} {u : UnsignedTransaction} {r : Registry} :
      t.withSignatureCount count = .ok u → u.sign r = .ok tx → IsAssembly t tx

theorem IsAssembly.exists_sign {t : PreparedTransaction} {tx : SignedTransaction}
    (h : IsAssembly t tx) : ∃ r, t.sign r = .ok tx := by
  cases h with
  | atOnce hsign => exact ⟨_, hsign⟩
  | inSteps hheader hsign => exact ⟨_, PreparedTransaction.sign_of_steps hheader hsign⟩

/-- The header charges for what the payload does, for each signature, and for each byte behind the
signatures of the block item; these are the bytes of the header and the payload. -/
structure ChargesByWire (t : PreparedTransaction) (tx : SignedTransaction) : Prop where
  length : tx.toBlockItem.bytes.length = 2 + tx.signatures.encodedSize + 60 + t.payload.size
  wire : tx.toBlockItem.bytes =
    [0, 0] ++ tx.signatures.encode ++ (tx.header.encode ++ t.payload.encode)
  charged : (tx.header.encode ++ t.payload.encode).length = 60 + t.payload.size
  energy : tx.header.energy.value.toNat = t.payload.baseCost.value.toNat
    + Limits.energyPerSignature.toNat * tx.signatures.count
    + Limits.energyPerByte.toNat * (tx.header.encode ++ t.payload.encode).length

theorem IsAssembly.chargesByWire {t : PreparedTransaction} {tx : SignedTransaction}
    (h : IsAssembly t tx) : ChargesByWire t tx := by
  obtain ⟨r, hsign⟩ := h.exists_sign
  have hobtained : tx.Obtained := .assembled hsign
  have hof := PreparedTransaction.sign_eq_ok_iff.mp hsign
  have hcharged : tx.chargedBytes = tx.header.encode ++ t.payload.encode := by
    rw [chargedBytes, hof.payloadBytes_eq]
  have hlength := hobtained.length_chargedBytes
  rw [hcharged, hof.payload_eq] at hlength
  constructor
  · rw [hobtained.length_toBlockItem, hof.payload_eq]
  · rw [bytes_toBlockItem_eq, hcharged]
  · exact hlength
  -- the header was made before there were signatures, for as many as there are now
  · have henergy := hof.header_isOf.energy_eq
    have hperSignature : Limits.energyPerSignature.toNat = 100 := rfl
    have hperByte : Limits.energyPerByte.toNat = 1 := rfl
    rw [t.payload.length_encode] at henergy
    rw [hlength, hof.count_eq, hperSignature, hperByte]
    omega

/-- The sizes that are computed for payloads and signatures are the lengths of what is written for
them. So the length of a block item is the sum of these and of its fixed parts, and its header
charges for the bytes of header and payload that are on the wire. -/
theorem sizes_exact :
    (∀ p : Payload, p.size = p.encode.length) ∧
    (∀ s : SignatureMap, s.encodedSize = s.encode.length) ∧
    (∀ tx : SignedTransaction, tx.Obtained →
      tx.toBlockItem.bytes.length = 2 + tx.signatures.encodedSize + 60 + tx.payload.size) ∧
    ∀ (t : PreparedTransaction) (tx : SignedTransaction), IsAssembly t tx → ChargesByWire t tx :=
  ⟨fun p => p.length_encode.symm, fun s => s.length_encode.symm,
    fun _ h => h.length_toBlockItem, fun _ _ h => h.chargesByWire⟩

/-- The signatures of the two signers have three bytes and none, and their map has fourteen. The
call may use 5000 units of energy, and with the header it is 111 bytes long. -/
theorem sizes_of_initCall :
    ∃ tx, initCall.sign twoSigners = .ok tx ∧ tx.signatures.encodedSize = 14 ∧
      initCall.payload.size = 51 ∧ tx.toBlockItem.bytes.length = 127 ∧
      tx.header.energy.value.toNat = 5000 + 100 * 2 + 1 * (60 + 51) := by
  have hsign : initCall.sign twoSigners = .ok _ := rfl
  have hsizes := sizes_exact.2.2.2 _ _ (.atOnce hsign)
  refine ⟨_, hsign, rfl, rfl, hsizes.length, ?_⟩
  rw [hsizes.energy, hsizes.charged]
  rfl

end SignedTransaction

end AccountTx
