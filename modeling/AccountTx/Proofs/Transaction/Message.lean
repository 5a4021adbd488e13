import AccountTx.Proofs.Form.Value
import AccountTx.Proofs.Transaction.Authorization

/-!
The message of a transaction says as much as its block item. The text of a message is read back as
the same message, and the message has all that the block item is made of: the one field that it
leaves out is the number of bytes of its payload.
-/

namespace AccountTx

namespace Message

/-- The header with the fields of the message and the size of its payload. -/
def blockHeader (m : Message) : Header where
  sender := m.header.sender
  nonce := m.header.nonce
  energy := m.header.energy
  payloadSize := ⟨UInt32.ofNat m.payload.length⟩
  expiry := m.header.expiry

/-- The version and the kind, the signatures, the header and the payload in a row. -/
def framed (m : Message) : Bytes :=
  [0, 0] ++ m.signatures.encode ++ m.blockHeader.encode ++ m.payload

end Message

namespace SignedTransaction

variable {tx : SignedTransaction}

theorem Obtained.blockHeader_toMessage (h : tx.Obtained) :
    tx.toMessage.blockHeader = tx.header := by
  have hsize : (⟨UInt32.ofNat tx.payloadBytes.length⟩ : PayloadSize) = tx.header.payloadSize := by
    rw [← h.size_eq, UInt32.ofNat_toNat]
  calc tx.toMessage.blockHeader
      = ⟨tx.header.sender, tx.header.nonce, tx.header.energy,
          ⟨UInt32.ofNat tx.payloadBytes.length⟩, tx.header.expiry⟩ := rfl
    _ = tx.header := by rw [hsize]

theorem Obtained.framed_toMessage (h : tx.Obtained) :
    tx.toMessage.framed = tx.toBlockItem.bytes := by
  rw [Message.framed, h.blockHeader_toMessage]
  simp [toMessage, toBlockItem, encode, Limits.blockItemVersion, Limits.accountTransactionKind]

/-- However a transaction was obtained, the text of its message is read as an equal message, from
which the block item can be put together again. -/
theorem message_carries_blockItem (h : tx.Obtained) :
    ∃ m : Message, ofText? (toText tx.toMessage) = some (.ok m) ∧ m = tx.toMessage ∧
      m.blockHeader.payloadSize.value.toNat = m.payload.length ∧
      m.framed = tx.toBlockItem.bytes := by
  refine ⟨tx.toMessage, ofText?_toText tx.toMessage, rfl, ?_, h.framed_toMessage⟩
  rw [h.blockHeader_toMessage]
  exact h.size_eq

/-- The bytes of a block item, by way of the text of a message. -/
theorem message_initCallOnce :
    ∃ m : Message, ofText? (toText initCallOnce.transaction.toMessage) = some (.ok m) ∧
      m.payload.length = 51 ∧ m.framed = initCallOnce.write := by
  have hdecode : BlockItem.decode initCallOnce.write = .ok initCallOnce.transaction :=
    BlockItem.decode_eq_ok_iff.mpr ⟨initCallOnce, rfl, rfl⟩
  obtain ⟨m, hread, rfl, -, hframed⟩ := message_carries_blockItem (.read hdecode)
  exact ⟨_, hread, rfl, hframed.trans initCallOnce.bytes_toBlockItem⟩

end SignedTransaction

end AccountTx
