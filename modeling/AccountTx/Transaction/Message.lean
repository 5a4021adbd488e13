import AccountTx.Transaction.Signed

/-!
Signed transactions in separate parts, for those who pass them on by field. The size of the payload
is not among the fields.
-/

namespace AccountTx

structure MessageHeader where
  sender : Address
  nonce : Nonce
  expiry : Expiry
  energy : Energy
  deriving DecidableEq

structure Message where
  header : MessageHeader
  payload : Bytes
  signatures : SignatureMap
  deriving DecidableEq

def SignedTransaction.toMessage (t : SignedTransaction) : Message where
  header := ⟨t.header.sender, t.header.nonce, t.header.expiry, t.header.energy⟩
  payload := t.payloadBytes
  signatures := t.signatures

end AccountTx
