import AccountTx.Signing.Registry
import AccountTx.Transaction.Signed

/-!
From a payload to a signed transaction. The number of signatures is fixed before the header is made,
because the energy in the header depends on it, and signing checks that it is the number of
signatures the registry gives.
-/

namespace AccountTx

/-- A payload with its sender, sequence number and expiry. -/
structure PreparedTransaction where
  sender : Address
  nonce : Nonce
  expiry : Expiry
  payload : Payload
  deriving DecidableEq

/-- A transaction that lacks only its signatures, and the number of those it has room for. -/
structure UnsignedTransaction where
  header : Header
  payload : Payload
  signatureCount : UInt32
  deriving DecidableEq

namespace UnsignedTransaction

def payloadBytes (t : UnsignedTransaction) : Bytes := t.payload.encode

def digest (t : UnsignedTransaction) : FixedBytes 32 := signingDigest t.header t.payloadBytes

def sign (t : UnsignedTransaction) (signers : Registry) :
    Except TransactionError SignedTransaction :=
  let count := UInt32.ofNat signers.count
  if count ≠ t.signatureCount then
    .error (.signing (.signatureCountMismatch t.signatureCount count))
  else
    match signers.sign t.digest.toList with
    | .ok signatures => .ok ⟨t.header, t.payload, t.payloadBytes, signatures⟩
    | .error e => .error (.signing e)

end UnsignedTransaction

namespace PreparedTransaction

def payloadBytes (t : PreparedTransaction) : Bytes := t.payload.encode

/-- Makes the header, with the energy for so many signatures. -/
def withSignatureCount (t : PreparedTransaction) (count : UInt32) :
    Except TransactionError UnsignedTransaction :=
  let size := t.payloadBytes.length
  if size < UInt32.size then
    let payloadSize := UInt32.ofNat size
    match Energy.cost count t.payload.baseCost Limits.headerSize payloadSize with
    | .ok energy =>
        .ok ⟨⟨t.sender, t.nonce, energy, ⟨payloadSize⟩, t.expiry⟩, t.payload, count⟩
    | .error e => .error (.energy e)
  else .error (.payloadTooLarge size)

/-- Makes the header for all signers of a registry, and signs. -/
def sign (t : PreparedTransaction) (signers : Registry) :
    Except TransactionError SignedTransaction := do
  if signers.isEmpty then .error (.signing .noSigners)
  else
    let unsigned ← t.withSignatureCount (UInt32.ofNat signers.count)
    unsigned.sign signers

end PreparedTransaction

end AccountTx
