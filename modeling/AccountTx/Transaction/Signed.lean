import AccountTx.Bytes.Sha2
import AccountTx.Header
import AccountTx.Payload.Basic
import AccountTx.Signing.SignatureMap
import AccountTx.Transaction.Error

/-!
Signed transactions. What is signed is the digest of the header and the payload; the hash of the
transaction covers its kind and its signatures as well.
-/

namespace AccountTx

/-- What every signer of a transaction signs. -/
def signingDigest (header : Header) (payloadBytes : Bytes) : FixedBytes 32 :=
  sha256 (header.encode ++ payloadBytes)

structure SignedTransaction where
  header : Header
  payload : Payload
  payloadBytes : Bytes
  signatures : SignatureMap
  deriving DecidableEq

namespace SignedTransaction

def digest (t : SignedTransaction) : FixedBytes 32 := signingDigest t.header t.payloadBytes

/-- The kind, the signatures, the header and the payload in a row. -/
def encode (t : SignedTransaction) : Bytes :=
  Limits.accountTransactionKind :: (t.signatures.encode ++ t.header.encode ++ t.payloadBytes)

def hash (t : SignedTransaction) : TransactionHash := ⟨sha256 t.encode⟩

/-- Compares a hash that was reported with the computed one, which counts. -/
def reconcile (t : SignedTransaction) (remote : TransactionHash) :
    Except TransactionError TransactionHash :=
  if remote = t.hash then .ok t.hash else .error (.hashMismatch remote t.hash)

end SignedTransaction

end AccountTx
