import AccountTx.Payload.Decode
import AccountTx.Transaction.Signed

/-!
Block items, the form in which transactions go to the chain: a version, and the signed transaction.
The energy that a contract call may use is not written; it is what the header allows beyond the
charges for the signatures and the size.
-/

namespace AccountTx

/-- The bytes of a transaction in a block, and the hash that comes with them. -/
structure BlockItem where
  bytes : Bytes
  hash : TransactionHash
  deriving DecidableEq

def SignedTransaction.toBlockItem (t : SignedTransaction) : BlockItem :=
  ⟨Limits.blockItemVersion :: t.encode, t.hash⟩

namespace BlockItem

/-- What a header allows for the payload itself, zero if it allows too little. -/
def budget (header : Header) (signatures : Nat) : Energy :=
  match Energy.cost (UInt32.ofNat signatures) .zero Limits.headerSize header.payloadSize.value with
  | .ok overhead => ⟨(Word.sub? header.energy.value overhead.value).getD 0⟩
  | .error _ => .zero

def readVersion : Reader Unit := do
  let version ← Reader.byte "block item version"
  if version ≠ Limits.blockItemVersion then Reader.fail (.invalidVersion version)

def readKind : Reader Unit := do
  let kind ← Reader.byte "block item kind"
  if kind ≠ Limits.accountTransactionKind then Reader.fail (.invalidBlockItemKind kind)

/-- The payload is all that follows the header, and as long as the header says. -/
def read : Reader SignedTransaction := do
  readVersion
  readKind
  let signatures ← SignatureMap.read
  let header ← Header.read
  let payloadBytes ← Reader.all
  if payloadBytes.length = header.payloadSize.value.toNat then
    let payload ← Payload.decodeWithEnergy payloadBytes (budget header signatures.count)
    return ⟨header, payload, payloadBytes, signatures⟩
  else Reader.fail (.payloadSizeMismatch header.payloadSize.value payloadBytes.length)

def decode (bytes : Bytes) : Except DecodeError SignedTransaction :=
  (read bytes).map (·.1)

end BlockItem

end AccountTx
