import AccountTx.Transaction.Signed

/-!
What the chain checks before it accepts a transaction: that it comes in time, that its energy pays
for its signatures and its size, and that every signature verifies under the key of its slot.
-/

namespace AccountTx

/-- The first slot whose signature does not verify. -/
def SignatureMap.firstInvalid? (s : SignatureMap) (digest : Bytes) (keys : SlotMap PublicKey) :
    Option (UInt8 × UInt8) :=
  s.slots.entries.findSome? fun c =>
    (c.2.entries.find? fun k => !slotVerifies keys digest c.1 k.1 k.2).map fun k => (c.1, k.1)

namespace SignedTransaction

/-- The energy that the signatures and the size cost, whatever the payload does. -/
def overhead (t : SignedTransaction) : Except EnergyError Energy :=
  Energy.cost (UInt32.ofNat t.signatures.count) .zero Limits.headerSize t.header.payloadSize.value

def verify (t : SignedTransaction) (keys : SlotMap PublicKey) (blockTime : UInt64) :
    Except TransactionError Unit :=
  if t.header.expiry.isExpiredAt blockTime then .error (.expired t.header.expiry)
  else
    match t.overhead with
    | .error e => .error (.energy e)
    | .ok required =>
        if t.header.energy.value < required.value then
          .error (.insufficientEnergy t.header.energy required)
        else
          match t.signatures.firstInvalid? t.digest.toList keys with
          | some (credential, key) => .error (.invalidSignature credential key)
          | none => .ok ()

end SignedTransaction

end AccountTx
