import AccountTx.Form.Value
import AccountTx.Header
import AccountTx.Signing.SignatureMap
import AccountTx.Transaction.BlockItem
import AccountTx.Transaction.Message

/-!
The JSON forms of headers, signatures, messages and block items. Signatures are read in three
passes, the shape of the whole map before any hexadecimal text, and all of that before the counts
and lengths.
-/

namespace AccountTx

instance : JsonForm Header where
  toJson h := .object [("sender", toJson h.sender), ("sequenceNumber", toJson h.nonce),
    ("energyAmount", toJson h.energy), ("payloadSize", toJson h.payloadSize),
    ("expiry", toJson h.expiry)]
  ofJson := (Header.mk <$> .part "sender" <*> .part "sequenceNumber" <*> .part "energyAmount"
    <*> .part "payloadSize" <*> .part "expiry" : Record _).read

instance : JsonForm SignatureMap where
  toJson s := toJson s.slots
  ofJson j := do
    let texts : SlotMap String ← ofJson j
    let slots ← IndexMap.traverse (IndexMap.traverse hexOfText) texts
    FormError.ofSigning (SignatureMap.ofSlots slots)

instance : JsonForm MessageHeader where
  toJson h := .object [("sender", toJson h.sender), ("sequenceNumber", toJson h.nonce),
    ("expiry", toJson h.expiry), ("energyAmount", toJson h.energy)]
  ofJson := (MessageHeader.mk <$> .part "sender" <*> .part "sequenceNumber" <*> .part "expiry"
    <*> .part "energyAmount" : Record _).read

instance : JsonForm Message where
  toJson m := .object [("header", toJson m.header), ("payload", toJson m.payload),
    ("signature", toJson m.signatures)]
  ofJson := (Message.mk <$> .part "header" <*> .part "payload" <*> .part "signature"
    : Record _).read

instance : JsonForm BlockItem where
  toJson b := .object [("bytes", toJson b.bytes), ("hash", toJson b.hash)]
  ofJson := (BlockItem.mk <$> .part "bytes" <*> .part "hash" : Record _).read

end AccountTx
