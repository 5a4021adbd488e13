import AccountTx.Value.Address
import AccountTx.Value.Energy
import AccountTx.Value.Expiry
import AccountTx.Value.Nonce
import AccountTx.Wire.Reader

/-!
The header of a transaction: who sends it, in which order, with how much energy, and until when. It
is always written in 60 bytes.
-/

namespace AccountTx

@[ext] structure Header where
  sender : Address
  nonce : Nonce
  energy : Energy
  payloadSize : PayloadSize
  expiry : Expiry
  deriving DecidableEq

namespace Header

def encode (h : Header) : Bytes :=
  h.sender.bytes.toList ++ BigEndian.ofNat 8 h.nonce.value.toNat
    ++ BigEndian.ofNat 8 h.energy.value.toNat ++ BigEndian.ofNat 4 h.payloadSize.value.toNat
    ++ h.expiry.encode

@[simp] theorem length_encode (h : Header) : h.encode.length = 60 := by
  simp [encode, Expiry.encode, h.sender.bytes.length_eq]

def read : Reader Header := do
  let sender ← Reader.fixed "sender" 32
  let nonce ← Reader.check (Nonce.ofNumber (← Reader.word "sequence number"))
  let energy ← Reader.word "energy"
  let payloadSize ← Reader.number "payload size" 4
  let expiry ← Reader.check (Expiry.ofSeconds (← Reader.word "expiry"))
  return ⟨⟨sender⟩, nonce, ⟨energy⟩, ⟨UInt32.ofNat payloadSize⟩, expiry⟩

def decode (bytes : Bytes) : Except DecodeError Header :=
  Reader.complete "transaction header" read bytes

end Header

end AccountTx
