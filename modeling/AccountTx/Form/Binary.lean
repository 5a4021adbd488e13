import AccountTx.Form.Error
import AccountTx.Header
import AccountTx.Signing.SignatureMap
import AccountTx.Transaction.BlockItem
import AccountTx.Transaction.Message

/-!
A second binary form of values, which keeps to one rule for all of them: numbers in their full
width with the least significant byte first, byte strings of any kind and texts after their length
in eight bytes, the entries of a map after their number, and the parts of a record in a row. A value
is checked as soon as its bytes are read. Signatures are hexadecimal texts here too.
-/

namespace AccountTx

inductive BinaryError where
  | tooShort
  | refused (cause : Refusal)
  deriving DecidableEq

abbrev BinaryReader (α : Type) := StateT Bytes (Except BinaryError) α

class BinaryForm (α : Type) where
  write : α → Bytes
  read : BinaryReader α

namespace Binary

/-- The bytes of a number, least significant first. -/
def ofNat (width n : Nat) : Bytes := (BigEndian.ofNat width n).reverse

def take (n : Nat) : BinaryReader (FixedBytes n) := fun bytes =>
  if h : hasAtLeast n bytes = true then
    .ok (⟨bytes.take n, length_take_of_hasAtLeast h⟩, bytes.drop n)
  else .error .tooShort

def number (width : Nat) : BinaryReader Nat := do
  return BigEndian.toNat (← take width).toList.reverse

def refuse {α : Type} (cause : Refusal) : BinaryReader α := fun _ => .error (.refused cause)

/-- The outcome of a check; a fault of it is the cause of a refusal. -/
def checked {ε α : Type} (cause : ε → Refusal) : Except ε α → BinaryReader α
  | .ok a => pure a
  | .error e => refuse (cause e)

/-- A value that there has to be. -/
def required {α : Type} (cause : Refusal) : Option α → BinaryReader α
  | some a => pure a
  | none => refuse cause

/-- The value at the front of a byte string; what follows it is ignored. -/
def decode {α : Type} [BinaryForm α] (bytes : Bytes) : Except BinaryError α :=
  (BinaryForm.read bytes).map (·.1)

end Binary

open Binary BinaryForm

instance : BinaryForm UInt8 where
  write n := ofNat 1 n.toNat
  read := return UInt8.ofNat (← number 1)

instance : BinaryForm UInt64 where
  write n := ofNat 8 n.toNat
  read := return UInt64.ofNat (← number 8)

instance : BinaryForm UInt32 where
  write n := ofNat 4 n.toNat
  read := return UInt32.ofNat (← number 4)

instance : BinaryForm Bytes where
  write bytes := ofNat 8 bytes.length ++ bytes
  read := do return (← take (← number 8)).toList

instance : BinaryForm String where
  write text := write (Utf8.encode text)
  read := do required .notText (Utf8.decode? (← read))

instance {n : Nat} : BinaryForm (FixedBytes n) where
  write b := write b.toList
  read := do
    let bytes : Bytes ← read
    required (.wrongLength n bytes.length) (FixedBytes.ofList? n bytes)

instance : BinaryForm Address where
  write a := write a.bytes
  read := return ⟨← read⟩

instance : BinaryForm ModuleRef where
  write r := write r.bytes
  read := return ⟨← read⟩

instance : BinaryForm TransactionHash where
  write h := write h.bytes
  read := return ⟨← read⟩

instance : BinaryForm PublicKey where
  write k := write k.bytes
  read := do checked .key (PublicKey.ofFixed (← read))

instance : BinaryForm ChainData where
  write d := write d.bytes
  read := do checked .value (ChainData.ofBytes (← read))

instance : BinaryForm Parameter where
  write p := write p.bytes
  read := do checked .value (Parameter.ofBytes (← read))

instance : BinaryForm Amount where
  write a := write a.micro
  read := return ⟨← read⟩

instance : BinaryForm Energy where
  write e := write e.value
  read := return ⟨← read⟩

instance : BinaryForm PayloadSize where
  write s := write s.value
  read := return ⟨← read⟩

instance : BinaryForm Nonce where
  write n := write n.value
  read := do checked .value (Nonce.ofNumber (← read))

instance : BinaryForm Expiry where
  write e := write e.seconds
  read := do checked .value (Expiry.ofSeconds (← read))

instance : BinaryForm InitName where
  write n := write n.text
  read := do checked .value (InitName.ofText (← read))

instance : BinaryForm ReceiveName where
  write n := write n.text
  read := do checked .value (ReceiveName.ofText (← read))

instance : BinaryForm ContractAddress where
  write a := write a.index ++ write a.subindex
  read := do
    let index ← read
    let subindex ← read
    return ⟨index, subindex⟩

instance : BinaryForm Header where
  write h := write h.sender ++ write h.nonce ++ write h.energy ++ write h.payloadSize
    ++ write h.expiry
  read := do
    let sender ← read
    let nonce ← read
    let energy ← read
    let payloadSize ← read
    let expiry ← read
    return ⟨sender, nonce, energy, payloadSize, expiry⟩

instance : BinaryForm MessageHeader where
  write h := write h.sender ++ write h.nonce ++ write h.expiry ++ write h.energy
  read := do
    let sender ← read
    let nonce ← read
    let expiry ← read
    let energy ← read
    return ⟨sender, nonce, expiry, energy⟩

namespace IndexMap

variable {α : Type} [BinaryForm α]

/-- Reads `n` entries into a map, in whatever order they come; a later one takes the place of an
earlier one of the same index. -/
def readEntries : Nat → IndexMap α → BinaryReader (IndexMap α)
  | 0, m => pure m
  | n + 1, m => do
      let k ← read
      let v ← read
      readEntries n (m.insert k v)

instance : BinaryForm (IndexMap α) where
  write m := ofNat 8 m.size ++ m.entries.flatMap fun e => write e.1 ++ write e.2
  read := do readEntries (← number 8) .empty

end IndexMap

/-- The whole map is read before any hexadecimal text is looked at, and all of those before the
counts and lengths. -/
instance : BinaryForm SignatureMap where
  write s := write (SlotMap.mapValues Hex.encode s.slots)
  read := do
    let texts : SlotMap String ← read
    let slots ← checked .hex (IndexMap.traverse (IndexMap.traverse Hex.decode) texts)
    checked .signatures (SignatureMap.ofSlots slots)

instance : BinaryForm Message where
  write m := write m.header ++ write m.payload ++ write m.signatures
  read := do
    let header ← read
    let payload ← read
    let signatures ← read
    return ⟨header, payload, signatures⟩

instance : BinaryForm BlockItem where
  write b := write b.bytes ++ write b.hash
  read := do
    let bytes ← read
    let hash ← read
    return ⟨bytes, hash⟩

end AccountTx
