import AccountTx.IndexMap
import AccountTx.Key
import AccountTx.Signing.Error
import AccountTx.Wire.Reader

/-!
The signatures of a transaction by credential and key. There is at least one credential, a
credential may be without keys, and the counts and lengths fit the bytes that they are written in.
Indices are written in ascending order and read in no other.
-/

namespace AccountTx

namespace SignatureMap

/-- The keys of one credential: not too many, and no signature too long. -/
def KeysFit (keys : IndexMap Bytes) : Prop :=
  keys.size ≤ Limits.maxSigners ∧ ∀ e ∈ keys.entries, e.2.length ≤ Limits.maxSignatureLength

def Fits (slots : SlotMap Bytes) : Prop :=
  0 < slots.size ∧ slots.size ≤ Limits.maxSigners ∧ ∀ e ∈ slots.entries, KeysFit e.2

/-- The first fault of a credential, its keys taken in ascending order. -/
def keysFault? (credential : UInt8) (keys : IndexMap Bytes) : Option SigningError :=
  if Limits.maxSigners < keys.size then some (.tooManyKeys credential Limits.maxSigners)
  else
    keys.entries.findSome? fun e =>
      if Limits.maxSignatureLength < e.2.length then
        some (.signatureTooLong credential e.1 e.2.length)
      else none

/-- The first fault of a map, credentials taken in ascending order. -/
def fault? (slots : SlotMap Bytes) : Option SigningError :=
  if slots.size = 0 then some .noSigners
  else if Limits.maxSigners < slots.size then some (.tooManyCredentials Limits.maxSigners)
  else slots.entries.findSome? fun e => keysFault? e.1 e.2

theorem keysFault?_eq_none_iff {credential : UInt8} {keys : IndexMap Bytes} :
    keysFault? credential keys = none ↔ KeysFit keys := by
  simp only [keysFault?, KeysFit]
  split
  next h => simp [Nat.not_le.mpr h]
  next h => simp [Nat.not_lt.mp h]

theorem fault?_eq_none_iff {slots : SlotMap Bytes} : fault? slots = none ↔ Fits slots := by
  simp only [fault?, Fits]
  split
  next h => simp [h]
  next h =>
    split
    next h' => simp [Nat.not_le.mpr h']
    next h' =>
      simp [Nat.pos_of_ne_zero h, Nat.not_lt.mp h', List.findSome?_eq_none_iff,
        keysFault?_eq_none_iff]

end SignatureMap

@[ext] structure SignatureMap where
  slots : SlotMap Bytes
  fits : SignatureMap.Fits slots

namespace SignatureMap

instance : DecidableEq SignatureMap := fun a b =>
  if h : a.slots = b.slots then .isTrue (by cases a; cases b; simp_all)
  else .isFalse fun heq => h (heq ▸ rfl)

def ofSlots (slots : SlotMap Bytes) : Except SigningError SignatureMap :=
  match h : fault? slots with
  | none => .ok ⟨slots, fault?_eq_none_iff.mp h⟩
  | some e => .error e

/-- The number of signatures. -/
def count (s : SignatureMap) : Nat := SlotMap.count s.slots

def get? (s : SignatureMap) (credential key : UInt8) : Option Bytes :=
  SlotMap.find? s.slots credential key

def encodeKey (e : UInt8 × Bytes) : Bytes :=
  e.1 :: (BigEndian.ofNat 2 e.2.length ++ e.2)

def encodeCredential (e : UInt8 × IndexMap Bytes) : Bytes :=
  e.1 :: UInt8.ofNat e.2.size :: e.2.entries.flatMap encodeKey

def encode (s : SignatureMap) : Bytes :=
  UInt8.ofNat s.slots.size :: s.slots.entries.flatMap encodeCredential

/-- The number of bytes that a map takes, found without writing it. -/
def encodedSize (s : SignatureMap) : Nat :=
  1 + total (s.slots.entries.map fun e =>
    2 + total (e.2.entries.map fun k => 3 + k.2.length))

theorem keysFit_push {m : IndexMap Bytes} {n : Nat} {k : UInt8} {v : Bytes} (hk : m.Below k)
    (hroom : m.size + (n + 1) ≤ Limits.maxSigners)
    (hshort : ∀ e ∈ m.entries, e.2.length ≤ Limits.maxSignatureLength)
    (hv : v.length ≤ Limits.maxSignatureLength) :
    (m.push k v hk).size + n ≤ Limits.maxSigners ∧
      ∀ e ∈ (m.push k v hk).entries, e.2.length ≤ Limits.maxSignatureLength := by
  constructor
  · simp only [IndexMap.size_push]
    omega
  · intro e he
    rcases List.mem_append.mp he with he | he
    · exact hshort e he
    · rw [List.mem_singleton.mp he]
      exact hv

theorem fits_push {m : SlotMap Bytes} {n : Nat} {c : UInt8} {keys : IndexMap Bytes}
    (hc : m.Below c) (hroom : m.size + (n + 1) ≤ Limits.maxSigners)
    (hm : ∀ e ∈ m.entries, KeysFit e.2) (hkeys : KeysFit keys) :
    (m.push c keys hc).size + n ≤ Limits.maxSigners ∧
      ∀ e ∈ (m.push c keys hc).entries, KeysFit e.2 := by
  constructor
  · simp only [IndexMap.size_push]
    omega
  · intro e he
    rcases List.mem_append.mp he with he | he
    · exact hm e he
    · rw [List.mem_singleton.mp he]
      exact hkeys

theorem toNat_two_le (b : FixedBytes 2) :
    BigEndian.toNat b.toList ≤ Limits.maxSignatureLength := by
  have h := BigEndian.toNat_lt b.toList
  rw [b.length_eq] at h
  exact Nat.le_of_lt_succ h

/-- Reads `n` more keys after those of `m`. -/
def readKeys : (n : Nat) → (m : IndexMap Bytes) → m.size + n ≤ Limits.maxSigners →
    (∀ e ∈ m.entries, e.2.length ≤ Limits.maxSignatureLength) →
    Reader { keys : IndexMap Bytes // KeysFit keys }
  | 0, m, hroom, hshort => pure ⟨m, hroom, hshort⟩
  | n + 1, m, hroom, hshort => do
      let key ← Reader.byte "key index"
      if h : m.Below key then
        let length ← Reader.fixed "signature length" 2
        let signature ← Reader.fixed "signature" (BigEndian.toNat length.toList)
        have hfit := keysFit_push h hroom hshort
          (Nat.le_trans (Nat.le_of_eq signature.length_eq) (toNat_two_le length))
        readKeys n (m.push key signature.toList h) hfit.1 hfit.2
      else Reader.fail (.unorderedIndex "key index")

theorem empty_room {α : Type} (count : UInt8) :
    (IndexMap.empty : IndexMap α).size + count.toNat ≤ Limits.maxSigners := by
  rw [IndexMap.size_empty, Nat.zero_add]
  exact Nat.le_of_lt_succ count.toNat_lt

/-- Reads `n` more credentials after those of `m`. -/
def readCredentials : (n : Nat) → (m : SlotMap Bytes) → m.size + n ≤ Limits.maxSigners →
    (∀ e ∈ m.entries, KeysFit e.2) →
    Reader { slots : SlotMap Bytes //
      slots.size = m.size + n ∧ slots.size ≤ Limits.maxSigners ∧ ∀ e ∈ slots.entries, KeysFit e.2 }
  | 0, m, hroom, hm => pure ⟨m, rfl, hroom, hm⟩
  | n + 1, m, hroom, hm => do
      let credential ← Reader.byte "credential index"
      if h : m.Below credential then
        let count ← Reader.byte "key count"
        let keys ← readKeys count.toNat .empty (empty_room count) IndexMap.forall_mem_empty
        have hfit := fits_push h hroom hm keys.2
        let slots ← readCredentials n (m.push credential keys.1 h) hfit.1 hfit.2
        return ⟨slots.1, by rw [slots.2.1, IndexMap.size_push, Nat.add_right_comm, Nat.add_assoc],
          slots.2.2⟩
      else Reader.fail (.unorderedIndex "credential index")

/-- A map from the front of a byte string. -/
def read : Reader SignatureMap := do
  let count ← Reader.byte "credential count"
  if h : count.toNat = 0 then Reader.fail .emptySignatureMap
  else
    let slots ← readCredentials count.toNat .empty (empty_room count) IndexMap.forall_mem_empty
    return ⟨slots.1, by
      have hsize := slots.2.1
      simp only [IndexMap.size_empty] at hsize
      omega, slots.2.2⟩

def decode (bytes : Bytes) : Except DecodeError SignatureMap :=
  Reader.complete "signature map" read bytes

/-- Whether a slot has a key under which its signature is one of the digest. -/
def slotVerifies (keys : SlotMap PublicKey) (digest : Bytes) (credential key : UInt8)
    (signature : Bytes) : Bool :=
  match SlotMap.find? keys credential key with
  | some publicKey => publicKey.verify digest signature
  | none => false

/-- Whether every signature verifies under the key of its slot. -/
def verify (s : SignatureMap) (digest : Bytes) (keys : SlotMap PublicKey) : Bool :=
  s.slots.entries.all fun c =>
    c.2.entries.all fun k => slotVerifies keys digest c.1 k.1 k.2

end SignatureMap

end AccountTx
