import AccountTx.Proofs.Admission.Payload
import AccountTx.Proofs.BlockItem.Canonical

/-!
The ways to a signed transaction, and what all ways to a value have in common. Since no value breaks
its rule, every count and length that is written fits the bytes that it is written in.
-/

namespace AccountTx

namespace SignedTransaction

structure Draft where
  header : Header.Draft
  payload : Payload.Draft
  payloadBytes : Bytes
  signatures : SlotMap Bytes

namespace Draft

def check (d : Draft) : Except Refusal SignedTransaction := do
  let header ← d.header.check.mapError .value
  let payload ← d.payload.check.mapError .value
  let signatures ← (SignatureMap.ofSlots d.signatures).mapError .signatures
  return ⟨header, payload, d.payloadBytes, signatures⟩

def Rule (d : Draft) : Prop :=
  d.header.Rule ∧ d.payload.Rule ∧ SignatureMap.Rule d.signatures

/-- What the header leaves for a contract call beyond the charges for signatures and size. -/
def allowance (d : Draft) : Nat :=
  d.header.energy.value.toNat
    - (100 * SlotMap.count d.signatures + 60 + d.header.payloadSize.value.toNat)

/-- The payload is as long as the header says, and may use what the header allows. -/
def IsBlockItem (bytes : Bytes) (d : Draft) : Prop :=
  bytes = [0, 0] ++ SignatureMap.layout d.signatures ++ d.header.layout ++ d.payloadBytes ∧
    d.payloadBytes = d.payload.layout ∧
    d.header.payloadSize.value.toNat = d.payloadBytes.length ∧
    d.payload.Allows ⟨UInt64.ofNat d.allowance⟩

end Draft

def draft (tx : SignedTransaction) : Draft :=
  ⟨tx.header.draft, tx.payload.draft, tx.payloadBytes, tx.signatures.slots⟩

theorem rule_draft (tx : SignedTransaction) : tx.draft.Rule :=
  ⟨tx.header.rule_draft, tx.payload.rule_draft, tx.signatures.rule_slots⟩

instance : Checked SignedTransaction Draft where
  Fault := Refusal
  check := Draft.check
  draft := draft
  Rule := Draft.Rule
  check_eq_ok_iff {d tx} := by
    obtain ⟨header, payload, payloadBytes, slots⟩ := d
    have hheader {h : Header} : header.check = .ok h ↔ h.draft = header ∧ header.Rule :=
      Checked.check_eq_ok_iff (α := Header)
    have hpayload {p : Payload} : payload.check = .ok p ↔ p.draft = payload ∧ payload.Rule :=
      Checked.check_eq_ok_iff (α := Payload)
    simp only [Draft.check, except_bind_eq_ok_iff, mapError_eq_ok_iff, hheader, hpayload,
      SignatureMap.ofSlots_eq_ok_iff]
    constructor
    · rintro ⟨h, ⟨rfl, _⟩, p, ⟨rfl, _⟩, s, rfl, heq⟩
      obtain rfl := Except.ok.inj heq
      exact ⟨rfl, h.rule_draft, p.rule_draft, s.rule_slots⟩
    · rintro ⟨hdraft, -⟩
      cases hdraft
      exact ⟨tx.header, ⟨rfl, tx.header.rule_draft⟩, tx.payload, ⟨rfl, tx.payload.rule_draft⟩,
        tx.signatures, rfl, rfl⟩
  exists_draft {d} hrule := by
    obtain ⟨header, payload, payloadBytes, slots⟩ := d
    obtain ⟨h, rfl⟩ := Checked.exists_draft (α := Header) hrule.1
    obtain ⟨p, rfl⟩ := Checked.exists_draft (α := Payload) hrule.2.1
    obtain ⟨s, rfl⟩ := Checked.exists_draft (α := SignatureMap) hrule.2.2
    exact ⟨⟨h, p, payloadBytes, s⟩, rfl⟩

instance : AlwaysValid SignedTransaction := ⟨rule_draft⟩

theorem decode_eq_ok_iff {bytes : Bytes} {tx : SignedTransaction} :
    BlockItem.decode bytes = .ok tx ↔ tx.draft.IsBlockItem bytes := by
  rw [BlockItem.decode_eq_ok_iff]
  constructor
  · rintro ⟨x, rfl, rfl⟩
    refine ⟨rfl, ?_, x.size_eq, Payload.allows_draft_iff.mpr ?_⟩
    · show x.payload.encode = (x.payload.withMaxEnergy _).draft.layout
      rw [Payload.layout_draft, Payload.encode_withMaxEnergy]
    · show (x.payload.withMaxEnergy _).withMaxEnergy _ = x.payload.withMaxEnergy _
      rw [Payload.withMaxEnergy_withMaxEnergy]
      rfl
  · rintro ⟨hbytes, hpayload, hsize, hallows⟩
    have hwritten : tx.payloadBytes = tx.payload.encode := hpayload.trans tx.payload.layout_draft
    have hlength : tx.header.payloadSize.value.toNat = tx.payload.encode.length := by
      rw [← hwritten]
      exact hsize
    let x : BlockItem.Parts := ⟨tx.signatures, tx.header, tx.payload, hlength⟩
    have henergy : tx.payload.withMaxEnergy ⟨UInt64.ofNat x.allowance⟩ = tx.payload :=
      Payload.allows_draft_iff.mp hallows
    refine ⟨x, ?_, ?_⟩
    · rw [hbytes]
      show _ ++ tx.payloadBytes = _ ++ tx.payload.encode
      rw [hwritten]
      rfl
    · rw [BlockItem.Parts.transaction, henergy, ← hwritten]

structure EntryPoints : Prop where
  blockItem : Admits BlockItem.decode Draft.IsBlockItem
  every (tx : SignedTransaction) : tx.draft.Rule

theorem entryPoints : EntryPoints where
  blockItem := .of_iff fun _ _ => decode_eq_ok_iff
  every := rule_draft

end SignedTransaction

/-! ### Lengths -/

/-- A part of a payload is written as it is or after its length. -/
inductive Payload.Part where
  | bare (bytes : Bytes)
  | counted (bytes : Bytes)

namespace Payload

def Part.write : Part → Bytes
  | bare bytes => bytes
  | counted bytes => Payload.counted bytes

def parts : Payload → List Part
  | deployModule module => [.bare module]
  | initContract amount module name parameter _ =>
      [.bare amount.encode, .bare module.bytes.toList, .counted name.encode,
        .counted parameter.bytes]
  | updateContract amount contract name parameter _ =>
      [.bare amount.encode, .bare contract.encode, .counted name.encode, .counted parameter.bytes]
  | transfer amount receiver => [.bare receiver.bytes.toList, .bare amount.encode]
  | registerData data => [.counted data.bytes]
  | transferWithMemo amount receiver memo =>
      [.bare receiver.bytes.toList, .counted memo.bytes, .bare amount.encode]

/-- A payload is written part by part. -/
theorem encodeBody_eq_parts (p : Payload) : p.encodeBody = p.parts.flatMap Part.write := by
  cases p <;> simp [encodeBody, parts, Part.write]

theorem length_le_of_counted {p : Payload} {bytes : Bytes} (h : .counted bytes ∈ p.parts) :
    bytes.length ≤ 65535 := by
  have hdata (d : ChainData) : d.bytes.length ≤ 65535 := Nat.le_trans d.length_le (by decide)
  cases p with
  | deployModule module => simp [parts] at h
  | initContract amount module name parameter maxEnergy =>
      obtain rfl | rfl : bytes = name.encode ∨ bytes = parameter.bytes := by simpa [parts] using h
      · exact Nat.le_trans name.length_encode_le (by decide)
      · exact parameter.length_le
  | updateContract amount contract name parameter maxEnergy =>
      obtain rfl | rfl : bytes = name.encode ∨ bytes = parameter.bytes := by simpa [parts] using h
      · exact Nat.le_trans name.length_encode_le (by decide)
      · exact parameter.length_le
  | transfer amount receiver => simp [parts] at h
  | registerData data =>
      obtain rfl : bytes = data.bytes := by simpa [parts] using h
      exact hdata data
  | transferWithMemo amount receiver memo =>
      obtain rfl : bytes = memo.bytes := by simpa [parts] using h
      exact hdata memo

end Payload

theorem toNat_lengthBytes {bytes : Bytes} (h : bytes.length ≤ 65535) :
    BigEndian.toNat (BigEndian.ofNat 2 bytes.length) = bytes.length :=
  BigEndian.toNat_ofNat_of_lt (Nat.lt_succ_of_le h)

/-- Every count that is written in one byte, and every length that is written in two, is read off
these bytes again. A payload has no lengths but those of its counted parts, as it is written part by
part. -/
structure LengthsKept : Prop where
  credentials (s : SignatureMap) : (UInt8.ofNat s.slots.size).toNat = s.slots.size
  keys (s : SignatureMap) : ∀ c ∈ s.slots.entries, (UInt8.ofNat c.2.size).toNat = c.2.size
  signatures (s : SignatureMap) : ∀ c ∈ s.slots.entries, ∀ k ∈ c.2.entries,
    BigEndian.toNat (BigEndian.ofNat 2 k.2.length) = k.2.length
  payload (p : Payload) : p.encode = p.type.tag :: p.parts.flatMap Payload.Part.write
  parts (p : Payload) (bytes : Bytes) : .counted bytes ∈ p.parts →
    BigEndian.toNat (BigEndian.ofNat 2 bytes.length) = bytes.length

theorem lengthsKept : LengthsKept where
  credentials s := SignatureMap.toNat_ofNat_size s.fits.2.1
  keys s c hc := SignatureMap.toNat_ofNat_size (s.rule_slots.2 c hc).1
  signatures s c hc k hk := toNat_lengthBytes ((s.rule_slots.2 c hc).2 k hk)
  payload p := congrArg (p.type.tag :: ·) p.encodeBody_eq_parts
  parts _ _ hcounted := toNat_lengthBytes (Payload.length_le_of_counted hcounted)

/-- Every way to a value puts what its input tells to the check of the type, so that it accepts what
the check accepts and gives no value that breaks the rule of its type. Sequence numbers are counted
up to the last one and no further, relative expiries are exact sums, the public key of a secret key
is a point, and no count or length is changed by the bytes it is written in. -/
theorem entry_points_keep_rules :
    Nonce.EntryPoints ∧ Expiry.EntryPoints ∧ ChainData.EntryPoints ∧ Parameter.EntryPoints ∧
    InitName.EntryPoints ∧ ReceiveName.EntryPoints ∧ SignatureMap.EntryPoints ∧
    PublicKey.EntryPoints ∧ Header.EntryPoints ∧ Message.EntryPoints ∧ Payload.EntryPoints ∧
    SignedTransaction.EntryPoints ∧ LengthsKept :=
  ⟨Nonce.entryPoints, Expiry.entryPoints, ChainData.entryPoints, Parameter.entryPoints,
    InitName.entryPoints, ReceiveName.entryPoints, SignatureMap.entryPoints, PublicKey.entryPoints,
    Header.entryPoints, Message.entryPoints, Payload.entryPoints, SignedTransaction.entryPoints,
    lengthsKept⟩

end AccountTx
