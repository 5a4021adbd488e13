import AccountTx.Proofs.Admission.Value
import AccountTx.Proofs.Form.Payload
import AccountTx.Proofs.Header.Codec

/-!
The ways to headers and to messages. Each is admitted exactly if it has the shape of one and the
checked values in it are admitted; in documents the parts may stand in any order.
-/

namespace AccountTx

/-! ### Parts of records -/

theorem tells_congr {α β : Type} [JsonForm α] [JsonForm β] {a : α} {b : β}
    (h : ∀ {j : Json}, ofJson j = .ok a ↔ ofJson j = .ok b) {find : String → Option Json}
    {name : String} : Tells find name a ↔ Tells find name b := by
  simp only [Tells, h]

/-! ### Headers -/

/-- The two checks that a header is put to. -/
theorem headerChecks_eq_ok_iff {α : Type} {make : Nonce → Expiry → α} {n seconds : UInt64} {a : α} :
    (do
      let nonce ← Nonce.ofNumber n
      let expiry ← Expiry.ofSeconds seconds
      return make nonce expiry) = .ok a ↔
      ∃ nonce expiry, nonce.value = n ∧ expiry.seconds = seconds ∧ make nonce expiry = a := by
  simp only [except_bind_eq_ok_iff, Nonce.ofNumber_eq_ok_iff, Expiry.ofSeconds_eq_ok_iff]
  constructor
  · rintro ⟨nonce, hnonce, expiry, hexpiry, heq⟩
    exact ⟨nonce, expiry, hnonce, hexpiry, Except.ok.inj heq⟩
  · rintro ⟨nonce, expiry, hnonce, hexpiry, rfl⟩
    exact ⟨nonce, hnonce, expiry, hexpiry, rfl⟩

namespace Header

/-- A header before its sequence number and its expiry are checked. -/
structure Draft where
  sender : Address
  nonce : UInt64
  energy : Energy
  payloadSize : PayloadSize
  expiry : UInt64

namespace Draft

def check (d : Draft) : Except ValueError Header := do
  let nonce ← Nonce.ofNumber d.nonce
  let expiry ← Expiry.ofSeconds d.expiry
  return ⟨d.sender, nonce, d.energy, d.payloadSize, expiry⟩

def Rule (d : Draft) : Prop := Nonce.Rule d.nonce ∧ Expiry.Rule d.expiry

def layout (d : Draft) : Bytes :=
  d.sender.bytes.toList ++ BigEndian.ofNat 8 d.nonce.toNat ++ BigEndian.ofNat 8 d.energy.value.toNat
    ++ BigEndian.ofNat 4 d.payloadSize.value.toNat ++ BigEndian.ofNat 8 d.expiry.toNat

def binary (d : Draft) : Bytes :=
  BinaryForm.write d.sender ++ BinaryForm.write d.nonce ++ BinaryForm.write d.energy
    ++ BinaryForm.write d.payloadSize ++ BinaryForm.write d.expiry

def IsTold (j : Json) (d : Draft) : Prop :=
  ∃ find,
    Record.Holds ["sender", "sequenceNumber", "energyAmount", "payloadSize", "expiry"] j find ∧
    Tells find "sender" d.sender ∧ Tells find "sequenceNumber" d.nonce ∧
    Tells find "energyAmount" d.energy ∧ Tells find "payloadSize" d.payloadSize ∧
    Tells find "expiry" d.expiry

end Draft

def draft (h : Header) : Draft :=
  ⟨h.sender, h.nonce.value, h.energy, h.payloadSize, h.expiry.seconds⟩

theorem rule_draft (h : Header) : h.draft.Rule := ⟨h.nonce.rule_value, h.expiry.rule_seconds⟩

instance : Checked Header Draft where
  Fault := ValueError
  check := Draft.check
  draft := draft
  Rule := Draft.Rule
  check_eq_ok_iff {d h} := by
    obtain ⟨sender, n, energy, size, seconds⟩ := d
    refine headerChecks_eq_ok_iff.trans ?_
    constructor
    · rintro ⟨nonce, expiry, rfl, rfl, rfl⟩
      exact ⟨rfl, nonce.rule_value, expiry.rule_seconds⟩
    · rintro ⟨hdraft, -⟩
      cases hdraft
      exact ⟨h.nonce, h.expiry, rfl, rfl, rfl⟩
  exists_draft {d} hrule :=
    ⟨⟨d.sender, ⟨d.nonce, Nonce.rule_iff.mp hrule.1⟩, d.energy, d.payloadSize,
      ⟨d.expiry, Expiry.rule_iff.mp hrule.2⟩⟩, rfl⟩

instance : AlwaysValid Header := ⟨rule_draft⟩

theorem ofJson_eq_ok_iff {j : Json} {h : Header} : ofJson j = .ok h ↔ Draft.IsTold j h.draft := by
  show (Header.mk <$> .part "sender" <*> .part "sequenceNumber" <*> .part "energyAmount"
    <*> .part "payloadSize" <*> .part "expiry" : Record Header).read j = .ok h ↔ _
  simp only [Record.read_eq_ok_iff, Record.map_gives_iff, Record.seq_gives_iff,
    Record.part_gives_iff_tells]
  constructor
  · rintro ⟨find, hholds, _, expiry, ⟨_, size, ⟨_, energy, ⟨_, nonce, ⟨sender, hsender, rfl⟩,
      hnonce, rfl⟩, henergy, rfl⟩, hsize, rfl⟩, hexpiry, rfl⟩
    exact ⟨find, hholds, hsender, (tells_congr Nonce.ofJson_eq_ok_iff).mp hnonce, henergy, hsize,
      (tells_congr Expiry.ofJson_eq_ok_iff).mp hexpiry⟩
  · rintro ⟨find, hholds, hsender, hnonce, henergy, hsize, hexpiry⟩
    exact ⟨find, hholds, _, h.expiry, ⟨_, h.payloadSize, ⟨_, h.energy, ⟨_, h.nonce,
      ⟨h.sender, hsender, rfl⟩, (tells_congr Nonce.ofJson_eq_ok_iff).mpr hnonce, rfl⟩,
      henergy, rfl⟩, hsize, rfl⟩, (tells_congr Expiry.ofJson_eq_ok_iff).mpr hexpiry, rfl⟩

structure EntryPoints : Prop where
  front : Admits Header.read.front (BeginsWith Draft.layout)
  wire : Admits decode fun bytes d => bytes = d.layout
  document : Admits (ofJson : Json → Except FormError Header) Draft.IsTold
  binary : Admits (Binary.decode : Bytes → Except BinaryError Header) (BeginsWith Draft.binary)
  every (h : Header) : h.draft.Rule

theorem entryPoints : EntryPoints where
  front := .front read_eq_ok_iff
  wire := .of_iff fun bytes h => by
    rw [decode, Reader.complete_eq_ok_iff, read_eq_ok_iff, List.append_nil]
    rfl
  document := .of_iff fun _ _ => ofJson_eq_ok_iff
  binary := .binary fun _ => rfl
  every := rule_draft

end Header

/-! ### Messages -/

namespace MessageHeader

/-- The header of a message before its sequence number and its expiry are checked. -/
structure Draft where
  sender : Address
  nonce : UInt64
  expiry : UInt64
  energy : Energy

namespace Draft

def check (d : Draft) : Except ValueError MessageHeader := do
  let nonce ← Nonce.ofNumber d.nonce
  let expiry ← Expiry.ofSeconds d.expiry
  return ⟨d.sender, nonce, expiry, d.energy⟩

def Rule (d : Draft) : Prop := Nonce.Rule d.nonce ∧ Expiry.Rule d.expiry

def binary (d : Draft) : Bytes :=
  BinaryForm.write d.sender ++ BinaryForm.write d.nonce ++ BinaryForm.write d.expiry
    ++ BinaryForm.write d.energy

def IsTold (j : Json) (d : Draft) : Prop :=
  ∃ find, Record.Holds ["sender", "sequenceNumber", "expiry", "energyAmount"] j find ∧
    Tells find "sender" d.sender ∧ Tells find "sequenceNumber" d.nonce ∧
    Tells find "expiry" d.expiry ∧ Tells find "energyAmount" d.energy

end Draft

def draft (h : MessageHeader) : Draft := ⟨h.sender, h.nonce.value, h.expiry.seconds, h.energy⟩

theorem rule_draft (h : MessageHeader) : h.draft.Rule :=
  ⟨h.nonce.rule_value, h.expiry.rule_seconds⟩

instance : Checked MessageHeader Draft where
  Fault := ValueError
  check := Draft.check
  draft := draft
  Rule := Draft.Rule
  check_eq_ok_iff {d h} := by
    obtain ⟨sender, n, seconds, energy⟩ := d
    refine headerChecks_eq_ok_iff.trans ?_
    constructor
    · rintro ⟨nonce, expiry, rfl, rfl, rfl⟩
      exact ⟨rfl, nonce.rule_value, expiry.rule_seconds⟩
    · rintro ⟨hdraft, -⟩
      cases hdraft
      exact ⟨h.nonce, h.expiry, rfl, rfl, rfl⟩
  exists_draft {d} hrule :=
    ⟨⟨d.sender, ⟨d.nonce, Nonce.rule_iff.mp hrule.1⟩, ⟨d.expiry, Expiry.rule_iff.mp hrule.2⟩,
      d.energy⟩, rfl⟩

instance : AlwaysValid MessageHeader := ⟨rule_draft⟩

theorem ofJson_eq_ok_iff {j : Json} {h : MessageHeader} :
    ofJson j = .ok h ↔ Draft.IsTold j h.draft := by
  show (MessageHeader.mk <$> .part "sender" <*> .part "sequenceNumber" <*> .part "expiry"
    <*> .part "energyAmount" : Record MessageHeader).read j = .ok h ↔ _
  simp only [Record.read_eq_ok_iff, Record.map_gives_iff, Record.seq_gives_iff,
    Record.part_gives_iff_tells]
  constructor
  · rintro ⟨find, hholds, _, energy, ⟨_, expiry, ⟨_, nonce, ⟨sender, hsender, rfl⟩, hnonce, rfl⟩,
      hexpiry, rfl⟩, henergy, rfl⟩
    exact ⟨find, hholds, hsender, (tells_congr Nonce.ofJson_eq_ok_iff).mp hnonce,
      (tells_congr Expiry.ofJson_eq_ok_iff).mp hexpiry, henergy⟩
  · rintro ⟨find, hholds, hsender, hnonce, hexpiry, henergy⟩
    exact ⟨find, hholds, _, h.energy, ⟨_, h.expiry, ⟨_, h.nonce, ⟨h.sender, hsender, rfl⟩,
      (tells_congr Nonce.ofJson_eq_ok_iff).mpr hnonce, rfl⟩,
      (tells_congr Expiry.ofJson_eq_ok_iff).mpr hexpiry, rfl⟩, henergy, rfl⟩

end MessageHeader

namespace Message

/-- A message before its header and its signatures are checked. -/
structure Draft where
  header : MessageHeader.Draft
  payload : Bytes
  signatures : SlotMap Bytes

namespace Draft

def check (d : Draft) : Except Refusal Message := do
  let header ← d.header.check.mapError .value
  let signatures ← (SignatureMap.ofSlots d.signatures).mapError .signatures
  return ⟨header, d.payload, signatures⟩

def Rule (d : Draft) : Prop := d.header.Rule ∧ SignatureMap.Rule d.signatures

def IsTold (j : Json) (d : Draft) : Prop :=
  ∃ find, Record.Holds ["header", "payload", "signature"] j find ∧
    (∃ j', find "header" = some j' ∧ d.header.IsTold j') ∧ Tells find "payload" d.payload ∧
    ∃ j', find "signature" = some j' ∧ SignatureMap.IsDocumentOf j' d.signatures

/-- The length of the payload is a number of eight bytes. -/
def IsBinaryOf (bytes : Bytes) (d : Draft) : Prop :=
  d.payload.length < 2 ^ 64 ∧ ∃ mid, bytes = d.header.binary ++ BinaryForm.write d.payload ++ mid ∧
    SignatureMap.IsBinaryOf mid d.signatures

end Draft

def draft (m : Message) : Draft := ⟨m.header.draft, m.payload, m.signatures.slots⟩

theorem rule_draft (m : Message) : m.draft.Rule := ⟨m.header.rule_draft, m.signatures.rule_slots⟩

instance : Checked Message Draft where
  Fault := Refusal
  check := Draft.check
  draft := draft
  Rule := Draft.Rule
  check_eq_ok_iff {d m} := by
    obtain ⟨header, payload, slots⟩ := d
    have hheader {h : MessageHeader} : header.check = .ok h ↔ h.draft = header ∧ header.Rule :=
      Checked.check_eq_ok_iff (α := MessageHeader)
    simp only [Draft.check, except_bind_eq_ok_iff, mapError_eq_ok_iff, hheader,
      SignatureMap.ofSlots_eq_ok_iff]
    constructor
    · rintro ⟨h, ⟨rfl, _⟩, s, rfl, heq⟩
      obtain rfl := Except.ok.inj heq
      exact ⟨rfl, h.rule_draft, s.rule_slots⟩
    · rintro ⟨hdraft, -⟩
      cases hdraft
      exact ⟨m.header, ⟨rfl, m.header.rule_draft⟩, m.signatures, rfl, rfl⟩
  exists_draft {d} hrule := by
    obtain ⟨header, payload, slots⟩ := d
    obtain ⟨h, rfl⟩ := Checked.exists_draft (α := MessageHeader) hrule.1
    obtain ⟨s, rfl⟩ := Checked.exists_draft (α := SignatureMap) hrule.2
    exact ⟨⟨h, payload, s⟩, rfl⟩

instance : AlwaysValid Message := ⟨rule_draft⟩

theorem ofJson_eq_ok_iff {j : Json} {m : Message} : ofJson j = .ok m ↔ Draft.IsTold j m.draft := by
  show (Message.mk <$> .part "header" <*> .part "payload" <*> .part "signature"
    : Record Message).read j = .ok m ↔ _
  simp only [Record.read_eq_ok_iff, Record.map_gives_iff, Record.seq_gives_iff,
    Record.part_gives_iff, MessageHeader.ofJson_eq_ok_iff,
    SignatureMap.ofJson_eq_ok_iff_isDocumentOf]
  constructor
  · rintro ⟨find, hholds, _, s, ⟨_, payload, ⟨h, hheader, rfl⟩, hpayload, rfl⟩, hsignatures, rfl⟩
    exact ⟨find, hholds, hheader, hpayload, hsignatures⟩
  · rintro ⟨find, hholds, hheader, hpayload, hsignatures⟩
    exact ⟨find, hholds, _, m.signatures, ⟨_, m.payload, ⟨m.header, hheader, rfl⟩, hpayload, rfl⟩,
      hsignatures, rfl⟩

theorem decode_eq_ok_iff {bytes : Bytes} {m : Message} :
    Binary.decode bytes = .ok m ↔ Draft.IsBinaryOf bytes m.draft := by
  have hsignatures {mid : Bytes} : SignatureMap.IsBinaryOf mid m.signatures.slots ↔
      ∃ rest, BinaryForm.read mid = .ok (m.signatures, rest) := by
    rw [← SignatureMap.decode_eq_ok_iff_isBinaryOf, Binary.decode_eq_ok_iff]
  simp only [Binary.decode_eq_ok_iff, read_eq_ok_iff, Draft.IsBinaryOf, draft, hsignatures]
  constructor
  · rintro ⟨rest, hlength, mid, hbytes, hread⟩
    exact ⟨hlength, mid, hbytes, rest, hread⟩
  · rintro ⟨hlength, mid, hbytes, rest, hread⟩
    exact ⟨rest, hlength, mid, hbytes, hread⟩

structure EntryPoints : Prop where
  documentOfHeader :
    Admits (ofJson : Json → Except FormError MessageHeader) MessageHeader.Draft.IsTold
  binaryOfHeader : Admits (Binary.decode : Bytes → Except BinaryError MessageHeader)
    (BeginsWith MessageHeader.Draft.binary)
  document : Admits (ofJson : Json → Except FormError Message) Draft.IsTold
  binary : Admits (Binary.decode : Bytes → Except BinaryError Message) Draft.IsBinaryOf
  every (m : Message) : m.draft.Rule

theorem entryPoints : EntryPoints where
  documentOfHeader := .of_iff fun _ _ => MessageHeader.ofJson_eq_ok_iff
  binaryOfHeader := .binary fun _ => rfl
  document := .of_iff fun _ _ => ofJson_eq_ok_iff
  binary := .of_iff fun _ _ => decode_eq_ok_iff
  every := rule_draft

end Message

end AccountTx
