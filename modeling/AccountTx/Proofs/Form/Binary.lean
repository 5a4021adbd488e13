import AccountTx.Form.Binary
import AccountTx.Proofs.Signing.Shape
import AccountTx.Proofs.Value.Checked
import AccountTx.Proofs.Value.Hexadecimal
import AccountTx.Proofs.Wire.Reading

/-!
What is read in the binary form. The bytes that are written for a value are read as the value,
whatever follows them, and no other bytes are; what holds for the parts of a value holds for it,
since a checked value is made of its contents and of nothing else.
-/

namespace AccountTx

open Reader BinaryForm

/-! ### Steps of reading -/

namespace Binary

variable {ε α : Type} {bytes rest : Bytes}

theorem refuse_ne_ok {cause : Refusal} {a : α} :
    ¬ (refuse cause : BinaryReader α) bytes = .ok (a, rest) := by
  simp [refuse]

theorem checked_eq_ok_iff {cause : ε → Refusal} {outcome : Except ε α} {a : α} :
    checked cause outcome bytes = .ok (a, rest) ↔ outcome = .ok a ∧ bytes = rest := by
  cases outcome with
  | ok b =>
      rw [checked, pure_eq_ok_iff, Except.ok.injEq, eq_comm (a := b)]
  | error e =>
      rw [checked]
      exact iff_of_false refuse_ne_ok (by simp)

theorem required_eq_ok_iff {cause : Refusal} {found : Option α} {a : α} :
    required cause found bytes = .ok (a, rest) ↔ found = some a ∧ bytes = rest := by
  cases found with
  | some b =>
      rw [required, pure_eq_ok_iff, Option.some.injEq, eq_comm (a := b)]
  | none =>
      rw [required]
      exact iff_of_false refuse_ne_ok (by simp)

theorem take_eq_ok_iff {n : Nat} {value : FixedBytes n} :
    take n bytes = .ok (value, rest) ↔ bytes = value.toList ++ rest :=
  front_eq_ok_iff

theorem number_eq_ok_iff {width n : Nat} :
    number width bytes = .ok (n, rest) ↔
      n < Nat.pow 256 width ∧ bytes = ofNat width n ++ rest := by
  unfold number
  simp only [bind_eq_ok_iff, pure_eq_ok_iff, take_eq_ok_iff]
  constructor
  · rintro ⟨value, _, rfl, rfl, rfl⟩
    have hlt := BigEndian.toNat_lt value.toList.reverse
    have hwritten := BigEndian.ofNat_toNat value.toList.reverse
    rw [List.length_reverse, value.length_eq] at hlt hwritten
    refine ⟨hlt, ?_⟩
    rw [ofNat, hwritten, List.reverse_reverse]
  · rintro ⟨hlt, rfl⟩
    have hlength : (ofNat width n).length = width := by simp [ofNat]
    refine ⟨⟨ofNat width n, hlength⟩, rest, rfl, ?_, rfl⟩
    show n = BigEndian.toNat (ofNat width n).reverse
    rw [ofNat, List.reverse_reverse, BigEndian.toNat_ofNat_of_lt hlt]

/-- Reading a number into a type that has one value for each number of this width. -/
theorem word_eq_ok_iff {width : Nat} {make : Nat → α} {value : α → Nat}
    (hmake : ∀ n < Nat.pow 256 width, ∀ a, a = make n ↔ value a = n)
    (hvalue : ∀ a, value a < Nat.pow 256 width) {a : α} :
    (do return make (← number width) : BinaryReader α) bytes = .ok (a, rest) ↔
      bytes = ofNat width (value a) ++ rest := by
  simp only [bind_eq_ok_iff, pure_eq_ok_iff, Binary.number_eq_ok_iff]
  constructor
  · rintro ⟨n, _, ⟨hlt, rfl⟩, ha, rfl⟩
    rw [(hmake n hlt a).mp ha]
  · rintro rfl
    exact ⟨value a, rest, ⟨hvalue a, rfl⟩, (hmake _ (hvalue a) a).mpr rfl, rfl⟩

theorem decode_eq_ok_iff [BinaryForm α] {a : α} :
    decode bytes = .ok a ↔ ∃ rest, read bytes = .ok (a, rest) :=
  map_fst_eq_ok_iff

end Binary

open Binary

/-! ### Values of known bytes -/

/-- Types of which a value is read from the bytes that are written for it, and from no others. -/
class LawfulBinary (α : Type) [BinaryForm α] : Prop where
  read_eq_ok_iff {bytes rest : Bytes} {a : α} :
    read bytes = .ok (a, rest) ↔ bytes = write a ++ rest

namespace LawfulBinary

variable {ε α β : Type} [BinaryForm α] [LawfulBinary α] {bytes rest : Bytes}

theorem decode_eq_ok_iff {a : α} :
    Binary.decode bytes = .ok a ↔ ∃ rest, bytes = write a ++ rest := by
  simp only [Binary.decode_eq_ok_iff, read_eq_ok_iff]

/-- A value that has one part. -/
theorem wrap {make : α → β} {part : β → α} (hmake : ∀ b, make (part b) = b)
    (hpart : ∀ a, part (make a) = a) {b : β} :
    (do return make (← read) : BinaryReader β) bytes = .ok (b, rest) ↔
      bytes = write (part b) ++ rest := by
  simp only [bind_eq_ok_iff, pure_eq_ok_iff, read_eq_ok_iff]
  constructor
  · rintro ⟨a, _, rfl, rfl, rfl⟩
    rw [hpart]
  · rintro rfl
    exact ⟨part b, rest, rfl, (hmake b).symm, rfl⟩

/-- A value that is checked when it is made of its contents. -/
theorem check {cause : ε → Refusal} {make : α → Except ε β} {contents : β → α}
    (hmake : ∀ a b, make a = .ok b ↔ contents b = a) {b : β} :
    (do checked cause (make (← read)) : BinaryReader β) bytes = .ok (b, rest) ↔
      bytes = write (contents b) ++ rest := by
  simp only [bind_eq_ok_iff, Binary.checked_eq_ok_iff, read_eq_ok_iff, hmake]
  constructor
  · rintro ⟨_, _, rfl, rfl, rfl⟩
    rfl
  · rintro rfl
    exact ⟨contents b, rest, rfl, rfl, rfl⟩

end LawfulBinary

open LawfulBinary (read_eq_ok_iff)

section

variable {bytes rest : Bytes}

instance : LawfulBinary UInt64 where
  read_eq_ok_iff := word_eq_ok_iff (fun n hlt a => by
    rw [← UInt64.toNat_inj, UInt64.toNat_ofNat_of_lt' hlt]) UInt64.toNat_lt

instance : LawfulBinary UInt32 where
  read_eq_ok_iff := word_eq_ok_iff (fun n hlt a => by
    rw [← UInt32.toNat_inj, UInt32.toNat_ofNat_of_lt' hlt]) UInt32.toNat_lt

/-- A byte string is read back unless its length is no number of eight bytes. -/
theorem Bytes.read_eq_ok_iff {value : Bytes} :
    read bytes = .ok (value, rest) ↔ value.length < 2 ^ 64 ∧ bytes = write value ++ rest := by
  show (do return (← take (← number 8)).toList : BinaryReader Bytes) bytes = _ ↔ _
  simp only [bind_eq_ok_iff, pure_eq_ok_iff, Binary.number_eq_ok_iff, take_eq_ok_iff]
  constructor
  · rintro ⟨n, _, ⟨hlt, rfl⟩, part, _, rfl, rfl, rfl⟩
    simp only [write, part.length_eq, List.append_assoc, and_true]
    exact hlt
  · rintro ⟨hlt, rfl⟩
    refine ⟨value.length, value ++ rest, ⟨hlt, ?_⟩, ⟨value, rfl⟩, rest, rfl, rfl, rfl⟩
    simp only [write, List.append_assoc]

/-- A value that is checked when it is made of bytes, which are never too many. -/
theorem Bytes.read_checked_eq_ok_iff {ε β : Type} {cause : ε → Refusal}
    {make : Bytes → Except ε β} {contents : β → Bytes}
    (hmake : ∀ a b, make a = .ok b ↔ contents b = a) {b : β}
    (hlength : (contents b).length < 2 ^ 64) :
    (do checked cause (make (← read)) : BinaryReader β) bytes = .ok (b, rest) ↔
      bytes = write (contents b) ++ rest := by
  simp only [bind_eq_ok_iff, Binary.checked_eq_ok_iff, Bytes.read_eq_ok_iff, hmake]
  constructor
  · rintro ⟨_, _, ⟨_, rfl⟩, rfl, rfl⟩
    rfl
  · rintro rfl
    exact ⟨contents b, rest, ⟨hlength, rfl⟩, rfl, rfl⟩

instance : LawfulBinary (FixedBytes 32) where
  read_eq_ok_iff {bytes rest b} := by
    show (do
      let bytes : Bytes ← BinaryForm.read
      required (.wrongLength 32 bytes.length) (FixedBytes.ofList? 32 bytes)
        : BinaryReader (FixedBytes 32)) bytes = _ ↔ _
    simp only [bind_eq_ok_iff, Bytes.read_eq_ok_iff, required_eq_ok_iff,
      FixedBytes.ofList?_eq_some_iff]
    constructor
    · rintro ⟨_, _, ⟨_, rfl⟩, rfl, rfl⟩
      rfl
    · rintro rfl
      have hlength : b.toList.length < 2 ^ 64 := by
        rw [b.length_eq]
        decide
      exact ⟨b.toList, rest, ⟨hlength, rfl⟩, rfl, rfl⟩

instance : LawfulBinary Address where
  read_eq_ok_iff := LawfulBinary.wrap (fun _ => rfl) fun _ => rfl

instance : LawfulBinary ModuleRef where
  read_eq_ok_iff := LawfulBinary.wrap (fun _ => rfl) fun _ => rfl

instance : LawfulBinary TransactionHash where
  read_eq_ok_iff := LawfulBinary.wrap (fun _ => rfl) fun _ => rfl

instance : LawfulBinary Energy where
  read_eq_ok_iff := LawfulBinary.wrap (fun _ => rfl) fun _ => rfl

instance : LawfulBinary PayloadSize where
  read_eq_ok_iff := LawfulBinary.wrap (fun _ => rfl) fun _ => rfl

instance : LawfulBinary Nonce where
  read_eq_ok_iff := LawfulBinary.check fun _ _ => Nonce.ofNumber_eq_ok_iff

instance : LawfulBinary Expiry where
  read_eq_ok_iff := LawfulBinary.check fun _ _ => Expiry.ofSeconds_eq_ok_iff

instance : LawfulBinary ChainData where
  read_eq_ok_iff {_ _ d} := Bytes.read_checked_eq_ok_iff (fun _ _ => ChainData.ofBytes_eq_ok_iff)
    (Nat.lt_of_le_of_lt d.length_le (by decide))

instance : LawfulBinary Parameter where
  read_eq_ok_iff {_ _ p} := Bytes.read_checked_eq_ok_iff (fun _ _ => Parameter.ofBytes_eq_ok_iff)
    (Nat.lt_of_le_of_lt p.length_le (by decide))

/-- A text is read from a byte string that is UTF-8. -/
theorem read_text_eq_ok_iff {text : String} :
    read bytes = .ok (text, rest) ↔ ∃ b : Bytes,
      b.length < 2 ^ 64 ∧ bytes = write b ++ rest ∧ Utf8.decode? b = some text := by
  show (do required .notText (Utf8.decode? (← read)) : BinaryReader String) bytes = _ ↔ _
  simp only [bind_eq_ok_iff, Bytes.read_eq_ok_iff, required_eq_ok_iff]
  constructor
  · rintro ⟨b, _, ⟨hlength, rfl⟩, htext, rfl⟩
    exact ⟨b, hlength, rfl, htext⟩
  · rintro ⟨b, hlength, rfl, htext⟩
    exact ⟨b, rest, ⟨hlength, rfl⟩, htext, rfl⟩

/-- Names are of visible ASCII, which is read from its UTF-8. -/
theorem read_name_eq_ok_iff {ε α : Type} {cause : ε → Refusal} {make : String → Except ε α}
    {text : α → String} (hmake : ∀ s a, make s = .ok a ↔ text a = s) {a : α}
    (hname : FunctionName.fault? (text a) = none) :
    (do checked cause (make (← read)) : BinaryReader α) bytes = .ok (a, rest) ↔
      bytes = write (text a) ++ rest := by
  obtain ⟨hsize, hvisible⟩ := FunctionName.fault?_eq_none_iff.mp hname
  simp only [bind_eq_ok_iff, Binary.checked_eq_ok_iff, hmake, read_text_eq_ok_iff]
  constructor
  · rintro ⟨_, _, ⟨b, -, rfl, hb⟩, rfl, rfl⟩
    rw [← Utf8.encode_of_decode? hb]
    rfl
  · rintro rfl
    refine ⟨text a, rest, ⟨Utf8.encode (text a), ?_, rfl, Utf8.decode?_encode hvisible⟩, rfl, rfl⟩
    exact Nat.lt_of_le_of_lt hsize (by decide)

instance : LawfulBinary InitName where
  read_eq_ok_iff {_ _ n} := read_name_eq_ok_iff (fun _ _ => InitName.ofText_eq_ok_iff) n.fault?_text

instance : LawfulBinary ReceiveName where
  read_eq_ok_iff {_ _ n} :=
    read_name_eq_ok_iff (fun _ _ => ReceiveName.ofText_eq_ok_iff) n.fault?_text

instance : LawfulBinary ContractAddress where
  read_eq_ok_iff {bytes rest a} := by
    show (do return ContractAddress.mk (← read) (← read) : BinaryReader ContractAddress) bytes
      = _ ↔ _
    simp only [bind_eq_ok_iff, pure_eq_ok_iff, read_eq_ok_iff]
    constructor
    · rintro ⟨_, _, rfl, _, _, rfl, rfl, rfl⟩
      simp only [write, List.append_assoc]
    · rintro rfl
      exact ⟨a.index, _, List.append_assoc .., a.subindex, rest, rfl, rfl, rfl⟩

instance : LawfulBinary Header where
  read_eq_ok_iff {bytes rest h} := by
    show (do return Header.mk (← read) (← read) (← read) (← read) (← read)
      : BinaryReader Header) bytes = _ ↔ _
    simp only [bind_eq_ok_iff, pure_eq_ok_iff, read_eq_ok_iff]
    constructor
    · rintro ⟨_, _, rfl, _, _, rfl, _, _, rfl, _, _, rfl, _, _, rfl, rfl, rfl⟩
      simp only [write, List.append_assoc]
    · rintro rfl
      refine ⟨h.sender, _, ?_, h.nonce, _, rfl, h.energy, _, rfl, h.payloadSize, _, rfl, h.expiry,
        rest, rfl, rfl, rfl⟩
      simp only [write, List.append_assoc]

instance : LawfulBinary MessageHeader where
  read_eq_ok_iff {bytes rest h} := by
    show (do return MessageHeader.mk (← read) (← read) (← read) (← read)
      : BinaryReader MessageHeader) bytes = _ ↔ _
    simp only [bind_eq_ok_iff, pure_eq_ok_iff, read_eq_ok_iff]
    constructor
    · rintro ⟨_, _, rfl, _, _, rfl, _, _, rfl, _, _, rfl, rfl, rfl⟩
      simp only [write, List.append_assoc]
    · rintro rfl
      refine ⟨h.sender, _, ?_, h.nonce, _, rfl, h.expiry, _, rfl, h.energy, rest, rfl, rfl, rfl⟩
      simp only [write, List.append_assoc]

/-! ### Values that are read from more than one byte string -/

/-- A public key is read only if it is a point. -/
theorem PublicKey.read_eq_ok_iff {k : PublicKey} :
    read bytes = .ok (k, rest) ↔
      Ed25519.isPoint k.bytes.toList = true ∧ bytes = write k.bytes ++ rest := by
  show (do checked .key (PublicKey.ofFixed (← read)) : BinaryReader PublicKey) bytes = _ ↔ _
  simp only [bind_eq_ok_iff, Binary.checked_eq_ok_iff, LawfulBinary.read_eq_ok_iff,
    PublicKey.ofFixed_eq_ok_iff]
  constructor
  · rintro ⟨_, _, rfl, ⟨rfl, hpoint⟩, rfl⟩
    exact ⟨hpoint, rfl⟩
  · rintro ⟨hpoint, rfl⟩
    exact ⟨k.bytes, rest, rfl, ⟨rfl, hpoint⟩, rfl⟩

/-- The texts of a map are the hexadecimal texts of the signatures. -/
theorem SignatureMap.read_binary_eq_ok_iff {s : SignatureMap} :
    BinaryForm.read bytes = .ok (s, rest) ↔
      ∃ texts : SlotMap String, BinaryForm.read bytes = .ok (texts, rest) ∧
        IndexMap.traverse (IndexMap.traverse Hex.decode) texts = .ok s.slots := by
  show (do
    let texts : SlotMap String ← BinaryForm.read
    let slots ← checked .hex (IndexMap.traverse (IndexMap.traverse Hex.decode) texts)
    checked .signatures (SignatureMap.ofSlots slots) : BinaryReader SignatureMap) bytes = _ ↔ _
  simp only [bind_eq_ok_iff, Binary.checked_eq_ok_iff, SignatureMap.ofSlots_eq_ok_iff]
  constructor
  · rintro ⟨texts, _, htexts, slots, _, ⟨hslots, rfl⟩, rfl, rfl⟩
    exact ⟨texts, htexts, hslots⟩
  · rintro ⟨texts, htexts, hslots⟩
    exact ⟨texts, rest, htexts, s.slots, rest, ⟨hslots, rfl⟩, rfl, rfl⟩

theorem Message.read_eq_ok_iff {m : Message} :
    read bytes = .ok (m, rest) ↔ m.payload.length < 2 ^ 64 ∧
      ∃ mid, bytes = write m.header ++ write m.payload ++ mid ∧
        read mid = .ok (m.signatures, rest) := by
  show (do return Message.mk (← read) (← read) (← read) : BinaryReader Message) bytes = _ ↔ _
  simp only [bind_eq_ok_iff, pure_eq_ok_iff, LawfulBinary.read_eq_ok_iff, Bytes.read_eq_ok_iff]
  constructor
  · rintro ⟨_, _, rfl, _, mid, ⟨hlength, rfl⟩, _, _, hread, rfl, rfl⟩
    exact ⟨hlength, mid, (List.append_assoc ..).symm, hread⟩
  · rintro ⟨hlength, mid, rfl, hread⟩
    exact ⟨m.header, _, List.append_assoc .., m.payload, mid, ⟨hlength, rfl⟩, m.signatures, rest,
      hread, rfl, rfl⟩

end

end AccountTx
