import AccountTx.Proofs.Form.Binary

/-!
Values have one binary form. A value that passes the checks of its type is read from the bytes that
are written for it, whatever follows them; and whatever bytes are read as a value begin with the
ones that are written for it, and the value passes the checks.
-/

namespace AccountTx

open BinaryForm

namespace Binary

variable {α : Type} [BinaryForm α] {Passes : α → Prop}

/-- The values that pass are read back from what is written for them, and nothing is read as a value
but one that passes, from bytes that begin with those written for it. -/
structure Canonical (α : Type) [BinaryForm α] (Passes : α → Prop) : Prop where
  decode_write (a : α) (rest : Bytes) : decode (write a ++ rest) = .ok a ↔ Passes a
  decode_iff (bytes : Bytes) (a : α) : decode bytes = .ok a ↔ Passes a ∧ write a <+: bytes

/-- No value of the type fails to pass. -/
structure CanonicalThroughout (α : Type) [BinaryForm α] (Passes : α → Prop) : Prop extends
    Canonical α Passes where
  passes (a : α) : Passes a

theorem Canonical.of_read (hread : ∀ {bytes rest : Bytes} {a : α},
    read bytes = .ok (a, rest) ↔ Passes a ∧ bytes = write a ++ rest) : Canonical α Passes := by
  have hdecode : ∀ (bytes : Bytes) (a : α),
      decode bytes = .ok a ↔ Passes a ∧ write a <+: bytes := by
    intro bytes a
    rw [decode_eq_ok_iff]
    simp only [hread]
    constructor
    · rintro ⟨rest, hpasses, rfl⟩
      exact ⟨hpasses, List.prefix_append _ rest⟩
    · rintro ⟨hpasses, rest, rfl⟩
      exact ⟨rest, hpasses, rfl⟩
  refine ⟨fun a rest => ?_, hdecode⟩
  rw [hdecode, and_iff_left (List.prefix_append _ rest)]

theorem CanonicalThroughout.of_lawful [LawfulBinary α] (hpasses : ∀ a, Passes a) :
    CanonicalThroughout α Passes where
  toCanonical := .of_read fun {_ _ a} => by
    rw [LawfulBinary.read_eq_ok_iff, and_iff_right (hpasses a)]
  passes := hpasses

end Binary

open Binary (Canonical CanonicalThroughout)

/-! ### Values and their checks -/

theorem FixedBytes.ofBytes_toList {n : Nat} (what : String) (b : FixedBytes n) :
    FixedBytes.ofBytes what n b.toList = .ok b :=
  (FixedBytes.ofBytes_eq_ok_iff what).mpr rfl

theorem Address.ofBytes_toList (a : Address) : Address.ofBytes a.bytes.toList = .ok a := by
  rw [Address.ofBytes, FixedBytes.ofBytes_toList]
  rfl

theorem ModuleRef.ofBytes_toList (r : ModuleRef) : ModuleRef.ofBytes r.bytes.toList = .ok r := by
  rw [ModuleRef.ofBytes, FixedBytes.ofBytes_toList]
  rfl

theorem TransactionHash.ofBytes_toList (h : TransactionHash) :
    TransactionHash.ofBytes h.bytes.toList = .ok h := by
  rw [TransactionHash.ofBytes, FixedBytes.ofBytes_toList]
  rfl

theorem PublicKey.canonical :
    Canonical PublicKey fun k => PublicKey.ofBytes k.bytes.toList = .ok k :=
  .of_read fun {_ _ k} => by
    rw [PublicKey.read_eq_ok_iff, PublicKey.ofBytes_eq_ok_iff, and_iff_right rfl]
    rfl

theorem BlockItem.read_binary_eq_ok_iff {bytes rest : Bytes} {b : BlockItem} :
    BinaryForm.read bytes = .ok (b, rest) ↔ b.bytes.length < 2 ^ 64 ∧ bytes = write b ++ rest := by
  show (do return BlockItem.mk (← BinaryForm.read) (← BinaryForm.read)
    : BinaryReader BlockItem) bytes = _ ↔ _
  simp only [Reader.bind_eq_ok_iff, Reader.pure_eq_ok_iff, Bytes.read_eq_ok_iff,
    LawfulBinary.read_eq_ok_iff]
  constructor
  · rintro ⟨_, _, ⟨hlength, rfl⟩, _, _, rfl, rfl, rfl⟩
    exact ⟨hlength, by simp only [write, List.append_assoc]⟩
  · rintro ⟨hlength, rfl⟩
    exact ⟨b.bytes, _, ⟨hlength, List.append_assoc ..⟩, b.hash, rest, rfl, rfl, rfl⟩

/-- The length of a byte string is written in eight bytes, so it has to be one that they hold. -/
theorem BlockItem.canonical :
    Canonical BlockItem fun b =>
      b.bytes.length < 2 ^ 64 ∧ TransactionHash.ofBytes b.hash.bytes.toList = .ok b.hash :=
  .of_read fun {_ _ b} => by
    rw [BlockItem.read_binary_eq_ok_iff, and_iff_left b.hash.ofBytes_toList]

/-- Each type has one binary form, and what is read has passed the checks of its constructors. -/
theorem binary_form_canonical :
    CanonicalThroughout Address (fun a => Address.ofBytes a.bytes.toList = .ok a) ∧
    CanonicalThroughout ModuleRef (fun r => ModuleRef.ofBytes r.bytes.toList = .ok r) ∧
    CanonicalThroughout TransactionHash (fun h => TransactionHash.ofBytes h.bytes.toList = .ok h) ∧
    Canonical PublicKey (fun k => PublicKey.ofBytes k.bytes.toList = .ok k) ∧
    CanonicalThroughout ChainData (fun d => ChainData.ofBytes d.bytes = .ok d) ∧
    CanonicalThroughout Parameter (fun p => Parameter.ofBytes p.bytes = .ok p) ∧
    CanonicalThroughout Nonce (fun n => Nonce.ofNumber n.value = .ok n) ∧
    CanonicalThroughout Expiry (fun e => Expiry.ofSeconds e.seconds = .ok e) ∧
    CanonicalThroughout ContractAddress (fun _ => True) ∧
    CanonicalThroughout Header (fun h =>
      Address.ofBytes h.sender.bytes.toList = .ok h.sender ∧
      Nonce.ofNumber h.nonce.value = .ok h.nonce ∧
      Expiry.ofSeconds h.expiry.seconds = .ok h.expiry) ∧
    Canonical BlockItem (fun b => b.bytes.length < 2 ^ 64 ∧
      TransactionHash.ofBytes b.hash.bytes.toList = .ok b.hash) := by
  have hnonce (n : Nonce) : Nonce.ofNumber n.value = .ok n := Nonce.ofNumber_eq_ok_iff.mpr rfl
  have hexpiry (e : Expiry) : Expiry.ofSeconds e.seconds = .ok e :=
    Expiry.ofSeconds_eq_ok_iff.mpr rfl
  exact ⟨.of_lawful Address.ofBytes_toList, .of_lawful ModuleRef.ofBytes_toList,
    .of_lawful TransactionHash.ofBytes_toList, PublicKey.canonical,
    .of_lawful fun _ => ChainData.ofBytes_eq_ok_iff.mpr rfl,
    .of_lawful fun _ => Parameter.ofBytes_eq_ok_iff.mpr rfl,
    .of_lawful hnonce, .of_lawful hexpiry, .of_lawful fun _ => trivial,
    .of_lawful fun h => ⟨h.sender.ofBytes_toList, hnonce h.nonce, hexpiry h.expiry⟩,
    BlockItem.canonical⟩

end AccountTx
