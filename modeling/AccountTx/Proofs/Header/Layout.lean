import Mathlib.Algebra.Order.Ring.Nat
import AccountTx.Proofs.Header.Codec

/-!
Where the fields of a header stand. Sixty bytes hold five fields, each at its own offset, and they
are a header exactly if the number at the place of the sequence number is not zero and the one at
the place of the expiry is no later than an expiry may be. Reading and writing are then inverse to
each other.
-/

namespace AccountTx

namespace BigEndian

/-- The number that `width` bytes make from an offset on. -/
def slice (offset width : Nat) (bytes : Bytes) : Nat :=
  toNat ((bytes.drop offset).take width)

theorem slice_eq_of_eq_append {bytes front rest : Bytes} {offset width n : Nat}
    (hbytes : bytes = front ++ ofNat width n ++ rest) (hfront : front.length = offset)
    (hn : n < Nat.pow 256 width) : slice offset width bytes = n := by
  rw [slice, hbytes, List.append_assoc, List.drop_left' hfront,
    List.take_left' (length_ofNat width n), toNat_ofNat_of_lt hn]

theorem length_slice {offset width : Nat} {bytes : Bytes} (h : offset + width ≤ bytes.length) :
    ((bytes.drop offset).take width).length = width := by
  rw [List.length_take, List.length_drop]
  omega

/-- The bytes from an offset on begin with those of the number that stands there. -/
theorem drop_eq_ofNat_slice {offset width : Nat} {bytes : Bytes}
    (h : offset + width ≤ bytes.length) :
    bytes.drop offset = ofNat width (slice offset width bytes) ++ bytes.drop (offset + width) := by
  have hfield := ofNat_toNat ((bytes.drop offset).take width)
  rw [length_slice h] at hfield
  rw [slice, hfield, ← List.drop_drop, List.take_append_drop]

theorem slice_lt {offset width : Nat} {bytes : Bytes} (h : offset + width ≤ bytes.length) :
    slice offset width bytes < Nat.pow 256 width := by
  have hlt := toNat_lt ((bytes.drop offset).take width)
  rwa [length_slice h] at hlt

end BigEndian

namespace Header

open BigEndian

/-- What each field of a header is read from. -/
structure IsLaidOut (bytes : Bytes) (h : Header) : Prop where
  length : bytes.length = 60
  sender : h.sender.bytes.toList = bytes.take 32
  nonce : h.nonce.value.toNat = slice 32 8 bytes
  energy : h.energy.value.toNat = slice 40 8 bytes
  payloadSize : h.payloadSize.value.toNat = slice 48 4 bytes
  expiry : h.expiry.seconds.toNat = slice 52 8 bytes

/-- Each field is written behind the ones before it, so its offset is their length. -/
theorem isLaidOut_encode (h : Header) : IsLaidOut h.encode h := by
  have hsender : h.sender.bytes.toList.length = 32 := h.sender.bytes.length_eq
  have hnonce : h.encode = h.sender.bytes.toList ++ ofNat 8 h.nonce.value.toNat
      ++ (ofNat 8 h.energy.value.toNat ++ ofNat 4 h.payloadSize.value.toNat
        ++ h.expiry.encode) := by
    simp [encode]
  have henergy : h.encode = (h.sender.bytes.toList ++ ofNat 8 h.nonce.value.toNat)
      ++ ofNat 8 h.energy.value.toNat
      ++ (ofNat 4 h.payloadSize.value.toNat ++ h.expiry.encode) := by
    simp [encode]
  have hsize : h.encode = (h.sender.bytes.toList ++ ofNat 8 h.nonce.value.toNat
      ++ ofNat 8 h.energy.value.toNat) ++ ofNat 4 h.payloadSize.value.toNat
      ++ h.expiry.encode := rfl
  have hexpiry : h.encode = (h.sender.bytes.toList ++ ofNat 8 h.nonce.value.toNat
      ++ ofNat 8 h.energy.value.toNat ++ ofNat 4 h.payloadSize.value.toNat)
      ++ ofNat 8 h.expiry.seconds.toNat ++ [] := by
    simp [encode, Expiry.encode]
  constructor
  · exact h.length_encode
  · rw [hnonce, List.append_assoc, List.take_left' hsender]
  · exact (slice_eq_of_eq_append hnonce hsender h.nonce.value.toNat_lt).symm
  · exact (slice_eq_of_eq_append henergy (by simp [hsender]) h.energy.value.toNat_lt).symm
  · exact (slice_eq_of_eq_append hsize (by simp [hsender]) h.payloadSize.value.toNat_lt).symm
  · exact (slice_eq_of_eq_append hexpiry (by simp [hsender]) h.expiry.seconds.toNat_lt).symm

/-- The fields of sixty bytes, put together again. -/
theorem eq_append_slices {bytes : Bytes} (hlength : bytes.length = 60) :
    bytes = bytes.take 32 ++ ofNat 8 (slice 32 8 bytes) ++ ofNat 8 (slice 40 8 bytes)
      ++ ofNat 4 (slice 48 4 bytes) ++ ofNat 8 (slice 52 8 bytes) := by
  have hnonce : bytes.drop 32 = ofNat 8 (slice 32 8 bytes) ++ bytes.drop 40 :=
    drop_eq_ofNat_slice (by omega)
  have henergy : bytes.drop 40 = ofNat 8 (slice 40 8 bytes) ++ bytes.drop 48 :=
    drop_eq_ofNat_slice (by omega)
  have hsize : bytes.drop 48 = ofNat 4 (slice 48 4 bytes) ++ bytes.drop 52 :=
    drop_eq_ofNat_slice (by omega)
  have hexpiry : bytes.drop 52 = ofNat 8 (slice 52 8 bytes) ++ bytes.drop 60 :=
    drop_eq_ofNat_slice (by omega)
  have hend : bytes.drop 60 = [] := List.drop_of_length_le (by omega)
  calc bytes = bytes.take 32 ++ bytes.drop 32 := (List.take_append_drop 32 bytes).symm
    _ = _ := by
      rw [hnonce, henergy, hsize, hexpiry, hend]
      simp only [List.append_assoc, List.append_nil]

theorem IsLaidOut.eq_encode {bytes : Bytes} {h : Header} (hl : IsLaidOut bytes h) :
    bytes = h.encode := by
  rw [eq_append_slices hl.length, ← hl.sender, ← hl.nonce, ← hl.energy, ← hl.payloadSize,
    ← hl.expiry]
  rfl

theorem eq_encode_iff {bytes : Bytes} {h : Header} : bytes = h.encode ↔ IsLaidOut bytes h := by
  constructor
  · rintro rfl
    exact h.isLaidOut_encode
  · exact IsLaidOut.eq_encode

theorem decode_eq_ok_iff {bytes : Bytes} {h : Header} :
    decode bytes = .ok h ↔ bytes = h.encode := by
  rw [decode, Reader.complete_eq_ok_iff, read_eq_ok_iff, List.append_nil]

/-- Sixty bytes are a header if the two fields that are checked hold what they may hold. -/
theorem exists_isLaidOut_iff {bytes : Bytes} :
    (∃ h : Header, IsLaidOut bytes h) ↔
      bytes.length = 60 ∧ slice 32 8 bytes ≠ 0 ∧ slice 52 8 bytes ≤ 2 ^ 63 - 1 := by
  constructor
  · rintro ⟨h, hl⟩
    refine ⟨hl.length, ?_, ?_⟩
    · rw [← hl.nonce]
      exact fun h0 => h.nonce.ne_zero (UInt64.toNat_inj.mp h0)
    · rw [← hl.expiry]
      exact UInt64.le_iff_toNat_le.mp h.expiry.le_max
  · rintro ⟨hlength, hnonce, hexpiry⟩
    have hnonceLt : slice 32 8 bytes < 2 ^ 64 := slice_lt (by omega)
    have henergyLt : slice 40 8 bytes < 2 ^ 64 := slice_lt (by omega)
    have hsizeLt : slice 48 4 bytes < 2 ^ 32 := slice_lt (by omega)
    have hexpiryLt : slice 52 8 bytes < 2 ^ 64 := slice_lt (by omega)
    have hnonceEq := UInt64.toNat_ofNat_of_lt' hnonceLt
    have hexpiryEq := UInt64.toNat_ofNat_of_lt' hexpiryLt
    have hnonceNe : UInt64.ofNat (slice 32 8 bytes) ≠ 0 := fun h0 => hnonce (by
      rw [← hnonceEq, h0]
      rfl)
    have hexpiryLe : UInt64.ofNat (slice 52 8 bytes) ≤ Limits.maxExpiry :=
      UInt64.le_iff_toNat_le.mpr (by rwa [hexpiryEq])
    exact ⟨⟨⟨bytes.take 32, by rw [List.length_take]; omega⟩, ⟨_, hnonceNe⟩,
      ⟨UInt64.ofNat (slice 40 8 bytes)⟩, ⟨UInt32.ofNat (slice 48 4 bytes)⟩, ⟨_, hexpiryLe⟩⟩,
      hlength, rfl, hnonceEq, UInt64.toNat_ofNat_of_lt' henergyLt,
      UInt32.toNat_ofNat_of_lt' hsizeLt, hexpiryEq⟩

/-- The fields that a header can have: only two of the five are checked. -/
theorem exists_fields_iff {sender : Address} {nonce : UInt64} {energy : Energy} {size : PayloadSize}
    {seconds : UInt64} :
    (∃ h : Header, h.sender = sender ∧ h.nonce.value = nonce ∧ h.energy = energy ∧
      h.payloadSize = size ∧ h.expiry.seconds = seconds) ↔
      1 ≤ nonce.toNat ∧ seconds.toNat ≤ 2 ^ 63 - 1 := by
  constructor
  · rintro ⟨h, -, rfl, -, -, rfl⟩
    have hne : h.nonce.value.toNat ≠ 0 := fun h0 => h.nonce.ne_zero (UInt64.toNat_inj.mp h0)
    exact ⟨Nat.one_le_iff_ne_zero.mpr hne, UInt64.le_iff_toNat_le.mp h.expiry.le_max⟩
  · rintro ⟨hnonce, hseconds⟩
    have hne : nonce ≠ 0 := fun h0 => Nat.one_le_iff_ne_zero.mp hnonce (by rw [h0]; rfl)
    exact ⟨⟨sender, ⟨nonce, hne⟩, energy, size, ⟨seconds, UInt64.le_iff_toNat_le.mpr hseconds⟩⟩,
      rfl, rfl, rfl, rfl, rfl⟩

/-- Writing and reading are inverse to each other, between the headers and the sixty bytes whose
sequence number is not zero and whose expiry is in range. -/
theorem layout_bijective :
    (∀ (sender : Address) (nonce : UInt64) (energy : Energy) (size : PayloadSize)
      (seconds : UInt64),
      (∃ h : Header, h.sender = sender ∧ h.nonce.value = nonce ∧ h.energy = energy ∧
        h.payloadSize = size ∧ h.expiry.seconds = seconds) ↔
        1 ≤ nonce.toNat ∧ seconds.toNat ≤ 2 ^ 63 - 1) ∧
    (∀ h : Header, h.encode.length = 60) ∧
    (∀ (h : Header) (rest : Bytes), read (h.encode ++ rest) = .ok (h, rest)) ∧
    (∀ bytes : Bytes, (∃ h, decode bytes = .ok h) ↔
      bytes.length = 60 ∧ slice 32 8 bytes ≠ 0 ∧ slice 52 8 bytes ≤ 2 ^ 63 - 1) ∧
    (∀ (bytes : Bytes) (h : Header), decode bytes = .ok h ↔ h.encode = bytes) ∧
    ∀ (bytes : Bytes) (h : Header), decode bytes = .ok h ↔ IsLaidOut bytes h := by
  refine ⟨fun _ _ _ _ _ => exists_fields_iff, length_encode, fun h rest => read_eq_ok_iff.mpr rfl,
    fun bytes => ?_, fun bytes h => ?_, fun bytes h => ?_⟩
  · rw [← exists_isLaidOut_iff]
    exact exists_congr fun h => decode_eq_ok_iff.trans eq_encode_iff
  · rw [decode_eq_ok_iff]
    exact eq_comm
  · exact decode_eq_ok_iff.trans eq_encode_iff

end Header

end AccountTx
