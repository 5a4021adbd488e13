import AccountTx.Header
import AccountTx.Proofs.Value.Checked
import AccountTx.Proofs.Wire.Reading

/-!
The sixty bytes of a header are read as that header, and what is read as a header are the sixty
bytes that are written for it.
-/

namespace AccountTx.Header

open Reader

theorem read_eq_ok_iff {bytes rest : Bytes} {h : Header} :
    read bytes = .ok (h, rest) ↔ bytes = h.encode ++ rest := by
  simp only [read, bind_eq_ok_iff, pure_eq_ok_iff, fixed_eq_ok_iff, word_eq_ok_iff,
    number_eq_ok_iff, check_eq_ok_iff, Nonce.ofNumber_eq_ok_iff, Expiry.ofSeconds_eq_ok_iff]
  constructor
  · rintro ⟨sender, _, rfl, _, _, rfl, nonce, _, ⟨rfl, rfl⟩, energy, _, rfl, size, _, ⟨hsize, rfl⟩,
      _, _, rfl, expiry, _, ⟨rfl, rfl⟩, rfl, rfl⟩
    have hwritten : (UInt32.ofNat size).toNat = size := UInt32.toNat_ofNat_of_lt' hsize
    simp [encode, Expiry.encode, hwritten]
  · rintro rfl
    -- each field, and what is left behind it
    refine ⟨h.sender.bytes, _, ?_, h.nonce.value, _, rfl, h.nonce, _, ⟨rfl, rfl⟩,
      h.energy.value, _, rfl,
      h.payloadSize.value.toNat, _, ⟨h.payloadSize.value.toNat_lt, rfl⟩,
      h.expiry.seconds, _, rfl, h.expiry, rest, ⟨rfl, rfl⟩, ?_, rfl⟩
    · simp only [encode, Expiry.encode, List.append_assoc]
    · rw [UInt32.ofNat_toNat]

end AccountTx.Header
