import AccountTx.Proofs.Signing.Shape
import AccountTx.Proofs.SlotMap.Order
import AccountTx.Signing.Registry

/-!
What the signers of a registry give together. Since every credential of a registry has a key, a
registry without slots is empty; one with slots signs, unless a signature is too long for the map.
-/

namespace AccountTx.Registry

variable {r : Registry} {digest : Bytes}

theorem toNat_ofNat_count (r : Registry) : (UInt32.ofNat r.count).toNat = r.count :=
  SlotMap.toNat_ofNat_count r.fits.1 fun e he => (r.fits.2 e he).2

theorem isEmpty_iff : r.isEmpty = true ↔ r.slots = [] := by
  rw [isEmpty, List.isEmpty_iff, slots, SlotMap.slots, List.flatMap_eq_nil_iff]
  constructor
  · intro hempty e he
    rw [hempty] at he
    exact absurd he List.not_mem_nil
  · intro hnone
    cases hentries : r.signers.entries with
    | nil => rfl
    -- a credential of the registry has a key, and with it a slot
    | cons e es =>
        have he : e ∈ r.signers.entries := by simp [hentries]
        have hpos : 0 < e.2.size := (r.fits.2 e he).1
        have hkeys : e.2.entries = [] := by simpa [IndexMap.keys] using hnone e he
        rw [IndexMap.size, hkeys] at hpos
        exact absurd hpos (Nat.lt_irrefl 0)

theorem slots_eq_nil_iff : r.slots = [] ↔ r.count = 0 := by
  rw [count, ← SlotMap.length_slots, List.length_eq_zero_iff]
  rfl

theorem keys_pos (r : Registry) : ∀ e ∈ r.signers.entries, 0 < e.2.size :=
  fun e he => (r.fits.2 e he).1

/-- The signatures of a registry; an empty one gives none. -/
theorem sign_eq_ok_iff {s : SignatureMap} :
    r.sign digest = .ok s ↔
      s.slots = SlotMap.mapValues (fun signer => signer digest) r.signers := by
  unfold sign
  split
  next hempty =>
    refine iff_of_false nofun ?_
    intro hslots
    have hpos := s.fits.1
    rw [hslots, SlotMap.mapValues, IndexMap.size_map, IndexMap.size] at hpos
    rw [isEmpty, List.isEmpty_iff] at hempty
    rw [hempty] at hpos
    exact Nat.lt_irrefl 0 hpos
  next => exact SignatureMap.ofSlots_eq_ok_iff

/-- The signer of a slot makes a signature of the digest that is too long. -/
def TooLong (digest : Bytes) (credential key : UInt8) (signer : Signer) : Prop :=
  SignatureMap.TooLong credential key (signer digest)

/-- What signers return is at fault only for a signature that is too long: the registry is in the
bounds of a signature map already. -/
theorem fault?_mapValues_eq_some_iff (h : r.slots ≠ []) {e : SigningError} :
    SignatureMap.fault? (SlotMap.mapValues (fun signer => signer digest) r.signers) = some e ↔
      ∃ credential key signer, SlotMap.IsFirst (TooLong digest) r.signers credential key signer ∧
        e = .signatureTooLong credential key (signer digest).length := by
  have hpos : 0 < (SlotMap.mapValues (fun signer => signer digest) r.signers).size := by
    rw [SlotMap.mapValues, IndexMap.size_map, IndexMap.size, List.length_pos_iff]
    rwa [Ne, ← isEmpty_iff, isEmpty, List.isEmpty_iff] at h
  have hsize : (SlotMap.mapValues (fun signer => signer digest) r.signers).size
      ≤ Limits.maxSigners := by
    rw [SlotMap.mapValues, IndexMap.size_map]
    exact r.fits.1
  have hkeys : ∀ e ∈ (SlotMap.mapValues (fun signer => signer digest) r.signers).entries,
      e.2.size ≤ Limits.maxSigners := by
    intro e he
    obtain ⟨e', he', rfl⟩ := List.mem_map.mp he
    rw [IndexMap.size_map]
    exact (r.fits.2 e' he').2
  rw [SignatureMap.fault?_eq_some_iff hpos hsize hkeys]
  simp only [SlotMap.isFirst_mapValues_iff]
  constructor
  · rintro ⟨credential, key, _, ⟨signer, hfirst, rfl⟩, rfl⟩
    exact ⟨credential, key, signer, hfirst, rfl⟩
  · rintro ⟨credential, key, signer, hfirst, rfl⟩
    exact ⟨credential, key, signer digest, ⟨signer, hfirst, rfl⟩, rfl⟩

/-- Signing is refused for a registry without slots, and for the first signature that is too long;
the numbers of credentials and keys are never the reason. -/
theorem sign_eq_error_iff {e : SigningError} :
    r.sign digest = .error e ↔
      (r.slots = [] ∧ e = .noSigners) ∨
      (r.slots ≠ [] ∧ ∃ credential key signer,
        SlotMap.IsFirst (TooLong digest) r.signers credential key signer ∧
          e = .signatureTooLong credential key (signer digest).length) := by
  rw [sign]
  by_cases hslots : r.slots = []
  · rw [if_pos (isEmpty_iff.mpr hslots), Except.error.injEq, eq_comm]
    simp [hslots]
  · rw [if_neg (mt isEmpty_iff.mp hslots), SignatureMap.ofSlots_eq_error_iff,
      fault?_mapValues_eq_some_iff hslots]
    simp [hslots]

end AccountTx.Registry
