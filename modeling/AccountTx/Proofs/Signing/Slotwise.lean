import AccountTx.Proofs.Signing.Registry
import AccountTx.Proofs.SlotMap.Insertion

/-!
A registry signs slot for slot. Each signer is asked once, for the same bytes, and its answer stands
at its slot; the map has no other slots and no other credentials. The only thing that can go wrong
in a registry with signers is a signature that is too long for the map, and the first of these is
named.
-/

namespace AccountTx

/-- The signatures have the slots of a registry, and at each what its signer returns. -/
structure SignatureMap.IsOf (s : SignatureMap) (r : Registry) (digest : Bytes) : Prop where
  get_eq : ∀ credential key, s.get? credential key =
    (SlotMap.find? r.signers credential key).map fun signer => signer digest
  count_eq : s.count = r.count
  credentials_eq : s.slots.size = r.signers.size

namespace Registry

variable {r : Registry} {digest : Bytes}

/-- The answers of a registry that is asked for signatures. -/
inductive Answer (r : Registry) (digest : Bytes) : Except SigningError SignatureMap → Prop where
  | noSigners : r.isEmpty = true → Answer r digest (.error .noSigners)
  | signatureTooLong {credential key : UInt8} {signer : Signer} : r.isEmpty = false →
      SlotMap.IsFirst (fun _ _ signer => 65535 < (signer digest).length) r.signers
        credential key signer →
      Answer r digest (.error (.signatureTooLong credential key (signer digest).length))
  | signed {s : SignatureMap} : r.isEmpty = false →
      (∀ credential key signer, SlotMap.find? r.signers credential key = some signer →
        (signer digest).length ≤ 65535) →
      s.IsOf r digest → Answer r digest (.ok s)

theorem find?_mapValues (credential key : UInt8) :
    SlotMap.find? (SlotMap.mapValues (fun signer => signer digest) r.signers) credential key =
      (SlotMap.find? r.signers credential key).map fun signer => signer digest := by
  apply Option.ext
  intro signature
  rw [SlotMap.find?_mapValues_eq_some_iff, Option.map_eq_some_iff]

/-- The slots, and the number of credentials, are all that there is to know of the signatures. -/
theorem isOf_iff {s : SignatureMap} :
    s.IsOf r digest ↔ s.slots = SlotMap.mapValues (fun signer => signer digest) r.signers := by
  constructor
  · intro hof
    have hsize : s.slots.size =
        (SlotMap.mapValues (fun signer => signer digest) r.signers).size := by
      rw [hof.credentials_eq, SlotMap.mapValues, IndexMap.size_map]
    refine SlotMap.ext_find?_of_size_eq (fun e he => ?_) hsize fun credential key => ?_
    · obtain ⟨e', he', rfl⟩ := List.mem_map.mp he
      rw [IndexMap.size_map]
      exact r.keys_pos e' he'
    · rw [find?_mapValues]
      exact hof.get_eq credential key
  · intro hslots
    refine ⟨fun credential key => ?_, ?_, ?_⟩
    · rw [SignatureMap.get?, hslots, find?_mapValues]
    · rw [SignatureMap.count, hslots, SlotMap.count_mapValues, count]
    · rw [hslots, SlotMap.mapValues, IndexMap.size_map]

theorem slots_ne_nil (h : r.isEmpty = false) : r.slots ≠ [] := by
  intro hnone
  rw [← isEmpty_iff, h] at hnone
  cases hnone

/-- A registry that signs has signers, and none of them returns too long a signature. -/
theorem length_le_of_sign {s : SignatureMap} (hsign : r.sign digest = .ok s)
    {credential key : UInt8} {signer : Signer}
    (hfind : SlotMap.find? r.signers credential key = some signer) :
    (signer digest).length ≤ 65535 := by
  have hslots := sign_eq_ok_iff.mp hsign
  have hsignature : SlotMap.find? s.slots credential key = some (signer digest) := by
    rw [hslots, find?_mapValues, hfind]
    rfl
  obtain ⟨keys, hkeys, hkey⟩ := SlotMap.find?_eq_some_iff.mp hsignature
  exact (s.fits.2.2 _ hkeys).2 _ hkey

/-- A registry gives one of these answers. -/
theorem answer_sign (r : Registry) (digest : Bytes) : r.Answer digest (r.sign digest) := by
  cases hempty : r.isEmpty with
  | true =>
      rw [sign, if_pos hempty]
      exact .noSigners hempty
  | false =>
      cases hsign : r.sign digest with
      | ok s =>
          refine .signed hempty (fun credential key signer => length_le_of_sign hsign) ?_
          exact isOf_iff.mpr (sign_eq_ok_iff.mp hsign)
      | error e =>
          rcases sign_eq_error_iff.mp hsign with
            ⟨hnone, -⟩ | ⟨-, credential, key, signer, hfirst, rfl⟩
          · exact absurd hnone (slots_ne_nil hempty)
          · exact .signatureTooLong hempty hfirst

/-- A registry gives no other answer than the one whose conditions hold. -/
theorem sign_of_answer {answer : Except SigningError SignatureMap} (h : r.Answer digest answer) :
    r.sign digest = answer := by
  cases h with
  | noSigners hempty => rw [sign, if_pos hempty]
  | @signatureTooLong credential key signer hempty hfirst =>
      rw [sign_eq_error_iff]
      exact .inr ⟨slots_ne_nil hempty, credential, key, signer, hfirst, rfl⟩
  | signed _ _ hof => exact sign_eq_ok_iff.mpr (isOf_iff.mp hof)

/-- The answer of a registry is determined by the signers at its slots: it has none, or one of them
returns too long a signature, or else the signatures stand slot for slot where the signers do. The
limits on credentials and keys are never exceeded. -/
theorem sign_slotwise (r : Registry) (digest : Bytes) :
    (∀ answer, r.sign digest = answer ↔ r.Answer digest answer) ∧
    (r.sign digest = .error .noSigners ↔ r.isEmpty = true) ∧
    (∀ max, r.sign digest ≠ .error (.tooManyCredentials max)) ∧
    ∀ credential max, r.sign digest ≠ .error (.tooManyKeys credential max) := by
  have hiff (answer) : r.sign digest = answer ↔ r.Answer digest answer :=
    ⟨fun h => h ▸ answer_sign r digest, sign_of_answer⟩
  refine ⟨hiff, ?_, fun max => ?_, fun credential max => ?_⟩
  · rw [hiff]
    constructor
    · rintro ⟨⟩
      next hempty => exact hempty
    · exact fun hempty => .noSigners hempty
  all_goals
    rw [ne_eq, hiff]
    nofun

end Registry

end AccountTx
