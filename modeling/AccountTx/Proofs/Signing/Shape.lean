import AccountTx.Proofs.SlotMap.Search
import AccountTx.Signing.SignatureMap

/-!
Which signatures make a signature map. The bounds on the two levels and on the lengths are all that
is checked; where both levels are within their bounds, a refusal names the first signature that is
too long.
-/

namespace AccountTx.SignatureMap

variable {slots : SlotMap Bytes}

theorem ofSlots_eq_ok_iff {s : SignatureMap} : ofSlots slots = .ok s ↔ s.slots = slots := by
  unfold ofSlots
  split
  next h =>
    rw [Except.ok.injEq]
    constructor
    · rintro rfl
      rfl
    · intro heq
      exact SignatureMap.ext heq.symm
  next e h =>
    refine iff_of_false nofun ?_
    rintro rfl
    have hnone := fault?_eq_none_iff.mpr s.fits
    rw [h] at hnone
    cases hnone

theorem ofSlots_eq_error_iff {e : SigningError} :
    ofSlots slots = .error e ↔ fault? slots = some e := by
  unfold ofSlots
  split
  next h => simp [h]
  next e' h => rw [h, Except.error.injEq, Option.some.injEq]

theorem exists_ofSlots_iff : (∃ s, ofSlots slots = .ok s) ↔ Fits slots := by
  simp only [ofSlots_eq_ok_iff]
  constructor
  · rintro ⟨s, rfl⟩
    exact s.fits
  · exact fun h => ⟨⟨slots, h⟩, rfl⟩

/-- The signature has more bytes than its length can tell. -/
def TooLong (_ _ : UInt8) (signature : Bytes) : Prop := Limits.maxSignatureLength < signature.length

instance (credential key : UInt8) (signature : Bytes) :
    Decidable (TooLong credential key signature) :=
  inferInstanceAs (Decidable (_ < _))

/-- What is wrong with the signature of a slot, if anything. -/
def slotFault? (credential key : UInt8) (signature : Bytes) : Option SigningError :=
  if TooLong credential key signature then some (.signatureTooLong credential key signature.length)
  else none

theorem slotFault?_eq_none_iff {credential key : UInt8} {signature : Bytes} :
    slotFault? credential key signature = none ↔ ¬ TooLong credential key signature := by
  simp [slotFault?]

/-- With both levels in bounds, checking a map is a search for a signature that is too long. -/
theorem fault?_eq_search (hpos : 0 < slots.size) (hsize : slots.size ≤ Limits.maxSigners)
    (hkeys : ∀ e ∈ slots.entries, e.2.size ≤ Limits.maxSigners) :
    fault? slots = SlotMap.search slotFault? slots := by
  rw [fault?, if_neg (Nat.ne_of_gt hpos), if_neg (Nat.not_lt.mpr hsize), SlotMap.search]
  refine IndexMap.findSome?_congr fun e he => ?_
  rw [keysFault?, if_neg (Nat.not_lt.mpr (hkeys e he))]
  rfl

theorem fault?_eq_some_iff (hpos : 0 < slots.size) (hsize : slots.size ≤ Limits.maxSigners)
    (hkeys : ∀ e ∈ slots.entries, e.2.size ≤ Limits.maxSigners) {e : SigningError} :
    fault? slots = some e ↔
      ∃ credential key signature, SlotMap.IsFirst TooLong slots credential key signature ∧
        e = .signatureTooLong credential key signature.length := by
  rw [fault?_eq_search hpos hsize hkeys,
    SlotMap.search_eq_some_iff fun _ _ _ => slotFault?_eq_none_iff]
  constructor
  · rintro ⟨credential, key, signature, hfirst, he⟩
    rw [slotFault?, if_pos hfirst.holds, Option.some.injEq] at he
    exact ⟨credential, key, signature, hfirst, he.symm⟩
  · rintro ⟨credential, key, signature, hfirst, rfl⟩
    refine ⟨credential, key, signature, hfirst, ?_⟩
    rw [slotFault?, if_pos hfirst.holds]

end AccountTx.SignatureMap
