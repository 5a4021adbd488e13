import AccountTx.Proofs.BlockItem.Canonical
import AccountTx.Proofs.SlotMap.Search
import AccountTx.Transaction.Verification

/-!
What the chain answers about a transaction. Its checks come in a fixed order, the time before the
energy and both before the signatures, and of the signatures that fail the first is named. The
search for it and the check of the whole map are written apart from each other, and agree.
-/

namespace AccountTx

namespace SignatureMap

variable {s : SignatureMap} {digest : Bytes} {keys : SlotMap PublicKey}

theorem slotVerifies_iff {credential key : UInt8} {signature : Bytes} :
    slotVerifies keys digest credential key signature = true ↔
      ∃ publicKey, SlotMap.find? keys credential key = some publicKey ∧
        publicKey.verify digest signature = true := by
  unfold slotVerifies
  split
  next publicKey heq => simp [heq]
  next heq => simp [heq]

/-- The slot has no known key, or its signature is none of the digest under this key. -/
def Invalid (keys : SlotMap PublicKey) (digest : Bytes) (credential key : UInt8)
    (signature : Bytes) : Prop :=
  SlotMap.find? keys credential key = none ∨
    ∃ publicKey, SlotMap.find? keys credential key = some publicKey ∧
      publicKey.verify digest signature = false

theorem slotVerifies_eq_false_iff {credential key : UInt8} {signature : Bytes} :
    slotVerifies keys digest credential key signature = false ↔
      Invalid keys digest credential key signature := by
  unfold slotVerifies Invalid
  split
  next publicKey heq => simp [heq]
  next heq => simp [heq]

theorem verify_iff :
    s.verify digest keys = true ↔
      ∀ credential key signature, s.get? credential key = some signature →
        slotVerifies keys digest credential key signature = true := by
  simp only [verify, List.all_eq_true]
  exact SlotMap.forall_entries_iff
    (p := fun credential key signature =>
      slotVerifies keys digest credential key signature = true)

/-- The slot of a signature that fails. -/
def invalidSlot? (keys : SlotMap PublicKey) (digest : Bytes) (credential key : UInt8)
    (signature : Bytes) : Option (UInt8 × UInt8) :=
  if slotVerifies keys digest credential key signature then none else some (credential, key)

theorem invalidSlot?_eq_none_iff {credential key : UInt8} {signature : Bytes} :
    invalidSlot? keys digest credential key signature = none ↔
      slotVerifies keys digest credential key signature = true := by
  simp [invalidSlot?]

theorem firstInvalid?_eq_search :
    s.firstInvalid? digest keys = SlotMap.search (invalidSlot? keys digest) s.slots := by
  rw [firstInvalid?, SlotMap.search]
  -- within a credential the slot is made after the key was found, and not along with it
  refine IndexMap.findSome?_congr fun c _ => ?_
  rw [List.find?_eq_findSome?_guard, List.map_findSome?]
  refine IndexMap.findSome?_congr fun k _ => ?_
  cases hverifies : slotVerifies keys digest c.1 k.1 k.2 <;>
    simp [invalidSlot?, Option.guard, hverifies]

/-- There is no invalid slot if the check of the whole map succeeds; a map without slots has
none. -/
theorem firstInvalid?_eq_none_iff :
    s.firstInvalid? digest keys = none ↔ s.verify digest keys = true := by
  simp only [firstInvalid?_eq_search, SlotMap.search_eq_none_iff, invalidSlot?_eq_none_iff,
    verify_iff, get?]

theorem firstInvalid?_eq_some_iff {credential key : UInt8} :
    s.firstInvalid? digest keys = some (credential, key) ↔
      ∃ signature, SlotMap.IsFirst (Invalid keys digest) s.slots credential key signature := by
  have hnone (credential key signature) :
      invalidSlot? keys digest credential key signature = none ↔
        ¬ Invalid keys digest credential key signature := by
    rw [invalidSlot?_eq_none_iff, ← slotVerifies_eq_false_iff, Bool.not_eq_false]
  rw [firstInvalid?_eq_search, SlotMap.search_eq_some_iff hnone]
  constructor
  · rintro ⟨c, k, signature, hfirst, hslot⟩
    rw [invalidSlot?, slotVerifies_eq_false_iff.mpr hfirst.holds] at hslot
    cases hslot
    exact ⟨signature, hfirst⟩
  · rintro ⟨signature, hfirst⟩
    refine ⟨credential, key, signature, hfirst, ?_⟩
    rw [invalidSlot?, slotVerifies_eq_false_iff.mpr hfirst.holds]
    rfl

end SignatureMap

namespace SignedTransaction

variable {tx : SignedTransaction} {keys : SlotMap PublicKey} {blockTime : UInt64}

/-- The least energy that pays for the signatures and the size, as an exact number. -/
def minimum (tx : SignedTransaction) : Nat :=
  100 * tx.signatures.count + 60 + tx.header.payloadSize.value.toNat

theorem exists_overhead (tx : SignedTransaction) :
    ∃ required, tx.overhead = .ok required ∧ required.value.toNat = tx.minimum :=
  tx.signatures.exists_overhead tx.header.payloadSize.value

/-- The answers that the chain can give about a transaction. -/
inductive Verdict (tx : SignedTransaction) (keys : SlotMap PublicKey) (blockTime : UInt64) :
    Except TransactionError Unit → Prop where
  | expired : tx.header.expiry.seconds ≤ blockTime →
      Verdict tx keys blockTime (.error (.expired tx.header.expiry))
  | insufficientEnergy {required : Energy} : blockTime < tx.header.expiry.seconds →
      tx.header.energy.value.toNat < tx.minimum → required.value.toNat = tx.minimum →
      Verdict tx keys blockTime (.error (.insufficientEnergy tx.header.energy required))
  | invalidSignature {credential key : UInt8} {signature : Bytes} :
      blockTime < tx.header.expiry.seconds → tx.minimum ≤ tx.header.energy.value.toNat →
      SlotMap.IsFirst (SignatureMap.Invalid keys tx.digest.toList) tx.signatures.slots
        credential key signature →
      Verdict tx keys blockTime (.error (.invalidSignature credential key))
  | accepted : blockTime < tx.header.expiry.seconds →
      tx.minimum ≤ tx.header.energy.value.toNat →
      tx.signatures.verify tx.digest.toList keys = true → Verdict tx keys blockTime (.ok ())

/-- The checks in their order, with the least energy as an exact number. -/
theorem exists_verify_eq (tx : SignedTransaction) (keys : SlotMap PublicKey) (blockTime : UInt64) :
    ∃ required : Energy, required.value.toNat = tx.minimum ∧
      tx.verify keys blockTime =
        if tx.header.expiry.seconds ≤ blockTime then .error (.expired tx.header.expiry)
        else if tx.header.energy.value.toNat < tx.minimum then
          .error (.insufficientEnergy tx.header.energy required)
        else
          (tx.signatures.firstInvalid? tx.digest.toList keys).elim (.ok ())
            fun slot => .error (.invalidSignature slot.1 slot.2) := by
  obtain ⟨required, hoverhead, hvalue⟩ := tx.exists_overhead
  refine ⟨required, hvalue, ?_⟩
  simp only [verify, hoverhead, Expiry.isExpiredAt, decide_eq_true_eq, UInt64.lt_iff_toNat_lt,
    hvalue]
  cases tx.signatures.firstInvalid? tx.digest.toList keys with
  | none => rfl
  | some slot => rfl

/-- The chain gives one of these answers. -/
theorem verdict_verify (tx : SignedTransaction) (keys : SlotMap PublicKey) (blockTime : UInt64) :
    tx.Verdict keys blockTime (tx.verify keys blockTime) := by
  obtain ⟨required, hvalue, hverify⟩ := tx.exists_verify_eq keys blockTime
  rw [hverify]
  split
  next hexpired => exact .expired hexpired
  next hintime =>
    have htime := UInt64.not_le.mp hintime
    split
    next hpoor => exact .insufficientEnergy htime hpoor hvalue
    next hpaid =>
      have henergy := Nat.not_lt.mp hpaid
      cases hslot : tx.signatures.firstInvalid? tx.digest.toList keys with
      | none => exact .accepted htime henergy (SignatureMap.firstInvalid?_eq_none_iff.mp hslot)
      | some slot =>
          obtain ⟨signature, hfirst⟩ := SignatureMap.firstInvalid?_eq_some_iff.mp hslot
          exact .invalidSignature htime henergy hfirst

/-- The chain gives no other answer than the one whose conditions hold. -/
theorem verify_of_verdict {verdict : Except TransactionError Unit}
    (h : tx.Verdict keys blockTime verdict) : tx.verify keys blockTime = verdict := by
  obtain ⟨required, hvalue, hverify⟩ := tx.exists_verify_eq keys blockTime
  rw [hverify]
  cases h with
  | expired htime => rw [if_pos htime]
  | @insufficientEnergy required' htime henergy hvalue' =>
      have hrequired : required = required' :=
        Energy.ext (UInt64.toNat_inj.mp (hvalue.trans hvalue'.symm))
      rw [if_neg (UInt64.not_le.mpr htime), if_pos henergy, hrequired]
  | invalidSignature htime henergy hfirst =>
      have hslot := SignatureMap.firstInvalid?_eq_some_iff.mpr ⟨_, hfirst⟩
      rw [if_neg (UInt64.not_le.mpr htime), if_neg (Nat.not_lt.mpr henergy), hslot]
      rfl
  | accepted htime henergy hvalid =>
      have hnone := SignatureMap.firstInvalid?_eq_none_iff.mpr hvalid
      rw [if_neg (UInt64.not_le.mpr htime), if_neg (Nat.not_lt.mpr henergy), hnone]
      rfl

theorem verify_eq_iff {verdict : Except TransactionError Unit} :
    tx.verify keys blockTime = verdict ↔ tx.Verdict keys blockTime verdict :=
  ⟨fun h => h ▸ tx.verdict_verify keys blockTime, verify_of_verdict⟩

/-- Acceptance is the check of the whole map, of a transaction that comes in time and pays. -/
theorem accepted_iff :
    tx.verify keys blockTime = .ok () ↔
      blockTime < tx.header.expiry.seconds ∧ tx.minimum ≤ tx.header.energy.value.toNat ∧
      tx.signatures.verify tx.digest.toList keys = true := by
  rw [verify_eq_iff]
  constructor
  · rintro ⟨⟩
    next htime henergy hvalid => exact ⟨htime, henergy, hvalid⟩
  · rintro ⟨htime, henergy, hvalid⟩
    exact .accepted htime henergy hvalid

theorem verify_eq_ok_iff :
    tx.verify keys blockTime = .ok () ↔
      blockTime < tx.header.expiry.seconds ∧
      100 * tx.signatures.count + 60 + tx.header.payloadSize.value.toNat
        ≤ tx.header.energy.value.toNat ∧
      ∀ credential key signature, tx.signatures.get? credential key = some signature →
        SignatureMap.slotVerifies keys tx.digest.toList credential key signature = true := by
  rw [accepted_iff, SignatureMap.verify_iff, minimum]

/-- The answer is determined by the time, the exact charge and the first slot that fails, in this
order. Only for a transaction that comes in time and pays does it depend on the signatures, and
then it is that of checking the whole map. The charges never overflow, and their number of
signatures is the one in the map. -/
theorem verify_verdict (tx : SignedTransaction) (keys : SlotMap PublicKey) (blockTime : UInt64) :
    (∀ verdict, tx.verify keys blockTime = verdict ↔ tx.Verdict keys blockTime verdict) ∧
    (tx.verify keys blockTime = .ok () ↔
      blockTime < tx.header.expiry.seconds ∧ tx.minimum ≤ tx.header.energy.value.toNat ∧
      tx.signatures.verify tx.digest.toList keys = true) ∧
    (∀ fault, tx.verify keys blockTime ≠ .error (.energy fault)) ∧
    (∃ required, tx.overhead = .ok required ∧ required.value.toNat = tx.minimum) ∧
    (UInt32.ofNat tx.signatures.count).toNat = tx.signatures.count := by
  refine ⟨fun verdict => verify_eq_iff, accepted_iff, fun fault => ?_, tx.exists_overhead,
    tx.signatures.toNat_ofNat_count⟩
  rw [ne_eq, verify_eq_iff]
  nofun

end SignedTransaction

end AccountTx
