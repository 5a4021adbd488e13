import AccountTx.Proofs.Signing.Codec
import AccountTx.Proofs.Value.Checked
import AccountTx.Proofs.Value.Hexadecimal

/-!
Types whose values are checked when they are made. Such a type has a rule for what its values are
made of, and a check that a draft passes exactly if it keeps to the rule; what has passed is the
draft unchanged. A way to make values admits what the check admits if it finds a draft in its input,
puts it to the check, and does nothing else.
-/

namespace AccountTx

/-- A type with drafts `δ` of its values, the check that makes a value of a draft, and the rule that
the check is for. -/
class Checked (α : Type) (δ : outParam Type) where
  Fault : Type
  check : δ → Except Fault α
  draft : α → δ
  Rule : δ → Prop
  check_eq_ok_iff {d : δ} {a : α} : check d = .ok a ↔ draft a = d ∧ Rule d
  exists_draft {d : δ} : Rule d → ∃ a, draft a = d

open Checked (check draft check_eq_ok_iff)

/-- Types without a value that breaks the rule. -/
class AlwaysValid (α : Type) {δ : outParam Type} [Checked α δ] : Prop where
  rule_draft (a : α) : Checked.Rule (α := α) (draft a)

/-- `make` gives what the check makes of the drafts that its input tells. So it accepts the inputs
that tell a draft within the rule, and no value that it gives breaks the rule. -/
structure Admits {ι ε α δ : Type} [Checked α δ] (make : ι → Except ε α) (Tells : ι → δ → Prop) :
    Prop where
  make_eq_ok_iff (i : ι) (a : α) : make i = .ok a ↔ ∃ d, Tells i d ∧ check d = .ok a
  exists_make_iff (i : ι) : (∃ a, make i = .ok a) ↔ ∃ d, Tells i d ∧ Checked.Rule (α := α) d
  valid {i : ι} {a : α} : make i = .ok a → Tells i (draft a) ∧ Checked.Rule (α := α) (draft a)

section

variable {ι ε α δ : Type} [Checked α δ] {make : ι → Except ε α} {Tells : ι → δ → Prop}

theorem exists_check_iff {d : δ} : (∃ a : α, check d = .ok a) ↔ Checked.Rule (α := α) d := by
  simp only [check_eq_ok_iff]
  constructor
  · rintro ⟨_, _, hrule⟩
    exact hrule
  · intro hrule
    obtain ⟨a, ha⟩ := Checked.exists_draft hrule
    exact ⟨a, ha, hrule⟩

/-- It is enough to know which values are given. -/
theorem Admits.of_valid
    (h : ∀ i a, make i = .ok a ↔ Tells i (draft a) ∧ Checked.Rule (α := α) (draft a)) :
    Admits make Tells := by
  have hmake (i : ι) (a : α) : make i = .ok a ↔ ∃ d, Tells i d ∧ check d = .ok a := by
    rw [h]
    simp only [check_eq_ok_iff]
    constructor
    · rintro ⟨htells, hrule⟩
      exact ⟨draft a, htells, rfl, hrule⟩
    · rintro ⟨_, htells, rfl, hrule⟩
      exact ⟨htells, hrule⟩
  refine ⟨hmake, fun i => ?_, fun {i a} ha => (h i a).mp ha⟩
  simp only [hmake, ← exists_check_iff (α := α)]
  constructor
  · rintro ⟨a, d, htells, ha⟩
    exact ⟨d, htells, a, ha⟩
  · rintro ⟨d, htells, a, ha⟩
    exact ⟨a, d, htells, ha⟩

/-- The drafts of values are those within the rule. -/
theorem exists_draft_iff [AlwaysValid α] {d : δ} :
    (∃ a : α, draft a = d) ↔ Checked.Rule (α := α) d := by
  constructor
  · rintro ⟨a, rfl⟩
    exact AlwaysValid.rule_draft a
  · exact Checked.exists_draft

theorem Admits.of_iff [AlwaysValid α] (h : ∀ i a, make i = .ok a ↔ Tells i (draft a)) :
    Admits make Tells :=
  .of_valid fun i a => by rw [h, and_iff_left (AlwaysValid.rule_draft a)]

end

/-! ### Numbers -/

namespace Nonce

def Rule (n : UInt64) : Prop := 1 ≤ n.toNat

theorem rule_iff {n : UInt64} : Rule n ↔ n ≠ 0 := by
  rw [Rule, Nat.one_le_iff_ne_zero, Ne, Ne, ← UInt64.toNat_inj]
  rfl

theorem rule_value (n : Nonce) : Rule n.value := rule_iff.mpr n.ne_zero

instance : Checked Nonce UInt64 where
  Fault := ValueError
  check := ofNumber
  draft := value
  Rule := Rule
  check_eq_ok_iff := ofNumber_eq_ok_iff.trans (iff_self_and.mpr fun h => h ▸ rule_value _)
  exists_draft h := ⟨⟨_, rule_iff.mp h⟩, rfl⟩

instance : AlwaysValid Nonce := ⟨rule_value⟩

end Nonce

namespace Expiry

def Rule (seconds : UInt64) : Prop := seconds.toNat ≤ 2 ^ 63 - 1

theorem rule_iff {seconds : UInt64} : Rule seconds ↔ seconds ≤ Limits.maxExpiry :=
  (UInt64.le_iff_toNat_le (b := Limits.maxExpiry)).symm

theorem rule_seconds (e : Expiry) : Rule e.seconds := rule_iff.mpr e.le_max

instance : Checked Expiry UInt64 where
  Fault := ValueError
  check := ofSeconds
  draft := seconds
  Rule := Rule
  check_eq_ok_iff := ofSeconds_eq_ok_iff.trans (iff_self_and.mpr fun h => h ▸ rule_seconds _)
  exists_draft h := ⟨⟨_, rule_iff.mp h⟩, rfl⟩

instance : AlwaysValid Expiry := ⟨rule_seconds⟩

end Expiry

/-! ### Byte strings -/

namespace ChainData

def Rule (bytes : Bytes) : Prop := bytes.length ≤ 256

instance : Checked ChainData Bytes where
  Fault := ValueError
  check := ofBytes
  draft := bytes
  Rule := Rule
  check_eq_ok_iff := ofBytes_eq_ok_iff.trans (iff_self_and.mpr fun h => h ▸ length_le _)
  exists_draft h := ⟨⟨_, h⟩, rfl⟩

instance : AlwaysValid ChainData := ⟨length_le⟩

end ChainData

namespace Parameter

def Rule (bytes : Bytes) : Prop := bytes.length ≤ 65535

instance : Checked Parameter Bytes where
  Fault := ValueError
  check := ofBytes
  draft := bytes
  Rule := Rule
  check_eq_ok_iff := ofBytes_eq_ok_iff.trans (iff_self_and.mpr fun h => h ▸ length_le _)
  exists_draft h := ⟨⟨_, h⟩, rfl⟩

instance : AlwaysValid Parameter := ⟨length_le⟩

end Parameter

namespace PublicKey

/-- Any 32 bytes that are a point. -/
def Rule (bytes : Bytes) : Prop := bytes.length = 32 ∧ Ed25519.isPoint bytes = true

instance : Checked PublicKey Bytes where
  Fault := KeyError
  check := ofBytes
  draft k := k.bytes.toList
  Rule := Rule
  check_eq_ok_iff {bytes k} := by
    rw [ofBytes_eq_ok_iff, Rule]
    constructor
    · rintro ⟨rfl, hpoint⟩
      exact ⟨rfl, k.bytes.length_eq, hpoint⟩
    · rintro ⟨rfl, -, hpoint⟩
      exact ⟨rfl, hpoint⟩
  exists_draft h := ⟨⟨⟨_, h.1⟩⟩, rfl⟩

end PublicKey

/-! ### Names of contract functions -/

namespace FunctionName

/-- What init names and receive names have in common. -/
def Rule (name : String) : Prop :=
  (Utf8.encode name).length ≤ 100 ∧ ∀ c ∈ name.toList, 0x21 ≤ c.toNat ∧ c.toNat ≤ 0x7E

theorem rule_iff {name : String} : Rule name ↔ fault? name = none := fault?_eq_none_iff.symm

end FunctionName

namespace InitName

def Rule (name : String) : Prop :=
  FunctionName.Rule name ∧ "init_".toList <+: name.toList ∧ '.' ∉ name.toList

theorem rule_iff {name : String} : Rule name ↔ fault? name = none := by
  rw [Rule, FunctionName.rule_iff, fault?]
  cases FunctionName.fault? name with
  | some fault => simp
  | none =>
      rw [← List.isPrefixOf_iff_prefix]
      show _ ↔ (if (!"init_".toList.isPrefixOf name.toList) = true then _ else _) = none
      cases "init_".toList.isPrefixOf name.toList <;> simp [FunctionName.hasDot]

theorem rule_text (n : InitName) : Rule n.text := rule_iff.mpr n.valid

instance : Checked InitName String where
  Fault := ValueError
  check := ofText
  draft := text
  Rule := Rule
  check_eq_ok_iff := ofText_eq_ok_iff.trans (iff_self_and.mpr fun h => h ▸ rule_text _)
  exists_draft h := ⟨⟨_, rule_iff.mp h⟩, rfl⟩

instance : AlwaysValid InitName := ⟨rule_text⟩

end InitName

namespace ReceiveName

def Rule (name : String) : Prop := FunctionName.Rule name ∧ '.' ∈ name.toList

theorem rule_iff {name : String} : Rule name ↔ fault? name = none := by
  rw [Rule, FunctionName.rule_iff, fault?]
  cases FunctionName.fault? name with
  | some fault => simp
  | none => simp [FunctionName.hasDot]

theorem rule_text (n : ReceiveName) : Rule n.text := rule_iff.mpr n.valid

instance : Checked ReceiveName String where
  Fault := ValueError
  check := ofText
  draft := text
  Rule := Rule
  check_eq_ok_iff := ofText_eq_ok_iff.trans (iff_self_and.mpr fun h => h ▸ rule_text _)
  exists_draft h := ⟨⟨_, rule_iff.mp h⟩, rfl⟩

instance : AlwaysValid ReceiveName := ⟨rule_text⟩

end ReceiveName

/-! ### Signatures -/

namespace SignatureMap

def Rule (slots : SlotMap Bytes) : Prop :=
  (1 ≤ slots.size ∧ slots.size ≤ 255) ∧
    ∀ c ∈ slots.entries, c.2.size ≤ 255 ∧ ∀ k ∈ c.2.entries, k.2.length ≤ 65535

theorem rule_iff {slots : SlotMap Bytes} : Rule slots ↔ Fits slots := and_assoc

theorem rule_slots (s : SignatureMap) : Rule s.slots := rule_iff.mpr s.fits

instance : Checked SignatureMap (SlotMap Bytes) where
  Fault := SigningError
  check := ofSlots
  draft := slots
  Rule := Rule
  check_eq_ok_iff := ofSlots_eq_ok_iff.trans (iff_self_and.mpr fun h => h ▸ rule_slots _)
  exists_draft h := ⟨⟨_, rule_iff.mp h⟩, rfl⟩

instance : AlwaysValid SignatureMap := ⟨rule_slots⟩

end SignatureMap

end AccountTx
