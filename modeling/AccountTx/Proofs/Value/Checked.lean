import AccountTx.Proofs.Text.Utf8
import AccountTx.Value.ChainData
import AccountTx.Value.Contract
import AccountTx.Value.Expiry
import AccountTx.Value.Nonce

/-!
Values that are checked when they are made. A checked value is determined by what it was made from,
and every value of the type is made from its own contents; the names of contract functions are made
from the bytes that are written for them, and from no others.
-/

namespace AccountTx

/-- A value that is made of checked contents is the one that has these contents. -/
theorem checked_eq_ok_iff {ε α β : Type} {p : β → Prop} [DecidablePred p]
    (make : (b : β) → p b → α) (contents : α → β) (hmake : ∀ a, ∃ h, make (contents a) h = a)
    (hcontents : ∀ b h, contents (make b h) = b) {e : ε} {a : α} {b : β} :
    (if h : p b then Except.ok (make b h) else .error e) = .ok a ↔ contents a = b := by
  split
  next h =>
    rw [Except.ok.injEq]
    constructor
    · rintro rfl
      exact hcontents b h
    · rintro rfl
      obtain ⟨_, hmade⟩ := hmake a
      exact hmade
  next h =>
    refine iff_of_false nofun ?_
    rintro rfl
    obtain ⟨hchecked, _⟩ := hmake a
    exact h hchecked

theorem Nonce.ofNumber_eq_ok_iff {n : UInt64} {nonce : Nonce} :
    Nonce.ofNumber n = .ok nonce ↔ nonce.value = n := by
  have hzero := nonce.ne_zero
  unfold Nonce.ofNumber
  split
  next h => simpa [h] using hzero
  next h =>
    constructor
    · rintro ⟨⟩
      rfl
    · rintro rfl
      rfl

theorem Expiry.ofSeconds_eq_ok_iff {seconds : UInt64} {expiry : Expiry} :
    Expiry.ofSeconds seconds = .ok expiry ↔ expiry.seconds = seconds :=
  checked_eq_ok_iff Expiry.mk Expiry.seconds (fun e => ⟨e.le_max, rfl⟩) fun _ _ => rfl

theorem ChainData.ofBytes_eq_ok_iff {bytes : Bytes} {data : ChainData} :
    ChainData.ofBytes bytes = .ok data ↔ data.bytes = bytes :=
  checked_eq_ok_iff ChainData.mk ChainData.bytes (fun d => ⟨d.length_le, rfl⟩) fun _ _ => rfl

theorem Parameter.ofBytes_eq_ok_iff {bytes : Bytes} {parameter : Parameter} :
    Parameter.ofBytes bytes = .ok parameter ↔ parameter.bytes = bytes :=
  checked_eq_ok_iff Parameter.mk Parameter.bytes (fun p => ⟨p.length_le, rfl⟩) fun _ _ => rfl

theorem InitName.ofText_eq_ok_iff {text : String} {name : InitName} :
    InitName.ofText text = .ok name ↔ name.text = text := by
  obtain ⟨t, ht⟩ := name
  unfold InitName.ofText
  split
  next h => simp [eq_comm]
  next h =>
    constructor
    · simp
    · rintro rfl
      rw [ht] at h
      cases h

theorem ReceiveName.ofText_eq_ok_iff {text : String} {name : ReceiveName} :
    ReceiveName.ofText text = .ok name ↔ name.text = text := by
  obtain ⟨t, ht⟩ := name
  unfold ReceiveName.ofText
  split
  next h => simp [eq_comm]
  next h =>
    constructor
    · simp
    · rintro rfl
      rw [ht] at h
      cases h

/-! ### Names of contract functions -/

namespace FunctionName

theorem isAllowed_iff {c : Char} : isAllowed c = true ↔ Utf8.IsVisible c := by
  have halpha : c.isAlpha = (c.isUpper || c.isLower) := rfl
  have hupper : c.isUpper = decide ('A' ≤ c ∧ c ≤ 'Z') := rfl
  have hlower : c.isLower = (decide ('a' ≤ c) && decide (c ≤ 'z')) := rfl
  simp [isAllowed, isPunctuation, Char.isAlphanum, halpha, hupper, hlower, Char.isDigit,
    Char.le_def, UInt32.le_iff_toNat_le, Utf8.IsVisible]
  omega

theorem fault?_eq_none_iff {name : String} :
    fault? name = none ↔
      Utf8.size name ≤ Limits.maxNameLength ∧ ∀ c ∈ name.toList, Utf8.IsVisible c := by
  unfold fault?
  split
  next h => simp [Nat.not_le.mpr h]
  next h =>
    have hle := Nat.not_lt.mp h
    simp [hle, ← isAllowed_iff]

end FunctionName

theorem InitName.fault?_text (name : InitName) : FunctionName.fault? name.text = none := by
  have h := name.valid
  unfold InitName.fault? at h
  split at h
  next => cases h
  next heq => exact heq

theorem ReceiveName.fault?_text (name : ReceiveName) : FunctionName.fault? name.text = none := by
  have h := name.valid
  unfold ReceiveName.fault? at h
  split at h
  next => cases h
  next heq => exact heq

theorem InitName.length_encode_le (name : InitName) :
    name.encode.length ≤ Limits.maxNameLength :=
  (FunctionName.fault?_eq_none_iff.mp name.fault?_text).1

theorem ReceiveName.length_encode_le (name : ReceiveName) :
    name.encode.length ≤ Limits.maxNameLength :=
  (FunctionName.fault?_eq_none_iff.mp name.fault?_text).1

/-- Bytes that are not UTF-8 make no name, since no name has the replacement character. -/
theorem InitName.ofText_decodeLossy_eq_ok_iff {bytes : Bytes} {name : InitName} :
    InitName.ofText (Utf8.decodeLossy bytes) = .ok name ↔ bytes = name.encode := by
  rw [InitName.ofText_eq_ok_iff, eq_comm]
  exact Utf8.decodeLossy_eq_iff (FunctionName.fault?_eq_none_iff.mp name.fault?_text).2

theorem ReceiveName.ofText_decodeLossy_eq_ok_iff {bytes : Bytes} {name : ReceiveName} :
    ReceiveName.ofText (Utf8.decodeLossy bytes) = .ok name ↔ bytes = name.encode := by
  rw [ReceiveName.ofText_eq_ok_iff, eq_comm]
  exact Utf8.decodeLossy_eq_iff (FunctionName.fault?_eq_none_iff.mp name.fault?_text).2

end AccountTx
