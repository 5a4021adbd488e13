import AccountTx.Key
import AccountTx.Proofs.Results
import AccountTx.Proofs.Text.Hex
import AccountTx.Value.Address

/-!
Values that are read from hexadecimal texts. The text has as many digits as the value has room for,
and says which bytes it has; around the text of a key there may be white space.
-/

namespace AccountTx

open Hex

theorem FixedBytes.ofList?_eq_some_iff {n : Nat} {bytes : Bytes} {b : FixedBytes n} :
    ofList? n bytes = some b ↔ b.toList = bytes := by
  constructor
  · intro h
    rw [ofList?] at h
    split at h
    next => rw [← Option.some.inj h]
    next => cases h
  · rintro rfl
    exact ofList?_toList b

theorem FixedBytes.ofBytes_eq_ok_iff (what : String) {n : Nat} {bytes : Bytes}
    {b : FixedBytes n} : ofBytes what n bytes = .ok b ↔ b.toList = bytes := by
  rw [← ofList?_eq_some_iff, ofBytes]
  cases ofList? n bytes <;> simp

theorem FixedBytes.ofHex_eq_ok_iff (what : String) {n : Nat} {text : String}
    {b : FixedBytes n} : ofHex what n text = .ok b ↔ IsHexOf text b.toList := by
  rw [← decode_eq_ok_iff, ofHex]
  cases decode text with
  | error fault => simp
  | ok bytes =>
      show ofBytes what n bytes = .ok b ↔ _
      rw [ofBytes_eq_ok_iff, Except.ok.injEq, eq_comm]

theorem exists_fixed_isHexOf_iff {n : Nat} {text : String} :
    (∃ b : FixedBytes n, IsHexOf text b.toList) ↔ Spells n text := by
  rw [← exists_isHexOf_iff]
  constructor
  · rintro ⟨b, h⟩
    exact ⟨b.toList, h, b.length_eq⟩
  · rintro ⟨bytes, h, hlength⟩
    exact ⟨⟨bytes, hlength⟩, h⟩

theorem Address.ofHex_eq_ok_iff {text : String} {a : Address} :
    ofHex text = .ok a ↔ IsHexOf text a.bytes.toList := by
  rw [← FixedBytes.ofHex_eq_ok_iff what, ofHex]
  cases FixedBytes.ofHex what 32 text with
  | error e => simp [Except.map]
  | ok b =>
      obtain ⟨bytes⟩ := a
      simp [Except.map]

theorem keyBytes_eq_ok_iff {text : String} {b : FixedBytes 32} :
    keyBytes text = .ok b ↔ IsHexOf (Text.trim text) b.toList := by
  rw [← decode_eq_ok_iff, keyBytes]
  cases decode (Text.trim text) with
  | error fault => simp
  | ok bytes =>
      simp only [Except.ok.injEq]
      rw [@eq_comm _ bytes, ← FixedBytes.ofList?_eq_some_iff]
      cases FixedBytes.ofList? 32 bytes <;> simp

theorem SecretKey.ofHex_eq_ok_iff {text : String} {k : SecretKey} :
    ofHex text = .ok k ↔ IsHexOf (Text.trim text) k.bytes.toList := by
  rw [← keyBytes_eq_ok_iff, ofHex]
  cases keyBytes text with
  | error e => simp [Except.map]
  | ok b =>
      obtain ⟨bytes⟩ := k
      simp [Except.map]

/-! ### Public keys -/

namespace PublicKey

theorem ofFixed_eq_ok_iff {b : FixedBytes 32} {k : PublicKey} :
    ofFixed b = .ok k ↔ k.bytes = b ∧ Ed25519.isPoint b.toList = true := by
  unfold ofFixed
  split
  next hpoint =>
    rw [Except.ok.injEq]
    constructor
    · rintro rfl
      exact ⟨rfl, hpoint⟩
    · rintro ⟨rfl, -⟩
      rfl
  next hpoint => simp [hpoint]

theorem ofBytes_eq_ok_iff {bytes : Bytes} {k : PublicKey} :
    ofBytes bytes = .ok k ↔ k.bytes.toList = bytes ∧ Ed25519.isPoint bytes = true := by
  rw [← FixedBytes.ofList?_eq_some_iff, ofBytes]
  cases hfixed : FixedBytes.ofList? 32 bytes with
  | none => simp
  | some fixed =>
      obtain rfl := FixedBytes.ofList?_eq_some_iff.mp hfixed
      show ofFixed fixed = .ok k ↔ _
      rw [ofFixed_eq_ok_iff, Option.some.injEq, eq_comm (a := fixed)]

theorem ofHex_eq_ok_iff {text : String} {k : PublicKey} :
    ofHex text = .ok k ↔
      IsHexOf (Text.trim text) k.bytes.toList ∧ Ed25519.isPoint k.bytes.toList = true := by
  show (keyBytes text >>= ofFixed) = .ok k ↔ _
  rw [except_bind_eq_ok_iff, ← keyBytes_eq_ok_iff]
  simp only [ofFixed_eq_ok_iff]
  constructor
  · rintro ⟨_, hbytes, rfl, hpoint⟩
    exact ⟨hbytes, hpoint⟩
  · rintro ⟨hbytes, hpoint⟩
    exact ⟨k.bytes, hbytes, rfl, hpoint⟩

end PublicKey

end AccountTx
