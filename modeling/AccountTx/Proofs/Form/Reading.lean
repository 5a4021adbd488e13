import AccountTx.Form.Transaction
import AccountTx.Proofs.Form.Value
import AccountTx.Proofs.Signing.Shape
import AccountTx.Proofs.Value.Hexadecimal

/-!
Which documents are read as a value. A number is read from its numeral and a byte string from its
hexadecimal text; a value that is checked when it is made is read from the documents of what it is
made of, and from no others.
-/

namespace AccountTx

open Hex (IsHexOf)

theorem Json.natBelow?_eq_some_iff {bound n : Nat} {j : Json} :
    natBelow? bound j = some n ↔ n < bound ∧ j = nat n := by
  constructor
  · intro h
    unfold natBelow? at h
    split at h
    next m =>
      split at h
      next hm =>
        obtain rfl := Option.some.inj h
        refine ⟨hm.2, ?_⟩
        rw [nat, int, Int.toNat_of_nonneg hm.1]
      next => cases h
    next => cases h
  · rintro ⟨hlt, rfl⟩
    exact natBelow?_nat hlt

theorem ofJson_word_eq_ok_iff {j : Json} {n : UInt64} : ofJson j = .ok n ↔ j = .nat n.toNat := by
  simp only [ofJson]
  constructor
  · intro h
    split at h
    next m hm =>
      obtain ⟨hlt, rfl⟩ := Json.natBelow?_eq_some_iff.mp hm
      obtain rfl := Except.ok.inj h
      rw [UInt64.toNat_ofNat_of_lt' hlt]
    next => cases h
  · rintro rfl
    exact ofJson_toJson n

theorem ofJson_text_eq_ok_iff {j : Json} {text : String} :
    ofJson j = .ok text ↔ j = .string text := by
  constructor
  · intro h
    cases j <;> cases h
    rfl
  · rintro rfl
    rfl

theorem hexOfText_eq_ok_iff {text : String} {bytes : Bytes} :
    hexOfText text = .ok bytes ↔ IsHexOf text bytes := by
  rw [hexOfText, mapError_eq_ok_iff, Hex.decode_eq_ok_iff]

theorem ofJson_bytes_eq_ok_iff {j : Json} {bytes : Bytes} :
    ofJson j = .ok bytes ↔ ∃ text, j = .string text ∧ IsHexOf text bytes := by
  show (do hexOfText (← ofJson j)) = .ok bytes ↔ _
  simp only [except_bind_eq_ok_iff, ofJson_text_eq_ok_iff, hexOfText_eq_ok_iff]

theorem ofJson_string_bytes_eq_ok_iff {text : String} {bytes : Bytes} :
    ofJson (.string text) = .ok bytes ↔ IsHexOf text bytes := by
  rw [ofJson_bytes_eq_ok_iff]
  constructor
  · rintro ⟨_, htext, h⟩
    obtain rfl := JsonOf.string.inj htext
    exact h
  · exact fun h => ⟨text, rfl, h⟩

theorem ofJson_fixed_eq_ok_iff {n : Nat} {j : Json} {b : FixedBytes n} :
    ofJson j = .ok b ↔ ofJson j = .ok b.toList := by
  refine (except_bind_eq_ok_iff (x := (ofJson j : Except FormError Bytes))).trans ?_
  constructor
  · rintro ⟨bytes, hread, h⟩
    split at h
    next fixed hfixed =>
      obtain rfl := Except.ok.inj h
      rw [FixedBytes.ofList?_eq_some_iff.mp hfixed]
      exact hread
    next => cases h
  · intro hread
    refine ⟨b.toList, hread, ?_⟩
    rw [FixedBytes.ofList?_toList]

theorem ofJson_key_eq_ok_iff {j : Json} {k : PublicKey} :
    ofJson j = .ok k ↔
      ofJson j = .ok k.bytes.toList ∧ Ed25519.isPoint k.bytes.toList = true := by
  show (do FormError.ofKey (PublicKey.ofFixed (← ofJson j))) = .ok k ↔ _
  simp only [except_bind_eq_ok_iff, FormError.ofKey, mapError_eq_ok_iff, ofJson_fixed_eq_ok_iff,
    PublicKey.ofFixed_eq_ok_iff]
  constructor
  · rintro ⟨_, hread, rfl, hpoint⟩
    exact ⟨hread, hpoint⟩
  · rintro ⟨hread, hpoint⟩
    exact ⟨k.bytes, hread, rfl, hpoint⟩

/-! ### Checked values -/

section

variable {α β : Type} [JsonForm β] {j : Json}

theorem ofJson_checked_eq_ok_iff {make : β → Except ValueError α} {contents : α → β}
    (hmake : ∀ b a, make b = .ok a ↔ contents a = b) {a : α} :
    (do FormError.ofValue (make (← ofJson j))) = .ok a ↔ ofJson j = .ok (contents a) := by
  simp only [except_bind_eq_ok_iff, FormError.ofValue, mapError_eq_ok_iff, hmake]
  constructor
  · rintro ⟨_, hread, rfl⟩
    exact hread
  · exact fun hread => ⟨contents a, hread, rfl⟩

end

theorem SignatureMap.ofJson_eq_ok_iff {j : Json} {s : SignatureMap} :
    ofJson j = .ok s ↔ ∃ texts : SlotMap String, ofJson j = .ok texts ∧
      IndexMap.traverse (IndexMap.traverse hexOfText) texts = .ok s.slots := by
  show (do
    let texts : SlotMap String ← ofJson j
    let slots ← IndexMap.traverse (IndexMap.traverse hexOfText) texts
    FormError.ofSigning (SignatureMap.ofSlots slots)) = .ok s ↔ _
  simp only [except_bind_eq_ok_iff, FormError.ofSigning, mapError_eq_ok_iff, ofSlots_eq_ok_iff]
  constructor
  · rintro ⟨texts, htexts, slots, hslots, rfl⟩
    exact ⟨texts, htexts, hslots⟩
  · rintro ⟨texts, htexts, hslots⟩
    exact ⟨texts, htexts, s.slots, hslots, rfl⟩

end AccountTx
