import AccountTx.Proofs.Signing.Shape
import AccountTx.Proofs.Wire.Reading

/-!
The bytes of a signature map are read as that map and no others are: `SignatureMap.read` gives a map
exactly on what is written for it. The loops over credentials and keys are generalised over the
entries that they have collected, and the order of the indices is that of the map in the result.
-/

namespace AccountTx

namespace IndexMap

variable {α : Type}

/-- In a map with further entries, the first of them has an index above all before it. -/
theorem below_of_entries {a m : IndexMap α} {k : UInt8} {v : α} {es : List (UInt8 × α)}
    (h : a.entries = m.entries ++ (k, v) :: es) : m.Below k := by
  have hasc := a.ascending
  rw [h, List.pairwise_append] at hasc
  intro e he
  exact hasc.2.2 e he (k, v) List.mem_cons_self

/-- A map without further entries is the map that there was, and nothing is written for them. -/
theorem exists_no_further_iff {a m : IndexMap α} {f : UInt8 × α → Bytes} {bytes rest : Bytes} :
    (∃ es, a.entries = m.entries ++ es ∧ es.length = 0 ∧ bytes = es.flatMap f ++ rest) ↔
      a = m ∧ bytes = rest := by
  constructor
  · rintro ⟨es, hes, hlen, rfl⟩
    cases List.eq_nil_of_length_eq_zero hlen
    exact ⟨IndexMap.ext (by simpa using hes), rfl⟩
  · rintro ⟨rfl, rfl⟩
    exact ⟨[], (List.append_nil _).symm, rfl, rfl⟩

end IndexMap

namespace SignatureMap

variable {bytes rest : Bytes}

open Reader

theorem readKeys_eq_ok_iff {n : Nat} {m : IndexMap Bytes} {hroom : m.size + n ≤ Limits.maxSigners}
    {hshort : ∀ e ∈ m.entries, e.2.length ≤ Limits.maxSignatureLength}
    {keys : { keys : IndexMap Bytes // KeysFit keys }} :
    readKeys n m hroom hshort bytes = .ok (keys, rest) ↔
      ∃ es, keys.1.entries = m.entries ++ es ∧ es.length = n ∧
        bytes = es.flatMap encodeKey ++ rest := by
  induction n generalizing m bytes with
  | zero =>
      rw [readKeys, pure_eq_ok_iff, Subtype.ext_iff, IndexMap.exists_no_further_iff]
  | succ n ih =>
      simp only [readKeys, bind_eq_ok_iff, byte_eq_ok_iff]
      constructor
      -- the key that is read goes behind those of `m`, and `ih` is about the longer map
      · rintro ⟨key, mid, rfl, h⟩
        by_cases hbelow : m.Below key
        · simp only [dif_pos hbelow, bind_eq_ok_iff, fixed_eq_ok_iff, ih] at h
          obtain ⟨length, mid, rfl, signature, mid, rfl, es, hes, hlen, rfl⟩ := h
          have hcount : BigEndian.ofNat 2 signature.toList.length = length.toList := by
            have hwritten := BigEndian.ofNat_toNat length.toList
            rwa [length.length_eq, ← signature.length_eq] at hwritten
          refine ⟨(key, signature.toList) :: es, by simp [hes], by simp [hlen], ?_⟩
          simp [encodeKey, hcount]
        · rw [dif_neg hbelow] at h
          exact absurd h fail_ne_ok
      · rintro ⟨es, hes, hlen, rfl⟩
        cases es with
        | nil => simp at hlen
        | cons e es =>
            obtain ⟨key, signature⟩ := e
            -- the order is not checked here: `keys` has it, and its entries are these
            have hbelow : m.Below key := IndexMap.below_of_entries hes
            have hlt : signature.length < 65536 := by
              have hle := keys.2.2 (key, signature) (by simp [hes])
              exact Nat.lt_succ_of_le hle
            refine ⟨key, BigEndian.ofNat 2 signature.length ++ signature ++ es.flatMap encodeKey
              ++ rest, by simp [encodeKey], ?_⟩
            simp only [dif_pos hbelow, bind_eq_ok_iff, fixed_eq_ok_iff, ih]
            exact ⟨⟨BigEndian.ofNat 2 signature.length, BigEndian.length_ofNat _ _⟩,
              signature ++ (es.flatMap encodeKey ++ rest), by simp,
              ⟨signature, (BigEndian.toNat_ofNat_of_lt hlt).symm⟩, _, rfl, es, by simp [hes],
              by simpa using hlen, rfl⟩

/-- The number of entries is written without loss, since there are at most 255. -/
theorem toNat_ofNat_size {n : Nat} (h : n ≤ Limits.maxSigners) : (UInt8.ofNat n).toNat = n :=
  UInt8.toNat_ofNat_of_lt' (Nat.lt_succ_of_le h)

theorem readCredentials_eq_ok_iff {n : Nat} {m : SlotMap Bytes}
    {hroom : m.size + n ≤ Limits.maxSigners} {hm : ∀ e ∈ m.entries, KeysFit e.2}
    {slots : { slots : SlotMap Bytes // slots.size = m.size + n ∧
      slots.size ≤ Limits.maxSigners ∧ ∀ e ∈ slots.entries, KeysFit e.2 }} :
    readCredentials n m hroom hm bytes = .ok (slots, rest) ↔
      ∃ es, slots.1.entries = m.entries ++ es ∧ es.length = n ∧
        bytes = es.flatMap encodeCredential ++ rest := by
  induction n generalizing m bytes rest with
  | zero =>
      rw [readCredentials, pure_eq_ok_iff, Subtype.ext_iff, IndexMap.exists_no_further_iff]
  | succ n ih =>
      simp only [readCredentials, bind_eq_ok_iff, byte_eq_ok_iff]
      constructor
      · rintro ⟨credential, mid, rfl, h⟩
        by_cases hbelow : m.Below credential
        · simp only [dif_pos hbelow, bind_eq_ok_iff, byte_eq_ok_iff, readKeys_eq_ok_iff,
            pure_eq_ok_iff, ih] at h
          obtain ⟨count, mid, rfl, keys, mid, ⟨ks, hks, hcount, rfl⟩, slots', mid,
            ⟨es, hes, hlen, rfl⟩, rfl, rfl⟩ := h
          have hks' : keys.1.entries = ks := by simpa using hks
          have hbyte : UInt8.ofNat keys.1.size = count := by
            rw [IndexMap.size, hks', hcount, UInt8.ofNat_toNat]
          refine ⟨(credential, keys.1) :: es, by simp [hes], by simp [hlen], ?_⟩
          simp [encodeCredential, hbyte, hks']
        · rw [dif_neg hbelow] at h
          exact absurd h fail_ne_ok
      · rintro ⟨es, hes, hlen, rfl⟩
        cases es with
        | nil => simp at hlen
        | cons e es =>
            obtain ⟨credential, keys⟩ := e
            have hbelow : m.Below credential := IndexMap.below_of_entries hes
            have hkeys : KeysFit keys := slots.2.2.2 (credential, keys) (by simp [hes])
            refine ⟨credential, UInt8.ofNat keys.size :: (keys.entries.flatMap encodeKey ++
              (es.flatMap encodeCredential ++ rest)), by simp [encodeCredential], ?_⟩
            simp only [dif_pos hbelow, bind_eq_ok_iff, byte_eq_ok_iff, readKeys_eq_ok_iff,
              pure_eq_ok_iff, ih]
            have hsize := slots.2.1
            exact ⟨UInt8.ofNat keys.size, _, rfl, ⟨keys, hkeys⟩, _,
              ⟨keys.entries, by simp, (toNat_ofNat_size hkeys.1).symm, rfl⟩,
              ⟨slots.1, by rw [IndexMap.size_push]; omega, slots.2.2⟩, rest,
              ⟨es, by simp [hes], by simpa using hlen, rfl⟩, rfl, rfl⟩

/-- A map is read exactly from what is written for it, whatever follows. -/
theorem read_eq_ok_iff {s : SignatureMap} :
    read bytes = .ok (s, rest) ↔ bytes = s.encode ++ rest := by
  simp only [read, bind_eq_ok_iff, byte_eq_ok_iff]
  constructor
  · rintro ⟨count, mid, rfl, h⟩
    by_cases hzero : count.toNat = 0
    · rw [dif_pos hzero] at h
      exact absurd h fail_ne_ok
    · simp only [dif_neg hzero, bind_eq_ok_iff, readCredentials_eq_ok_iff, pure_eq_ok_iff] at h
      obtain ⟨slots, mid, ⟨es, hes, hlen, rfl⟩, rfl, rfl⟩ := h
      have hes' : slots.1.entries = es := by simpa using hes
      have hbyte : UInt8.ofNat slots.1.size = count := by
        rw [IndexMap.size, hes', hlen, UInt8.ofNat_toNat]
      simp [encode, hbyte, hes']
  · rintro rfl
    have hcount := toNat_ofNat_size s.fits.2.1
    have hpos : ¬ (UInt8.ofNat s.slots.size).toNat = 0 := by
      rw [hcount]
      exact Nat.ne_of_gt s.fits.1
    refine ⟨UInt8.ofNat s.slots.size, s.slots.entries.flatMap encodeCredential ++ rest, rfl, ?_⟩
    simp only [dif_neg hpos, bind_eq_ok_iff, readCredentials_eq_ok_iff, pure_eq_ok_iff]
    exact ⟨⟨s.slots, by simp [hcount], s.fits.2⟩, rest,
      ⟨s.slots.entries, by simp, hcount.symm, rfl⟩, SignatureMap.ext rfl, rfl⟩

theorem decode_eq_ok_iff {s : SignatureMap} : decode bytes = .ok s ↔ bytes = s.encode := by
  rw [decode, complete_eq_ok_iff, read_eq_ok_iff, List.append_nil]

/-- What is written for a map tells where it ends. -/
theorem encode_append_inj {s s' : SignatureMap} {rest' : Bytes} :
    s.encode ++ rest = s'.encode ++ rest' ↔ s = s' ∧ rest = rest' :=
  append_inj_of_read fun _ _ => read_eq_ok_iff.mpr rfl

theorem length_encodeKey (e : UInt8 × Bytes) : (encodeKey e).length = 3 + e.2.length := by
  simp only [encodeKey, List.length_cons, List.length_append, BigEndian.length_ofNat]
  omega

theorem length_encodeCredential (e : UInt8 × IndexMap Bytes) :
    (encodeCredential e).length = 2 + total (e.2.entries.map fun k => 3 + k.2.length) := by
  simp only [encodeCredential, List.length_cons, List.length_flatMap, length_encodeKey]
  exact Nat.add_comm _ 2

theorem length_encode (s : SignatureMap) : s.encode.length = s.encodedSize := by
  simp only [encode, List.length_cons, List.length_flatMap, length_encodeCredential]
  exact Nat.add_comm _ 1

theorem ofSlots_slots (s : SignatureMap) : ofSlots s.slots = .ok s := ofSlots_eq_ok_iff.mpr rfl

/-- Writing and reading are inverse on the maps whose counts and lengths fit their fields, which are
the ones that are made, and what follows a map is left as it is. -/
theorem wire_form_bijective :
    (∀ slots : SlotMap Bytes, (∃ s, ofSlots slots = .ok s ∧ s.slots = slots) ↔
      (1 ≤ slots.size ∧ slots.size ≤ 255) ∧
      ∀ c ∈ slots.entries, c.2.size ≤ 255 ∧ ∀ k ∈ c.2.entries, k.2.length ≤ 65535) ∧
    (∀ s bytes rest,
      read bytes = .ok (s, rest) ↔ ofSlots s.slots = .ok s ∧ bytes = s.encode ++ rest) ∧
    (∀ s bytes, decode bytes = .ok s ↔ ofSlots s.slots = .ok s ∧ bytes = s.encode) ∧
    ∀ (s s' : SignatureMap) (rest rest' : Bytes),
      s.encode ++ rest = s'.encode ++ rest' ↔ s = s' ∧ rest = rest' := by
  refine ⟨fun slots => ?_, fun s bytes rest => ?_, fun s bytes => ?_, fun s s' rest rest' => ?_⟩
  · simp only [← ofSlots_eq_ok_iff, and_self, exists_ofSlots_iff, and_assoc]
    rfl
  · rw [read_eq_ok_iff, and_iff_right s.ofSlots_slots]
  · rw [decode_eq_ok_iff, and_iff_right s.ofSlots_slots]
  · exact encode_append_inj

end SignatureMap

end AccountTx
