import AccountTx.Proofs.Form.IndexMap
import AccountTx.Proofs.Form.Reading

/-!
Documents of signatures. Such a document has texts by credential and key, and it is read in three
steps: its shape, then its hexadecimal texts in ascending order of their slots, then the counts and
lengths. Where an index is repeated, the last member counts for the last two steps. What is read is
written as the document that was read, in lower case and without the members that did not count.
-/

namespace AccountTx

open Hex (IsHexOf toList_toLower)
open IndexMap (insertAll lasting)
open Json (sorted)

/-- Texts by credential and key, in the order of a document and with its repeats. -/
abbrev SlotTexts := List (UInt8 × List (UInt8 × String))

namespace SlotTexts

def document (t : SlotTexts) : Json := IndexMap.document (IndexMap.document .string) t

/-- The texts that count where indices are repeated. -/
def settled (t : SlotTexts) : SlotTexts := (lasting t).map fun c => (c.1, lasting c.2)

def lowered (t : SlotTexts) : SlotTexts :=
  t.map fun c => (c.1, c.2.map fun k => (k.1, k.2.toLower))

/-- There is a text at a slot. -/
def Has (t : SlotTexts) (credential key : UInt8) (text : String) : Prop :=
  ∃ keys, (credential, keys) ∈ t ∧ (key, text) ∈ keys

/-- The texts are those of signatures, in number and length. -/
structure IsWellFormed (t : SlotTexts) : Prop where
  pos : 1 ≤ t.length
  credentials : t.length ≤ 255
  keys : ∀ c ∈ t, c.2.length ≤ 255
  texts : ∀ c ∈ t, ∀ k ∈ c.2, k.2.toList.length % 2 = 0 ∧ k.2.toList.length ≤ 131070 ∧
    ∀ d ∈ k.2.toList, d ∈ Hex.digits

/-- No index is repeated. -/
structure IsDistinct (t : SlotTexts) : Prop where
  credentials : (t.map (·.1)).Nodup
  keys : ∀ c ∈ t, (c.2.map (·.1)).Nodup

/-- The texts are those of the signatures: the same credentials, and at each slot a text of the
signature there. -/
structure Spells (t : SlotTexts) (slots : SlotMap Bytes) : Prop where
  credentials (credential : UInt8) :
    slots.contains credential = true ↔ ∃ keys, (credential, keys) ∈ t
  signature {credential key : UInt8} {text : String} : t.Has credential key text →
    ∃ bytes, SlotMap.find? slots credential key = some bytes ∧ IsHexOf text bytes
  text {credential key : UInt8} {bytes : Bytes} :
    SlotMap.find? slots credential key = some bytes →
      ∃ text, t.Has credential key text ∧ IsHexOf text bytes

/-- The text at the slot is not hexadecimal, for this reason, and all texts at slots before it
are. -/
structure IsFirstFault (t : SlotTexts) (credential key : UInt8) (text : String) (fault : HexError) :
    Prop where
  has : t.Has credential key text
  fault_eq : Hex.decode text = .error fault
  before {credential' key' : UInt8} {text' : String} : t.Has credential' key' text' →
    SlotMap.Precedes credential' key' credential key → ∃ bytes, IsHexOf text' bytes

/-- The map that the texts fill. -/
def slots (t : SlotTexts) : SlotMap String :=
  insertAll (t.map fun c => (c.1, insertAll c.2 .empty)) .empty

/-! ### The texts that count -/

variable {t : SlotTexts}

theorem settled_isDistinct (t : SlotTexts) : t.settled.IsDistinct := by
  constructor
  · rw [settled, IndexMap.keys_map]
    exact IndexMap.lasting_keys_nodup t
  · intro c hc
    obtain ⟨e, -, rfl⟩ := List.mem_map.mp hc
    exact IndexMap.lasting_keys_nodup e.2

theorem settled_eq_self_iff : t.settled = t ↔ t.IsDistinct := by
  constructor
  · intro h
    rw [← h]
    exact settled_isDistinct t
  · intro h
    rw [settled, IndexMap.lasting_eq_self h.credentials]
    calc t.map (fun c => (c.1, lasting c.2)) = t.map id :=
          List.map_congr_left fun c hc => by rw [IndexMap.lasting_eq_self (h.keys c hc)]; rfl
      _ = t := List.map_id t

/-- The map has an entry for each credential that counts. -/
theorem entries_slots (t : SlotTexts) :
    (t.settled.map fun c => (c.1, insertAll c.2 .empty)).Perm t.slots.entries := by
  have hsettled : t.settled.map (fun c => (c.1, insertAll c.2 .empty)) =
      lasting (t.map fun c => (c.1, insertAll c.2 .empty)) := by
    rw [IndexMap.lasting_map fun keys => insertAll keys .empty, settled, List.map_map]
    refine List.map_congr_left fun c _ => ?_
    simp only [Function.comp_apply, IndexMap.insertAll_lasting]
  rw [hsettled]
  exact IndexMap.lasting_perm _

/-- And within it an entry for each key that counts. -/
theorem entries_of_mem_settled {c : UInt8 × List (UInt8 × String)} (hc : c ∈ t.settled) :
    c.2.Perm (insertAll c.2 .empty).entries :=
  IndexMap.perm_of_nodup ((settled_isDistinct t).keys c hc)

theorem size_slots (t : SlotTexts) : t.slots.size = t.settled.length := by
  rw [IndexMap.size, ← (entries_slots t).length_eq, List.length_map]

theorem forall_entries_slots_iff {p : IndexMap String → Prop} :
    (∀ e ∈ t.slots.entries, p e.2) ↔ ∀ c ∈ t.settled, p (insertAll c.2 .empty) := by
  simp only [← (entries_slots t).mem_iff, List.forall_mem_map]

theorem has_settled_iff {credential key : UInt8} {text : String} :
    t.settled.Has credential key text ↔ SlotMap.find? t.slots credential key = some text := by
  simp only [SlotMap.find?_eq_some_iff, ← (entries_slots t).mem_iff, List.mem_map, Has]
  constructor
  · rintro ⟨keys, hkeys, htext⟩
    exact ⟨_, ⟨(credential, keys), hkeys, rfl⟩, (entries_of_mem_settled hkeys).mem_iff.mp htext⟩
  · rintro ⟨_, ⟨c, hc, heq⟩, htext⟩
    cases heq
    exact ⟨c.2, hc, (entries_of_mem_settled hc).mem_iff.mpr htext⟩

/-! ### Their documents -/

/-- A document has its texts in one way only. -/
theorem document_inj {t t' : SlotTexts} : t.document = t'.document ↔ t = t' :=
  IndexMap.document_inj fun _ _ h => (IndexMap.document_inj fun _ _ => JsonOf.string.inj).mp h

theorem ofJson_keys_document (keys : List (UInt8 × String)) :
    ofJson (IndexMap.document .string keys) = .ok (insertAll keys .empty) := by
  have htext (text : String) : ofJson (.string text) = .ok (id text) := rfl
  rw [IndexMap.ofJson_document htext]
  exact congrArg (fun es => Except.ok (insertAll es .empty)) (List.map_id keys)

theorem ofJson_document (t : SlotTexts) : ofJson t.document = .ok t.slots :=
  IndexMap.ofJson_document ofJson_keys_document t

theorem exists_ofJson_iff {j : Json} :
    (∃ texts : SlotMap String, ofJson j = .ok texts) ↔ ∃ t : SlotTexts, t.document = j := by
  have htext (j : Json) : (∃ text : String, ofJson j = .ok text) ↔ ∃ text, .string text = j :=
    exists_congr fun text => ofJson_text_eq_ok_iff.trans eq_comm
  exact IndexMap.exists_ofJson_iff_document fun _ => IndexMap.exists_ofJson_iff_document htext

/-! ### Their hexadecimal texts -/

/-- Going through the texts gives the signatures whose texts they are. -/
theorem traverse_slots_iff {slots : SlotMap Bytes} :
    IndexMap.traverse (IndexMap.traverse hexOfText) t.slots = .ok slots ↔
      SlotMap.mapValues String.toLower t.slots = SlotMap.mapValues Hex.encode slots :=
  IndexMap.traverse_eq_ok_iff_map (IndexMap.traverse_eq_ok_iff_map fun _ _ =>
    hexOfText_eq_ok_iff.trans Hex.isHexOf_iff_toLower) t.slots slots

theorem contains_slots_iff {credential : UInt8} :
    t.slots.contains credential = true ↔ ∃ keys, (credential, keys) ∈ t.settled := by
  simp only [IndexMap.contains_iff, IndexMap.get?_eq_some_iff, ← (entries_slots t).mem_iff,
    List.mem_map]
  constructor
  · rintro ⟨_, c, hc, heq⟩
    cases heq
    exact ⟨c.2, hc⟩
  · rintro ⟨keys, hkeys⟩
    exact ⟨_, (credential, keys), hkeys, rfl⟩

theorem contains_mapValues {α β : Type} (f : α → β) (m : SlotMap α) (credential : UInt8) :
    (SlotMap.mapValues f m).contains credential = m.contains credential := by
  rw [IndexMap.contains, SlotMap.mapValues, IndexMap.get?_map, Option.isSome_map, IndexMap.contains]

theorem spells_settled_iff {slots : SlotMap Bytes} :
    t.settled.Spells slots ↔
      IndexMap.traverse (IndexMap.traverse hexOfText) t.slots = .ok slots := by
  rw [traverse_slots_iff]
  constructor
  · intro h
    refine SlotMap.ext_find?_of_contains (fun credential => ?_) fun credential key => ?_
    · rw [contains_mapValues, contains_mapValues, Bool.eq_iff_iff, contains_slots_iff,
        h.credentials]
    · ext text
      simp only [SlotMap.find?_mapValues_eq_some_iff, ← has_settled_iff]
      constructor
      · rintro ⟨text, htext, rfl⟩
        obtain ⟨bytes, hbytes, hhex⟩ := h.signature htext
        exact ⟨bytes, hbytes, (Hex.isHexOf_iff_toLower.mp hhex).symm⟩
      · rintro ⟨bytes, hbytes, rfl⟩
        obtain ⟨text, htext, hhex⟩ := h.text hbytes
        exact ⟨text, htext, Hex.isHexOf_iff_toLower.mp hhex⟩
  · intro h
    have hfind (credential key : UInt8) (w : String) :
        (∃ text, t.settled.Has credential key text ∧ text.toLower = w) ↔
          ∃ bytes, SlotMap.find? slots credential key = some bytes ∧ Hex.encode bytes = w := by
      simp only [has_settled_iff]
      rw [← SlotMap.find?_mapValues_eq_some_iff, h, SlotMap.find?_mapValues_eq_some_iff]
    refine ⟨fun credential => ?_, fun {credential key text} htext => ?_,
      fun {credential key bytes} hbytes => ?_⟩
    · rw [← contains_slots_iff, ← contains_mapValues Hex.encode, ← h, contains_mapValues]
    · obtain ⟨bytes, hbytes, heq⟩ := (hfind credential key _).mp ⟨text, htext, rfl⟩
      exact ⟨bytes, hbytes, Hex.isHexOf_iff_toLower.mpr heq.symm⟩
    · obtain ⟨text, htext, heq⟩ := (hfind credential key _).mpr ⟨bytes, hbytes, rfl⟩
      exact ⟨text, htext, Hex.isHexOf_iff_toLower.mpr heq⟩

theorem hexOfText_error_iff {text : String} {e : FormError} :
    error? (hexOfText text) = some e ↔
      ∃ fault, Hex.decode text = .error fault ∧ e = .refused (.hex fault) := by
  rw [hexOfText]
  cases Hex.decode text with
  | ok bytes => simp [Except.mapError, error?]
  | error fault => simp [Except.mapError, error?, eq_comm]

/-- Going through the texts fails at the first that is not hexadecimal. -/
theorem traverse_slots_eq_error_iff {e : FormError} :
    IndexMap.traverse (IndexMap.traverse hexOfText) t.slots = .error e ↔
      ∃ credential key text fault, t.settled.IsFirstFault credential key text fault ∧
        e = .refused (.hex fault) := by
  have hfault (_ _ : UInt8) (text : String) :
      error? (hexOfText text) = none ↔ ¬ ¬ ∃ bytes, IsHexOf text bytes := by
    simp only [error?_eq_none_iff, hexOfText_eq_ok_iff, not_not]
  rw [← error?_eq_some_iff, IndexMap.error?_traverse_traverse, SlotMap.search_eq_some_iff hfault]
  constructor
  · rintro ⟨credential, key, text, hfirst, he⟩
    obtain ⟨fault, hdecode, rfl⟩ := hexOfText_error_iff.mp he
    refine ⟨credential, key, text, fault, ⟨has_settled_iff.mpr hfirst.find_eq, hdecode, ?_⟩, rfl⟩
    intro credential' key' text' htext' hprecedes
    exact not_not.mp (hfirst.before credential' key' text' (has_settled_iff.mp htext') hprecedes)
  · rintro ⟨credential, key, text, fault, hfirst, rfl⟩
    have he := hexOfText_error_iff.mpr ⟨fault, hfirst.fault_eq, rfl⟩
    refine ⟨credential, key, text, ⟨has_settled_iff.mp hfirst.has, ?_, ?_⟩, he⟩
    · rintro ⟨bytes, hbytes⟩
      rw [hexOfText_eq_ok_iff.mpr hbytes] at he
      cases he
    · intro credential' key' text' htext' hprecedes
      exact not_not.mpr (hfirst.before (has_settled_iff.mpr htext') hprecedes)

theorem exists_traverse_slots_iff :
    (∃ slots, IndexMap.traverse (IndexMap.traverse hexOfText) t.slots = .ok slots) ↔
      ∀ c ∈ t.settled, ∀ k ∈ c.2, ∃ bytes, IsHexOf k.2 bytes := by
  rw [← error?_eq_none_iff, IndexMap.error?_traverse_traverse, SlotMap.search_eq_none_iff]
  simp only [error?_eq_none_iff, hexOfText_eq_ok_iff, ← has_settled_iff, Has]
  constructor
  · intro h c hc k hk
    exact h c.1 k.1 k.2 ⟨c.2, hc, hk⟩
  · rintro h credential key text ⟨keys, hkeys, htext⟩
    exact h (credential, keys) hkeys (key, text) htext

/-! ### Their number and lengths -/

/-- The bounds of signatures, as bounds of their texts: two digits to a byte. -/
def TextsFit (m : SlotMap String) : Prop :=
  0 < m.size ∧ m.size ≤ 255 ∧
    ∀ e ∈ m.entries, e.2.size ≤ 255 ∧ ∀ k ∈ e.2.entries, k.2.toList.length ≤ 131070

theorem textsFit_mapValues_iff {α : Type} {f : α → String} {m : SlotMap α} :
    TextsFit (SlotMap.mapValues f m) ↔ 0 < m.size ∧ m.size ≤ 255 ∧
      ∀ e ∈ m.entries, e.2.size ≤ 255 ∧ ∀ k ∈ e.2.entries, (f k.2).toList.length ≤ 131070 := by
  simp only [TextsFit, SlotMap.mapValues, IndexMap.size_map, IndexMap.entries_map,
    List.forall_mem_map]

theorem textsFit_encode_iff {slots : SlotMap Bytes} :
    TextsFit (SlotMap.mapValues Hex.encode slots) ↔ SignatureMap.Fits slots := by
  have hlength (bytes : Bytes) :
      (Hex.encode bytes).toList.length ≤ 131070 ↔ bytes.length ≤ 65535 := by
    rw [Hex.encode, String.toList_ofList, Hex.length_flatMap_encodeByte]
    omega
  simp only [textsFit_mapValues_iff, hlength]
  rfl

theorem textsFit_toLower_iff {texts : SlotMap String} :
    TextsFit (SlotMap.mapValues String.toLower texts) ↔ TextsFit texts := by
  simp only [textsFit_mapValues_iff, toList_toLower, List.length_map]
  rfl

theorem textsFit_slots_iff :
    TextsFit t.slots ↔ 1 ≤ t.settled.length ∧ t.settled.length ≤ 255 ∧
      ∀ c ∈ t.settled, c.2.length ≤ 255 ∧ ∀ k ∈ c.2, k.2.toList.length ≤ 131070 := by
  have hkeys := forall_entries_slots_iff (t := t)
    (p := fun keys => keys.size ≤ 255 ∧ ∀ k ∈ keys.entries, k.2.toList.length ≤ 131070)
  rw [TextsFit, size_slots, hkeys]
  refine and_congr_right fun _ => and_congr_right fun _ => forall₂_congr fun c hc => ?_
  have hperm := entries_of_mem_settled hc
  simp only [IndexMap.size, ← hperm.length_eq, ← hperm.mem_iff]

theorem isWellFormed_settled_iff :
    t.settled.IsWellFormed ↔
      (∀ c ∈ t.settled, ∀ k ∈ c.2, ∃ bytes, IsHexOf k.2 bytes) ∧ TextsFit t.slots := by
  simp only [textsFit_slots_iff, Hex.exists_isHexOf_iff_even]
  constructor
  · rintro ⟨hpos, hcredentials, hkeys, htexts⟩
    refine ⟨fun c hc k hk => ?_, hpos, hcredentials, fun c hc => ⟨hkeys c hc, fun k hk => ?_⟩⟩
    · obtain ⟨heven, -, hdigits⟩ := htexts c hc k hk
      exact ⟨heven, hdigits⟩
    · exact (htexts c hc k hk).2.1
  · rintro ⟨htexts, hpos, hcredentials, hkeys⟩
    refine ⟨hpos, hcredentials, fun c hc => (hkeys c hc).1, fun c hc k hk => ?_⟩
    obtain ⟨heven, hdigits⟩ := htexts c hc k hk
    exact ⟨heven, (hkeys c hc).2 k hk, hdigits⟩

/-- Signatures are within their bounds exactly if their texts are within theirs. -/
theorem fits_iff_of_spells {slots : SlotMap Bytes} (h : t.settled.Spells slots) :
    SignatureMap.Fits slots ↔ TextsFit t.slots := by
  rw [← textsFit_encode_iff, ← traverse_slots_iff.mp (spells_settled_iff.mp h),
    textsFit_toLower_iff]

/-! ### The documents of what is read -/

theorem slots_settled (t : SlotTexts) : t.settled.slots = t.slots :=
  IndexMap.insertAll_of_perm (entries_slots t)

theorem slots_lowered (t : SlotTexts) :
    t.lowered.slots = SlotMap.mapValues String.toLower t.slots := by
  rw [slots, slots, SlotMap.mapValues, IndexMap.map_insertAll, lowered, List.map_map, List.map_map]
  simp only [Function.comp_def, IndexMap.map_insertAll]
  rfl

theorem IsDistinct.lowered (h : t.IsDistinct) : t.lowered.IsDistinct := by
  constructor
  · rw [SlotTexts.lowered, IndexMap.keys_map]
    exact h.credentials
  · intro c hc
    obtain ⟨e, he, rfl⟩ := List.mem_map.mp hc
    rw [IndexMap.keys_map]
    exact h.keys e he

/-- In the order of the names, distinct texts make the document of the map that they fill. -/
theorem IsDistinct.sorted_document (h : t.IsDistinct) :
    sorted t.document = sorted (toJson t.slots) := by
  have hentries : (t.map fun c => (c.1, insertAll c.2 .empty)).Perm t.slots.entries := by
    have hperm := entries_slots t
    rwa [settled_eq_self_iff.mpr h] at hperm
  have hkeys : ∀ c ∈ t, sorted (IndexMap.document .string c.2) =
      sorted (toJson (insertAll c.2 .empty)) := by
    intro c hc
    have hnodup := h.keys c hc
    exact IndexMap.sorted_document_of_perm .string (IndexMap.perm_of_nodup hnodup) hnodup
  have hcredentials : ((t.map fun c => (c.1, insertAll c.2 .empty)).map (·.1)).Nodup := by
    rw [IndexMap.keys_map fun keys => insertAll keys .empty]
    exact h.credentials
  calc sorted t.document
      = sorted (IndexMap.document toJson (t.map fun c => (c.1, insertAll c.2 .empty))) :=
        IndexMap.sorted_document_congr hkeys
    _ = sorted (toJson t.slots) :=
        IndexMap.sorted_document_of_perm toJson hentries hcredentials

theorem sorted_document_settled_lowered (t : SlotTexts) :
    sorted t.settled.lowered.document =
      sorted (toJson (SlotMap.mapValues String.toLower t.slots)) := by
  rw [(settled_isDistinct t).lowered.sorted_document, slots_lowered, slots_settled]

end SlotTexts

theorem sorted_toJson_inj {α : Type} [JsonForm α] [LawfulForm α] [OrderFree α] {a b : α} :
    sorted (toJson a) = sorted (toJson b) ↔ a = b := by
  constructor
  · intro h
    have hread : (ofJson (toJson a) : Except FormError α) = ofJson (toJson b) := by
      rw [← ofJson_sorted, h, ofJson_sorted]
    rw [ofJson_toJson, ofJson_toJson] at hread
    exact Except.ok.inj hread
  · rintro rfl
    rfl

namespace SignatureMap

open SlotTexts

/-- The ways in which the reading of a document can end. -/
inductive Outcome (j : Json) : Except FormError SignatureMap → Prop
  /-- The document is no object of objects of texts with indices for names. -/
  | shape : (¬ ∃ t : SlotTexts, t.document = j) → Outcome j (.error .shape)
  /-- It is, and of the texts that count some are not hexadecimal. -/
  | hex {t : SlotTexts} {credential key : UInt8} {text : String} {fault : HexError} :
      t.document = j → t.settled.IsFirstFault credential key text fault →
      Outcome j (.error (.refused (.hex fault)))
  /-- All of them are, and the signatures are refused. -/
  | size {t : SlotTexts} {slots : SlotMap Bytes} {cause : SigningError} :
      t.document = j → t.settled.Spells slots → ofSlots slots = .error cause →
      Outcome j (.error (.refused (.signatures cause)))
  | ok {t : SlotTexts} {s : SignatureMap} :
      t.document = j → t.settled.Spells s.slots → Outcome j (.ok s)

theorem ofJson_eq (j : Json) :
    (ofJson j : Except FormError SignatureMap) = (do
      let texts : SlotMap String ← ofJson j
      let slots ← IndexMap.traverse (IndexMap.traverse hexOfText) texts
      FormError.ofSigning (ofSlots slots)) := rfl

theorem ofJson_eq_of_not_exists {j : Json} (h : ¬ ∃ t : SlotTexts, t.document = j) :
    (ofJson j : Except FormError SignatureMap) = .error .shape := by
  rw [← exists_ofJson_iff] at h
  rw [ofJson_eq]
  cases htexts : (ofJson j : Except FormError (SlotMap String)) with
  | ok texts => exact absurd ⟨texts, htexts⟩ h
  | error e =>
      rw [ShapeOnly.eq_shape htexts]
      rfl

theorem ofJson_document (t : SlotTexts) :
    (ofJson t.document : Except FormError SignatureMap) = (do
      let slots ← IndexMap.traverse (IndexMap.traverse hexOfText) t.slots
      FormError.ofSigning (ofSlots slots)) := by
  rw [ofJson_eq, SlotTexts.ofJson_document]
  rfl

theorem ofJson_document_of_spells {t : SlotTexts} {slots : SlotMap Bytes}
    (h : t.settled.Spells slots) :
    (ofJson t.document : Except FormError SignatureMap) = FormError.ofSigning (ofSlots slots) := by
  rw [ofJson_document, spells_settled_iff.mp h]
  rfl

theorem ofJson_eq_of_outcome {j : Json} {r : Except FormError SignatureMap} (h : Outcome j r) :
    ofJson j = r := by
  cases h with
  | shape h => exact ofJson_eq_of_not_exists h
  | hex hj hfirst =>
      subst hj
      rw [ofJson_document, traverse_slots_eq_error_iff.mpr ⟨_, _, _, _, hfirst, rfl⟩]
      rfl
  | size hj hspells hcause =>
      subst hj
      rw [ofJson_document_of_spells hspells, hcause]
      rfl
  | ok hj hspells =>
      subst hj
      rw [ofJson_document_of_spells hspells, ofSlots_eq_ok_iff.mpr rfl]
      rfl

theorem outcome_ofJson (j : Json) : Outcome j (ofJson j) := by
  by_cases hj : ∃ t : SlotTexts, t.document = j
  · obtain ⟨t, rfl⟩ := hj
    cases htraverse : IndexMap.traverse (IndexMap.traverse hexOfText) t.slots with
    | error e =>
        obtain ⟨credential, key, text, fault, hfirst, rfl⟩ :=
          traverse_slots_eq_error_iff.mp htraverse
        rw [ofJson_document, htraverse]
        exact .hex rfl hfirst
    | ok slots =>
        have hspells := spells_settled_iff.mpr htraverse
        rw [ofJson_document_of_spells hspells]
        cases hslots : ofSlots slots with
        | error cause => exact .size rfl hspells hslots
        | ok s =>
            rw [← ofSlots_eq_ok_iff.mp hslots] at hspells
            exact .ok rfl hspells
  · rw [ofJson_eq_of_not_exists hj]
    exact .shape hj

theorem ofJson_eq_iff_outcome {j : Json} {r : Except FormError SignatureMap} :
    ofJson j = r ↔ Outcome j r := by
  constructor
  · rintro rfl
    exact outcome_ofJson j
  · exact ofJson_eq_of_outcome

theorem ofJson_document_eq_ok_iff {t : SlotTexts} {s : SignatureMap} :
    ofJson t.document = .ok s ↔ t.settled.Spells s.slots := by
  rw [spells_settled_iff, SignatureMap.ofJson_eq_ok_iff, SlotTexts.ofJson_document]
  simp

/-- What is read is written as the texts that count, in lower case. -/
theorem ofJson_document_eq_ok_iff_sorted {t : SlotTexts} {s : SignatureMap} :
    ofJson t.document = .ok s ↔ sorted (toJson s) = sorted t.settled.lowered.document := by
  rw [ofJson_document_eq_ok_iff, spells_settled_iff, traverse_slots_iff,
    sorted_document_settled_lowered, ← toJson_mapValues_encode, sorted_toJson_inj, eq_comm]

theorem exists_ofJson_iff_isWellFormed {j : Json} :
    (∃ s : SignatureMap, ofJson j = .ok s) ↔
      ∃ t : SlotTexts, t.document = j ∧ t.settled.IsWellFormed := by
  constructor
  · rintro ⟨s, hs⟩
    cases ofJson_eq_iff_outcome.mp hs with
    | ok hj hspells =>
        refine ⟨_, hj, isWellFormed_settled_iff.mpr ⟨?_, (fits_iff_of_spells hspells).mp s.fits⟩⟩
        exact exists_traverse_slots_iff.mp ⟨_, spells_settled_iff.mp hspells⟩
  · rintro ⟨t, rfl, ht⟩
    obtain ⟨htexts, hfit⟩ := isWellFormed_settled_iff.mp ht
    obtain ⟨slots, hslots⟩ := exists_traverse_slots_iff.mpr htexts
    have hspells := spells_settled_iff.mpr hslots
    exact ⟨⟨slots, (fits_iff_of_spells hspells).mpr hfit⟩, ofJson_document_eq_ok_iff.mpr hspells⟩

/-- Signature maps are read from the documents that spell them, whatever the order of the members
and the case of the digits, and any other document is refused for the first of its faults. -/
theorem json_form_exact :
    (∀ s : SignatureMap, ofJson (toJson s) = .ok s ∧ ofText? (toText s) = some (.ok s)) ∧
    (∀ (j : Json) (r : Except FormError SignatureMap), ofJson j = r ↔ Outcome j r) ∧
    (∀ j : Json, (∃ s : SignatureMap, ofJson j = .ok s) ↔
      ∃ t : SlotTexts, t.document = j ∧ t.settled.IsWellFormed) ∧
    (∀ (t : SlotTexts) (s : SignatureMap),
      ofJson t.document = .ok s ↔ sorted (toJson s) = sorted t.settled.lowered.document) ∧
    (∀ t t' : SlotTexts, t.document = t'.document ↔ t = t') ∧
    ∀ t : SlotTexts, t.settled = t ↔ t.IsDistinct :=
  ⟨fun s => ⟨ofJson_toJson s, ofText?_toText s⟩, fun _ _ => ofJson_eq_iff_outcome,
    fun _ => exists_ofJson_iff_isWellFormed, fun _ _ => ofJson_document_eq_ok_iff_sorted,
    fun _ _ => document_inj, fun _ => settled_eq_self_iff⟩

end SignatureMap

end AccountTx
