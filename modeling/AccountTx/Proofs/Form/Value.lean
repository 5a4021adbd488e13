import AccountTx.Form.Transaction
import AccountTx.Proofs.Form.Record
import AccountTx.Proofs.Json.RoundTrip
import AccountTx.Proofs.Results
import AccountTx.Proofs.Signing.Codec
import AccountTx.Proofs.SlotMap.Insertion
import AccountTx.Proofs.Text.Decimal
import AccountTx.Proofs.Text.Hex
import AccountTx.Proofs.Value.Checked

/-!
Forms that are read back as the value that they were made from. A checked value passes its own
check, and a map is made again from its members although they come in the order of the texts of its
indices.
-/

namespace AccountTx

/-- Types of which every value is read back from its form, and from the text of its form. -/
class LawfulForm (α : Type) [JsonForm α] : Prop where
  ofJson_toJson (a : α) : ofJson (toJson a) = .ok a
  isExact_toJson (a : α) : Json.IsExact (toJson a)

export LawfulForm (ofJson_toJson isExact_toJson)

/-- A value as it is read from a text, if the text is one of JSON. -/
def ofText? {α : Type} [JsonForm α] (text : String) : Option (Except FormError α) :=
  (Json.parse text).map ofJson

/-- The text of a value. -/
def toText {α : Type} [JsonForm α] (a : α) : String := Json.compact (toJson a)

theorem ofText?_toText {α : Type} [JsonForm α] [LawfulForm α] (a : α) :
    ofText? (toText a) = some (.ok a) := by
  rw [ofText?, toText, Json.parse_compact (isExact_toJson a), Option.map_some, ofJson_toJson]

/-! ### Single values -/

theorem Json.natBelow?_nat {bound n : Nat} (h : n < bound) : natBelow? bound (nat n) = some n := by
  simp [natBelow?, nat, int, h]

instance : LawfulForm UInt64 where
  ofJson_toJson n := by
    simp only [ofJson, toJson, Json.natBelow?_nat n.toNat_lt, UInt64.ofNat_toNat]
  isExact_toJson n := ⟨n.toNat, rfl⟩

instance : LawfulForm UInt32 where
  ofJson_toJson n := by
    simp only [ofJson, toJson, Json.natBelow?_nat n.toNat_lt, UInt32.ofNat_toNat]
  isExact_toJson n := ⟨n.toNat, rfl⟩

instance : LawfulForm String where
  ofJson_toJson _ := rfl
  isExact_toJson _ := trivial

@[simp] theorem hexOfText_encode (bytes : Bytes) : hexOfText (Hex.encode bytes) = .ok bytes := by
  rw [hexOfText, Hex.decode_encode]
  rfl

instance : LawfulForm Bytes where
  ofJson_toJson bytes := hexOfText_encode bytes
  isExact_toJson _ := trivial

/-- A type that is read in two steps, the first of which has a lawful form. -/
theorem LawfulForm.ofJson_bind {α β : Type} [JsonForm β] [LawfulForm β]
    (make : β → Except FormError α) (b : β) :
    (do make (← ofJson (toJson b))) = make b := by
  rw [ofJson_toJson]
  rfl

instance {n : Nat} : LawfulForm (FixedBytes n) where
  ofJson_toJson b := by
    refine (LawfulForm.ofJson_bind _ b.toList).trans ?_
    rw [FixedBytes.ofList?_toList]
  isExact_toJson b := isExact_toJson b.toList

instance : LawfulForm Address where
  ofJson_toJson a := LawfulForm.ofJson_bind _ a.bytes
  isExact_toJson a := isExact_toJson a.bytes

instance : LawfulForm Energy where
  ofJson_toJson e := LawfulForm.ofJson_bind _ e.value
  isExact_toJson e := isExact_toJson e.value

instance : LawfulForm Nonce where
  ofJson_toJson n := by
    refine (LawfulForm.ofJson_bind _ n.value).trans ?_
    rw [Nonce.ofNumber_eq_ok_iff.mpr rfl]
    rfl
  isExact_toJson n := isExact_toJson n.value

instance : LawfulForm Expiry where
  ofJson_toJson e := by
    refine (LawfulForm.ofJson_bind _ e.seconds).trans ?_
    rw [Expiry.ofSeconds_eq_ok_iff.mpr rfl]
    rfl
  isExact_toJson e := isExact_toJson e.seconds

instance : LawfulForm ModuleRef where
  ofJson_toJson r := LawfulForm.ofJson_bind _ r.bytes
  isExact_toJson r := isExact_toJson r.bytes

instance : LawfulForm TransactionHash where
  ofJson_toJson h := LawfulForm.ofJson_bind _ h.bytes
  isExact_toJson h := isExact_toJson h.bytes

instance : LawfulForm TransactionType where
  ofJson_toJson t := by cases t <;> rfl
  isExact_toJson _ := trivial

instance : LawfulForm PayloadSize where
  ofJson_toJson s := LawfulForm.ofJson_bind _ s.value
  isExact_toJson s := isExact_toJson s.value

instance : LawfulForm Amount where
  ofJson_toJson a := LawfulForm.ofJson_bind _ a.micro
  isExact_toJson a := isExact_toJson a.micro

instance : LawfulForm ChainData where
  ofJson_toJson d := by
    refine (LawfulForm.ofJson_bind _ d.bytes).trans ?_
    rw [ChainData.ofBytes_eq_ok_iff.mpr rfl]
    rfl
  isExact_toJson d := isExact_toJson d.bytes

instance : LawfulForm Parameter where
  ofJson_toJson p := by
    refine (LawfulForm.ofJson_bind _ p.bytes).trans ?_
    rw [Parameter.ofBytes_eq_ok_iff.mpr rfl]
    rfl
  isExact_toJson p := isExact_toJson p.bytes

instance : LawfulForm InitName where
  ofJson_toJson n := by
    refine (LawfulForm.ofJson_bind _ n.text).trans ?_
    rw [InitName.ofText_eq_ok_iff.mpr rfl]
    rfl
  isExact_toJson _ := trivial

instance : LawfulForm ReceiveName where
  ofJson_toJson n := by
    refine (LawfulForm.ofJson_bind _ n.text).trans ?_
    rw [ReceiveName.ofText_eq_ok_iff.mpr rfl]
    rfl
  isExact_toJson _ := trivial

/-! ### Maps -/

namespace IndexMap

variable {α β : Type}

/-- Members that can be read are added one after the other. -/
theorem ofMembers_map [JsonForm α] {doc : β → Json} {value : β → α}
    (h : ∀ b, ofJson (doc b) = .ok (value b)) (m : IndexMap α) (es : List (UInt8 × β)) :
    ofMembers m (es.map fun e => (toString e.1, doc e.2)) =
      .ok (insertAll (es.map fun e => (e.1, value e.2)) m) := by
  induction es generalizing m with
  | nil => rfl
  | cons e es ih =>
      rw [List.map_cons, ofMembers, index?_toString, h]
      exact ih (m.insert e.1 (value e.2))

theorem ofMembers_toJson [JsonForm α] [LawfulForm α] (m : IndexMap α) (es : List (UInt8 × α)) :
    ofMembers m (es.map fun e => (toString e.1, toJson e.2)) = .ok (insertAll es m) := by
  have hread := ofMembers_map ofJson_toJson m es
  rwa [show (es.map fun e => (e.1, e.2)) = es from List.map_id es] at hread

instance [JsonForm α] [LawfulForm α] : LawfulForm (IndexMap α) where
  ofJson_toJson m := by
    let member (e : UInt8 × α) : String × Json := (toString e.1, toJson e.2)
    let sorted := m.entries.mergeSort fun a b => decide ((member a).1 ≤ (member b).1)
    have hsort : (m.entries.map member).mergeSort (fun a b => decide (a.1 ≤ b.1)) =
        sorted.map member :=
      (List.map_mergeSort (f := member) fun _ _ _ _ => rfl).symm
    calc ofJson (toJson m)
        = ofMembers .empty ((m.entries.map member).mergeSort fun a b => decide (a.1 ≤ b.1)) := rfl
      _ = .ok (insertAll sorted .empty) := by rw [hsort, ofMembers_toJson]
      _ = .ok m := by rw [insertAll_of_perm (List.mergeSort_perm _ _)]
  isExact_toJson m := by
    apply Json.membersExact_iff.mpr
    intro member hmember
    obtain ⟨e, -, rfl⟩ := List.mem_map.mp hmember
    exact isExact_toJson e.2

theorem toJson_map [JsonForm α] [JsonForm β] {f : α → β} (h : ∀ a, toJson (f a) = toJson a)
    (m : IndexMap α) : toJson (m.map f) = toJson m := by
  simp [toJson, h]

theorem traverseEntries_eq_ok_iff {ε : Type} {f : α → Except ε β} {es : List (UInt8 × α)}
    {fs : { fs : List (UInt8 × β) // fs.map (·.1) = es.map (·.1) }} :
    traverseEntries f es = .ok fs ↔
      List.Forall₂ (fun e e' => e'.1 = e.1 ∧ f e.2 = .ok e'.2) es fs.1 := by
  induction es with
  | nil =>
      obtain ⟨fs, hkeys⟩ := fs
      obtain rfl := List.map_eq_nil_iff.mp hkeys
      simp [traverseEntries]
  | cons e es ih =>
      obtain ⟨_ | ⟨e', fs⟩, hkeys⟩ := fs
      · simp at hkeys
      rw [List.map_cons, List.map_cons, List.cons.injEq] at hkeys
      obtain ⟨hkey, hkeys⟩ := hkeys
      have hrest := @ih ⟨fs, hkeys⟩
      rw [List.forall₂_cons, ← hrest, traverseEntries]
      simp only [except_bind_eq_ok_iff]
      constructor
      · rintro ⟨v, hv, ⟨rest, _⟩, hes, heq⟩
        cases heq
        exact ⟨⟨hkey, hv⟩, hes⟩
      · rintro ⟨⟨_, hv⟩, hes⟩
        refine ⟨e'.2, hv, _, hes, ?_⟩
        obtain ⟨k, v⟩ := e'
        cases hkey
        rfl

theorem traverse_eq_ok_iff {ε : Type} {f : α → Except ε β} {m : IndexMap α} {n : IndexMap β} :
    traverse f m = .ok n ↔
      List.Forall₂ (fun e e' => e'.1 = e.1 ∧ f e.2 = .ok e'.2) m.entries n.entries := by
  rw [traverse]
  constructor
  · intro h
    cases hes : traverseEntries f m.entries with
    | error cause =>
        rw [hes] at h
        cases h
    | ok es =>
        rw [hes] at h
        cases h
        exact traverseEntries_eq_ok_iff.mp hes
  · intro h
    have hkeys : n.entries.map (·.1) = m.entries.map (·.1) := by
      rw [← List.forall₂_eq_eq_eq, List.forall₂_map_left_iff, List.forall₂_map_right_iff]
      exact h.flip.imp fun _ _ he => he.1
    have hes : traverseEntries f m.entries = .ok ⟨n.entries, hkeys⟩ :=
      traverseEntries_eq_ok_iff.mpr h
    rw [hes]
    rfl

/-- What undoes a function on every value undoes it on a map. -/
theorem traverse_map {ε : Type} {f : α → β} {g : β → Except ε α} (h : ∀ a, g (f a) = .ok a)
    (m : IndexMap α) : traverse g (m.map f) = .ok m := by
  rw [traverse_eq_ok_iff, entries_map, List.forall₂_map_left_iff]
  exact List.forall₂_same.mpr fun e _ => ⟨rfl, h e.2⟩

end IndexMap

/-! ### Signatures -/

/-- The document of signatures is that of their texts. -/
theorem SignatureMap.toJson_mapValues_encode (s : SignatureMap) :
    toJson (SlotMap.mapValues Hex.encode s.slots) = toJson s := by
  have hkeys (keys : IndexMap Bytes) : toJson (keys.map Hex.encode) = toJson keys :=
    IndexMap.toJson_map (f := Hex.encode) (fun _ => rfl) keys
  exact IndexMap.toJson_map hkeys s.slots

instance : LawfulForm SignatureMap where
  ofJson_toJson s := by
    have hread : IndexMap.traverse (IndexMap.traverse hexOfText)
        (SlotMap.mapValues Hex.encode s.slots) = .ok s.slots :=
      IndexMap.traverse_map (IndexMap.traverse_map hexOfText_encode) s.slots
    rw [← s.toJson_mapValues_encode]
    refine (LawfulForm.ofJson_bind _ (SlotMap.mapValues Hex.encode s.slots)).trans ?_
    rw [hread]
    exact congrArg FormError.ofSigning s.ofSlots_slots
  isExact_toJson s := isExact_toJson s.slots

/-! ### Records -/

/-- The form of a value is read back as a part of a record. -/
theorem Record.part_gives {α : Type} [JsonForm α] [LawfulForm α] {find : String → Option Json}
    {name : String} {a : α} (h : find name = some (toJson a)) :
    (part name : Record α).Gives find a :=
  part_gives_iff.mpr ⟨_, h, ofJson_toJson a⟩

instance : LawfulForm ContractAddress where
  ofJson_toJson a := by
    obtain ⟨index, subindex⟩ := a
    apply Record.read_object_eq_ok_iff.mpr
    exact ((Record.part_gives rfl).map _).seq (Record.part_gives rfl)
  isExact_toJson a := ⟨isExact_toJson a.index, isExact_toJson a.subindex, trivial⟩

instance : LawfulForm Header where
  ofJson_toJson h := by
    obtain ⟨sender, nonce, energy, payloadSize, expiry⟩ := h
    apply Record.read_object_eq_ok_iff.mpr
    exact (((((Record.part_gives rfl).map _).seq (Record.part_gives rfl)).seq
      (Record.part_gives rfl)).seq (Record.part_gives rfl)).seq (Record.part_gives rfl)
  isExact_toJson h := ⟨isExact_toJson h.sender, isExact_toJson h.nonce, isExact_toJson h.energy,
    isExact_toJson h.payloadSize, isExact_toJson h.expiry, trivial⟩

instance : LawfulForm MessageHeader where
  ofJson_toJson h := by
    obtain ⟨sender, nonce, expiry, energy⟩ := h
    apply Record.read_object_eq_ok_iff.mpr
    exact ((((Record.part_gives rfl).map _).seq (Record.part_gives rfl)).seq
      (Record.part_gives rfl)).seq (Record.part_gives rfl)
  isExact_toJson h := ⟨isExact_toJson h.sender, isExact_toJson h.nonce, isExact_toJson h.expiry,
    isExact_toJson h.energy, trivial⟩

instance : LawfulForm Message where
  ofJson_toJson m := by
    obtain ⟨header, payload, signatures⟩ := m
    apply Record.read_object_eq_ok_iff.mpr
    exact (((Record.part_gives rfl).map _).seq (Record.part_gives rfl)).seq (Record.part_gives rfl)
  isExact_toJson m := ⟨isExact_toJson m.header, isExact_toJson m.payload,
    isExact_toJson m.signatures, trivial⟩

instance : LawfulForm BlockItem where
  ofJson_toJson b := by
    obtain ⟨bytes, hash⟩ := b
    apply Record.read_object_eq_ok_iff.mpr
    exact ((Record.part_gives rfl).map _).seq (Record.part_gives rfl)
  isExact_toJson b := ⟨isExact_toJson b.bytes, isExact_toJson b.hash, trivial⟩

end AccountTx
