import AccountTx.Form.Payload
import AccountTx.Proofs.Form.Value
import AccountTx.Proofs.Payload.Codec

/-!
Payloads in JSON and on the wire. A document is read as a payload if it tells the kind and every
part of it, wherever they stand in an object and whatever else is there. No such document gives a
payload that its own form, or its bytes, would change.
-/

namespace AccountTx

/-- What is found under a name is a form of the value. -/
def Tells {α : Type} [JsonForm α] (find : String → Option Json) (name : String) (a : α) : Prop :=
  ∃ j, find name = some j ∧ ofJson j = .ok a

theorem Record.part_gives_iff_tells {α : Type} [JsonForm α] {find : String → Option Json}
    {name : String} {a : α} : (part name : Record α).Gives find a ↔ Tells find name a :=
  part_gives_iff

namespace Payload

/-- The names of the parts of a payload, in the order in which an array has them. -/
def names (p : Payload) : List String := p.members.map (·.1)

/-- Every part of the payload is told. -/
def IsTold (find : String → Option Json) : Payload → Prop
  | deployModule module => Tells find "module" module
  | initContract amount module name parameter maxEnergy =>
      Tells find "amount" amount ∧ Tells find "module_ref" module ∧ Tells find "init_name" name ∧
        Tells find "parameter" parameter ∧ Tells find "max_energy" maxEnergy
  | updateContract amount contract name parameter maxEnergy =>
      Tells find "amount" amount ∧ Tells find "address" contract ∧
        Tells find "receive_name" name ∧ Tells find "parameter" parameter ∧
        Tells find "max_energy" maxEnergy
  | transfer amount receiver => Tells find "amount" amount ∧ Tells find "receiver" receiver
  | registerData data => Tells find "data" data
  | transferWithMemo amount receiver memo =>
      Tells find "amount" amount ∧ Tells find "receiver" receiver ∧ Tells find "memo" memo

/-- A document tells the kind and the parts of a payload: in an object by their names, in an array
by their order after the kind. -/
inductive IsFormOf : Json → Payload → Prop where
  | object {members : List (String × Json)} {p : Payload} :
      Json.member? "type" members = some (.string p.kind) →
      p.IsTold (fun name => Json.member? name members) → IsFormOf (.object members) p
  | array {items : List Json} {p : Payload} : items.length ≤ p.names.length →
      p.IsTold (fun name => (p.names.zip items).lookup name) →
      IsFormOf (.array (.string p.kind :: items)) p

section Record

variable {record : Record Payload} {kind : String} {p : Payload}

/-- The record of a kind gives the payloads of this kind that are told. -/
theorem gives_iff (hrecord : record? kind = some record) {find : String → Option Json} :
    record.Gives find p ↔ p.kind = kind ∧ p.IsTold find := by
  unfold record? at hrecord
  split at hrecord
  case h_7 => cases hrecord
  all_goals
    cases hrecord
    simp only [Record.map_gives_iff, Record.seq_gives_iff, Record.part_gives_iff_tells]
    cases p <;> simp [Payload.kind, IsTold, and_assoc]

theorem names_eq (hrecord : record? kind = some record) (hkind : p.kind = kind) :
    record.names = p.names := by
  subst hkind
  cases p <;> cases hrecord <;> rfl

theorem exists_record (p : Payload) : ∃ record, record? p.kind = some record := by
  cases p <;> exact ⟨_, rfl⟩

end Record

theorem ofJson_eq_ok_iff_split {j : Json} {p : Payload} :
    ofJson j = .ok p ↔ ∃ kind parts record, split? j = some (.string kind, parts) ∧
      record? kind = some record ∧ record.read parts = .ok p := by
  simp only [ofJson]
  constructor
  · intro h
    split at h
    next kind parts hsplit =>
      split at h
      next record hrecord => exact ⟨kind, parts, record, hsplit, hrecord, h⟩
      next => cases h
    next => cases h
  · rintro ⟨kind, parts, record, hsplit, hrecord, hread⟩
    simp only [hsplit, hrecord, hread]

/-- The documents that are read as a payload are those that tell it. -/
theorem ofJson_eq_ok_iff {j : Json} {p : Payload} : ofJson j = .ok p ↔ IsFormOf j p := by
  rw [ofJson_eq_ok_iff_split]
  constructor
  · rintro ⟨kind, parts, record, hsplit, hrecord, hread⟩
    unfold split? at hsplit
    split at hsplit
    next members =>
      obtain ⟨_, hmember, hparts⟩ := Option.map_eq_some_iff.mp hsplit
      cases hparts
      obtain ⟨rfl, htold⟩ := (gives_iff hrecord).mp (Record.read_object_eq_ok_iff.mp hread)
      exact .object hmember htold
    next =>
      cases hsplit
      obtain ⟨hlength, hgives⟩ := Record.read_array_eq_ok_iff.mp hread
      obtain ⟨rfl, htold⟩ := (gives_iff hrecord).mp hgives
      rw [names_eq hrecord rfl] at hlength htold
      exact .array hlength htold
    next => cases hsplit
  · intro h
    obtain ⟨record, hrecord⟩ := exists_record p
    cases h with
    | object hmember htold =>
        refine ⟨p.kind, _, record, by rw [split?, hmember]; rfl, hrecord, ?_⟩
        exact Record.read_object_eq_ok_iff.mpr ((gives_iff hrecord).mpr ⟨rfl, htold⟩)
    | @array items _ hlength htold =>
        refine ⟨p.kind, .array items, record, rfl, hrecord, ?_⟩
        rw [← names_eq hrecord rfl] at hlength htold
        exact Record.read_array_eq_ok_iff.mpr ⟨hlength, (gives_iff hrecord).mpr ⟨rfl, htold⟩⟩

/-- A value tells its own form. -/
theorem tells_toJson {α : Type} [JsonForm α] [LawfulForm α] {find : String → Option Json}
    {name : String} {a : α} (h : find name = some (toJson a)) : Tells find name a :=
  ⟨_, h, ofJson_toJson a⟩

instance : LawfulForm Payload where
  ofJson_toJson p := by
    apply ofJson_eq_ok_iff.mpr
    refine .object (by cases p <;> rfl) ?_
    cases p with
    | deployModule module =>
        rw [IsTold]
        exact tells_toJson rfl
    | initContract amount module name parameter maxEnergy =>
        exact ⟨tells_toJson rfl, tells_toJson rfl, tells_toJson rfl, tells_toJson rfl,
          tells_toJson rfl⟩
    | updateContract amount contract name parameter maxEnergy =>
        exact ⟨tells_toJson rfl, tells_toJson rfl, tells_toJson rfl, tells_toJson rfl,
          tells_toJson rfl⟩
    | transfer amount receiver => exact ⟨tells_toJson rfl, tells_toJson rfl⟩
    | registerData data =>
        rw [IsTold]
        exact tells_toJson rfl
    | transferWithMemo amount receiver memo =>
        exact ⟨tells_toJson rfl, tells_toJson rfl, tells_toJson rfl⟩
  isExact_toJson p := by
    cases p with
    | deployModule module => exact ⟨trivial, isExact_toJson module, trivial⟩
    | initContract amount module name parameter maxEnergy =>
        exact ⟨trivial, isExact_toJson amount, isExact_toJson module, isExact_toJson name,
          isExact_toJson parameter, isExact_toJson maxEnergy, trivial⟩
    | updateContract amount contract name parameter maxEnergy =>
        exact ⟨trivial, isExact_toJson amount, isExact_toJson contract, isExact_toJson name,
          isExact_toJson parameter, isExact_toJson maxEnergy, trivial⟩
    | transfer amount receiver =>
        exact ⟨trivial, isExact_toJson amount, isExact_toJson receiver, trivial⟩
    | registerData data => exact ⟨trivial, isExact_toJson data, trivial⟩
    | transferWithMemo amount receiver memo =>
        exact ⟨trivial, isExact_toJson amount, isExact_toJson receiver, isExact_toJson memo,
          trivial⟩

/-- Every payload is read back from its JSON form and from the text of it. A document is read as a
payload exactly if it tells its kind and its parts, whatever else it holds, and whatever is read is
valid and is carried without change both by its own JSON form and by its bytes. -/
theorem json_carried_by_wire :
    (∀ p : Payload, ofJson (toJson p) = .ok p ∧ ofText? (toText p) = some (.ok p)) ∧
    (∀ (j : Json) (p : Payload), ofJson j = .ok p ↔ IsFormOf j p) ∧
    ∀ (j : Json) (p : Payload), ofJson j = .ok p →
      p.IsValid ∧ ofJson (toJson p) = .ok p ∧ decodeWithEnergy p.encode p.baseCost = .ok p := by
  refine ⟨fun p => ⟨ofJson_toJson p, ofText?_toText p⟩, fun j p => ofJson_eq_ok_iff, ?_⟩
  intro j p _
  refine ⟨p.isValid, ofJson_toJson p, ?_⟩
  rw [decodeWithEnergy_encode, withMaxEnergy_baseCost]

/-- A document in another order, with digits of both cases and a member that no transfer has. -/
def reorderedTransfer : Json :=
  .object [("receiver",
      .string "ABCDEF0123456789abcdef0123456789ABCDEF0123456789abcdef0123456789"),
    ("memo", .null), ("type", .string "transfer"), ("amount", Json.nat 18446744073709551615)]

theorem reorderedTransfer_carried :
    ∃ receiver, ofJson reorderedTransfer = .ok (transfer ⟨18446744073709551615⟩ receiver) ∧
      decodeWithEnergy (transfer ⟨18446744073709551615⟩ receiver).encode ⟨300⟩
        = .ok (transfer ⟨18446744073709551615⟩ receiver) := by
  let half : Bytes := [0xAB, 0xCD, 0xEF, 0x01, 0x23, 0x45, 0x67, 0x89]
  have hread : ofJson reorderedTransfer = .ok (transfer ⟨18446744073709551615⟩
      ⟨⟨half ++ half ++ half ++ half, rfl⟩⟩) :=
    ofJson_eq_ok_iff.mpr (.object rfl ⟨⟨_, rfl, rfl⟩, _, rfl, rfl⟩)
  obtain ⟨-, -, hcarried⟩ := json_carried_by_wire.2.2 _ _ hread
  exact ⟨_, hread, hcarried⟩

end Payload

end AccountTx
