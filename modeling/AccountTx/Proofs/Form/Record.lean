import AccountTx.Form.Record

/-!
What a record reads. It gives a value if every part is there and right and the parts make the value;
for a record that is put together from its parts this is one statement about each of them.
-/

namespace AccountTx.Record

variable {α β : Type} {find : String → Option Json}

/-- Every part is there and right, and together they make the value. -/
def Gives (r : Record α) (find : String → Option Json) (a : α) : Prop :=
  (r.parts find).faults = [] ∧ (r.parts find).value? = some a

theorem part_gives_iff [JsonForm α] {name : String} {a : α} :
    (part name : Record α).Gives find a ↔ ∃ j, find name = some j ∧ ofJson j = .ok a := by
  rw [Gives, part, field]
  cases hfind : find name with
  | none => simp [hfind]
  | some j =>
      cases hread : (ofJson j : Except FormError α) with
      | error e => simp [hfind, hread]
      | ok b => simp [hfind, hread]

theorem seq_gives_iff {f : Record (α → β)} {x : Record α} {b : β} :
    (f <*> x).Gives find b ↔ ∃ g a, f.Gives find g ∧ x.Gives find a ∧ g a = b := by
  simp only [Gives, Seq.seq, List.append_eq_nil_iff, Option.bind_eq_some_iff,
    Option.map_eq_some_iff]
  constructor
  · rintro ⟨⟨hf, hx⟩, g, hg, a, ha, rfl⟩
    exact ⟨g, a, ⟨hf, hg⟩, ⟨hx, ha⟩, rfl⟩
  · rintro ⟨g, a, ⟨hf, hg⟩, ⟨hx, ha⟩, rfl⟩
    exact ⟨⟨hf, hx⟩, g, hg, a, ha, rfl⟩

theorem map_gives_iff {f : α → β} {r : Record α} {b : β} :
    (f <$> r).Gives find b ↔ ∃ a, r.Gives find a ∧ f a = b := by
  have hmap : f <$> r = (pure f : Record (α → β)) <*> r := rfl
  have hpure (g : α → β) : (pure f : Record (α → β)).Gives find g ↔ f = g := by
    rw [Gives]
    simp [pure]
  rw [hmap, seq_gives_iff]
  simp only [hpure]
  constructor
  · rintro ⟨g, a, rfl, ha, rfl⟩
    exact ⟨a, ha, rfl⟩
  · rintro ⟨a, ha, rfl⟩
    exact ⟨f, a, rfl, ha, rfl⟩

theorem Gives.map {r : Record α} {a : α} (h : r.Gives find a) (f : α → β) :
    (f <$> r).Gives find (f a) :=
  map_gives_iff.mpr ⟨a, h, rfl⟩

theorem Gives.seq {f : Record (α → β)} {x : Record α} {g : α → β} {a : α}
    (hf : f.Gives find g) (hx : x.Gives find a) : (f <*> x).Gives find (g a) :=
  seq_gives_iff.mpr ⟨g, a, hf, hx, rfl⟩

/-- An object is read as what its members give. -/
theorem read_object_eq_ok_iff {r : Record α} {members : List (String × Json)} {a : α} :
    r.read (.object members) = .ok a ↔ r.Gives (fun name => Json.member? name members) a := by
  rw [read, ofMembers, Gives, Parts.byName, Parts.result]
  generalize r.parts _ = p
  have hnil : (p.faults.mergeSort fun a b => decide (a.1 ≤ b.1)) = [] ↔ p.faults = [] := by
    rw [← List.length_eq_zero_iff, List.length_mergeSort, List.length_eq_zero_iff]
  rw [← hnil]
  cases p.faults.mergeSort fun a b => decide (a.1 ≤ b.1) with
  | nil => cases p.value? <;> simp
  | cons fault faults => simp

/-- An array is read as its items give by their positions, if there are not too many. -/
theorem read_array_eq_ok_iff {r : Record α} {items : List Json} {a : α} :
    r.read (.array items) = .ok a ↔ items.length ≤ r.names.length ∧
      r.Gives (fun name => (r.names.zip items).lookup name) a := by
  rw [read, ofItems, Gives]
  generalize r.parts _ = p
  obtain ⟨faults, value?⟩ := p
  split
  next h => cases faults <;> cases value? <;> simp [Parts.result, h]
  next h => cases faults <;> simp [Parts.result, Parts.incomplete, h]

/-- How a document holds the parts of a record: an object by their names, an array by their
order. -/
inductive Holds (names : List String) : Json → (String → Option Json) → Prop where
  | object (members : List (String × Json)) :
      Holds names (.object members) fun name => Json.member? name members
  | array {items : List Json} : items.length ≤ names.length →
      Holds names (.array items) fun name => (names.zip items).lookup name

theorem read_eq_ok_iff {r : Record α} {j : Json} {a : α} :
    r.read j = .ok a ↔ ∃ find, Holds r.names j find ∧ r.Gives find a := by
  constructor
  · intro h
    unfold read at h
    split at h
    next members => exact ⟨_, .object members, read_object_eq_ok_iff.mp h⟩
    next items =>
      obtain ⟨hlength, hgives⟩ := read_array_eq_ok_iff.mp h
      exact ⟨_, .array hlength, hgives⟩
    next => cases h
  · rintro ⟨find, hholds, hgives⟩
    cases hholds with
    | object members => exact read_object_eq_ok_iff.mpr hgives
    | array hlength => exact read_array_eq_ok_iff.mpr ⟨hlength, hgives⟩

end AccountTx.Record
