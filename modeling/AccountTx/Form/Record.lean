import AccountTx.Form.Error
import AccountTx.Json.Basic

/-!
Types with a form in JSON, and records, whose form is an object with a member for each part. All
parts of a record are read, and the first fault is reported: in an object by the order of the names,
in an array, which holds the parts without their names, by position. A part that is missing counts
only if the others are right, and members that are no part are ignored.
-/

namespace AccountTx

class JsonForm (α : Type) where
  toJson : α → Json
  ofJson : Json → Except FormError α

export JsonForm (toJson ofJson)

/-- What has been read of the parts of a record: the faults, by name, and the record if every part
is there and right. -/
structure Parts (α : Type) where
  faults : List (String × FormError)
  value? : Option α

namespace Parts

def result {α : Type} (p : Parts α) : Except FormError α :=
  match p.faults, p.value? with
  | (_, e) :: _, _ => .error e
  | [], some a => .ok a
  | [], none => .error .shape

/-- The same parts with the faults in the order of the names. -/
def byName {α : Type} (p : Parts α) : Parts α :=
  { p with faults := p.faults.mergeSort fun a b => decide (a.1 ≤ b.1) }

/-- The same faults without a record. -/
def incomplete {α : Type} (p : Parts α) : Parts α := { p with value? := none }

end Parts

/-- How a record is read, given the documents that belong to the names of its parts. -/
structure Record (α : Type) where
  names : List String
  parts : (String → Option Json) → Parts α

namespace Record

def field {α : Type} (name : String) (read : Json → Except FormError α) : Record α where
  names := [name]
  parts find :=
    match (find name).map read with
    | none => ⟨[], none⟩
    | some (.ok a) => ⟨[], some a⟩
    | some (.error e) => ⟨[(name, e)], none⟩

/-- A part whose type has a form. -/
def part {α : Type} [JsonForm α] (name : String) : Record α := field name ofJson

instance : Applicative Record where
  pure a := ⟨[], fun _ => ⟨[], some a⟩⟩
  seq f x :=
    { names := f.names ++ (x ()).names
      parts := fun find =>
        let g := f.parts find
        let y := (x ()).parts find
        ⟨g.faults ++ y.faults, g.value?.bind fun h => y.value?.map h⟩ }

variable {α : Type} (r : Record α)

def ofMembers (members : List (String × Json)) : Except FormError α :=
  (r.parts fun name => Json.member? name members).byName.result

def ofItems (items : List Json) : Except FormError α :=
  let parts := r.parts fun name => (r.names.zip items).lookup name
  if items.length ≤ r.names.length then parts.result else parts.incomplete.result

def read : Json → Except FormError α
  | .object members => r.ofMembers members
  | .array items => r.ofItems items
  | _ => .error .shape

end Record

end AccountTx
