import Mathlib.Data.List.Nodup
import AccountTx.Json.Parse

/-!
The names in documents that are read as they are spelled. Two spellings are the same name if they
stand for the same text; a document without repeated names has one value at most for each of them.
-/

namespace AccountTx.Json

/-- The values of the members with a name. -/
def named (name : String) : Document → List Document
  | .object members => (members.filter fun m => m.1.text? = some name).map (·.2)
  | _ => []

/-- The values of all members. -/
def children : Document → List Document
  | .object members => members.map (·.2)
  | _ => []

def isNoArray : Document → Bool
  | .array _ => false
  | _ => true

/-- The names of an object all stand for texts. -/
def hasTexts : Document → Bool
  | .object members => members.all fun m => m.1.text?.isSome
  | _ => false

mutual

/-- No object of the document has two members of the same name. -/
def isDistinct : Document → Bool
  | .array items => areDistinct items
  | .object members =>
      decide (members.filterMap fun m => m.1.text?).Nodup && membersDistinct members
  | _ => true

def areDistinct : List Document → Bool
  | [] => true
  | d :: ds => isDistinct d && areDistinct ds

def membersDistinct : List (Spelling × Document) → Bool
  | [] => true
  | (_, d) :: ds => isDistinct d && membersDistinct ds

end

theorem membersDistinct_iff {members : List (Spelling × Document)} :
    membersDistinct members = true ↔ ∀ m ∈ members, isDistinct m.2 = true := by
  induction members with
  | nil => simp [membersDistinct]
  | cons m members ih => simp [membersDistinct, ih]

theorem isDistinct_object {members : List (Spelling × Document)} :
    isDistinct (.object members) = true ↔
      (members.filterMap fun m => m.1.text?).Nodup ∧ ∀ m ∈ members, isDistinct m.2 = true := by
  rw [isDistinct, Bool.and_eq_true, decide_eq_true_eq, membersDistinct_iff]

theorem mem_named_iff {name : String} {members : List (Spelling × Document)} {d : Document} :
    d ∈ named name (.object members) ↔ ∃ s, s.text? = some name ∧ (s, d) ∈ members := by
  simp only [named, List.mem_map, List.mem_filter, decide_eq_true_eq]
  constructor
  · rintro ⟨⟨s, d⟩, ⟨hmem, hname⟩, rfl⟩
    exact ⟨s, hname, hmem⟩
  · rintro ⟨s, hname, hmem⟩
    exact ⟨(s, d), ⟨hmem, hname⟩, rfl⟩

theorem isDistinct_of_mem_children {d x : Document} (h : isDistinct d = true)
    (hx : x ∈ children d) : isDistinct x = true := by
  cases d with
  | object members =>
      obtain ⟨m, hm, rfl⟩ := List.mem_map.mp hx
      exact (isDistinct_object.mp h).2 m hm
  | _ => exact absurd hx List.not_mem_nil

theorem mem_children_of_mem_named {name : String} {d x : Document} (h : x ∈ named name d) :
    x ∈ children d := by
  cases d with
  | object members =>
      obtain ⟨s, -, hmem⟩ := mem_named_iff.mp h
      exact List.mem_map.mpr ⟨(s, x), hmem, rfl⟩
  | _ => exact absurd h List.not_mem_nil

theorem isDistinct_of_mem_named {name : String} {d x : Document} (h : isDistinct d = true)
    (hx : x ∈ named name d) : isDistinct x = true :=
  isDistinct_of_mem_children h (mem_children_of_mem_named hx)

/-- A name that is not repeated has one value at most. -/
theorem length_named_le {name : String} {d : Document} (h : isDistinct d = true) :
    (named name d).length ≤ 1 := by
  cases d with
  | object members =>
      have hnodup := (isDistinct_object.mp h).1
      have hcount : (named name (.object members)).length =
          (members.filterMap fun m => m.1.text?).count name := by
        rw [named, List.length_map, List.count_filterMap, List.countP_eq_length_filter]
        congr 2
        funext m
        exact (beq_eq_decide _ _).symm
      rw [hcount]
      exact List.nodup_iff_count_le_one.mp hnodup name
  | _ => exact Nat.zero_le 1

theorem named_eq_singleton_iff {name : String} {d x : Document} (h : isDistinct d = true) :
    named name d = [x] ↔ x ∈ named name d := by
  have hle : (named name d).length ≤ 1 := length_named_le h
  constructor
  · intro heq
    rw [heq]
    exact List.mem_singleton_self x
  · intro hx
    obtain ⟨y, hy⟩ := List.length_eq_one_iff.mp (Nat.le_antisymm hle (List.length_pos_of_mem hx))
    rw [hy] at hx ⊢
    rw [List.mem_singleton.mp hx]

end AccountTx.Json
