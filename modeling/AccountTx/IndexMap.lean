/-!
Maps whose keys are one-byte indices, kept as the list of their entries in ascending order of the
keys, and such maps of such maps.
-/

namespace AccountTx

@[ext] structure IndexMap (α : Type) where
  entries : List (UInt8 × α)
  ascending : entries.Pairwise (fun a b => a.1 < b.1)
  deriving DecidableEq

namespace IndexMap

variable {α β : Type}

def empty : IndexMap α := ⟨[], .nil⟩

def size (m : IndexMap α) : Nat := m.entries.length

def keys (m : IndexMap α) : List UInt8 := m.entries.map (·.1)

def get? (m : IndexMap α) (k : UInt8) : Option α := m.entries.lookup k

def contains (m : IndexMap α) (k : UInt8) : Bool := (m.get? k).isSome

def map (f : α → β) (m : IndexMap α) : IndexMap β :=
  ⟨m.entries.map fun e => (e.1, f e.2), List.pairwise_map.mpr m.ascending⟩

/-- Puts `v` at the index `k`, in place of what is there. -/
def insertEntry (k : UInt8) (v : α) : List (UInt8 × α) → List (UInt8 × α)
  | [] => [(k, v)]
  | e :: es =>
      if k < e.1 then (k, v) :: e :: es
      else if k = e.1 then (k, v) :: es
      else e :: insertEntry k v es

theorem mem_insertEntry {k : UInt8} {v : α} {es : List (UInt8 × α)} {e : UInt8 × α}
    (h : e ∈ insertEntry k v es) : e = (k, v) ∨ e ∈ es := by
  induction es with
  | nil => simpa [insertEntry] using h
  | cons e' es ih =>
      unfold insertEntry at h
      split at h
      · simpa using h
      · split at h
        · rcases List.mem_cons.mp h with h | h
          · exact .inl h
          · exact .inr (List.mem_cons_of_mem _ h)
        · rcases List.mem_cons.mp h with h | h
          · exact .inr (h ▸ List.mem_cons_self)
          · exact (ih h).imp_right (List.mem_cons_of_mem _)

theorem insertEntry_ne_nil (k : UInt8) (v : α) (es : List (UInt8 × α)) :
    insertEntry k v es ≠ [] := by
  cases es with
  | nil => simp [insertEntry]
  | cons e es =>
      unfold insertEntry
      split
      · simp
      · split <;> simp

theorem pairwise_insertEntry (k : UInt8) (v : α) {es : List (UInt8 × α)}
    (h : es.Pairwise fun a b => a.1 < b.1) :
    (insertEntry k v es).Pairwise fun a b => a.1 < b.1 := by
  induction es with
  | nil => simp [insertEntry]
  | cons e es ih =>
      obtain ⟨he, hes⟩ := List.pairwise_cons.mp h
      unfold insertEntry
      split
      next hlt =>
        refine List.pairwise_cons.mpr ⟨fun b hb => ?_, h⟩
        rcases List.mem_cons.mp hb with rfl | hb
        · exact hlt
        · exact UInt8.lt_trans hlt (he b hb)
      next hle =>
        split
        next heq => exact List.pairwise_cons.mpr ⟨fun b hb => heq ▸ he b hb, hes⟩
        next hne =>
          refine List.pairwise_cons.mpr ⟨fun b hb => ?_, ih hes⟩
          rcases mem_insertEntry hb with rfl | hb
          · exact UInt8.lt_of_le_of_ne (UInt8.not_lt.mp hle) (Ne.symm hne)
          · exact he b hb

def insert (m : IndexMap α) (k : UInt8) (v : α) : IndexMap α :=
  ⟨insertEntry k v m.entries, pairwise_insertEntry k v m.ascending⟩

/-- All indices of the map are below `k`. -/
def Below (m : IndexMap α) (k : UInt8) : Prop := ∀ e ∈ m.entries, e.1 < k

instance (m : IndexMap α) (k : UInt8) : Decidable (m.Below k) :=
  inferInstanceAs (Decidable (∀ e ∈ m.entries, e.1 < k))

/-- Adds an index above all others. -/
def push (m : IndexMap α) (k : UInt8) (v : α) (h : m.Below k) : IndexMap α :=
  ⟨m.entries ++ [(k, v)], by
    refine List.pairwise_append.mpr ⟨m.ascending, by simp, fun a ha b hb => ?_⟩
    rw [List.mem_singleton.mp hb]
    exact h a ha⟩

@[simp] theorem size_empty : (empty : IndexMap α).size = 0 := rfl

@[simp] theorem entries_empty : (empty : IndexMap α).entries = [] := rfl

theorem forall_mem_empty {p : UInt8 × α → Prop} : ∀ e ∈ (empty : IndexMap α).entries, p e :=
  fun _ h => absurd h List.not_mem_nil

@[simp] theorem entries_map (f : α → β) (m : IndexMap α) :
    (m.map f).entries = m.entries.map fun e => (e.1, f e.2) := rfl

@[simp] theorem size_map (f : α → β) (m : IndexMap α) : (m.map f).size = m.size := by
  simp [size]

@[simp] theorem entries_push (m : IndexMap α) (k : UInt8) (v : α) (h : m.Below k) :
    (m.push k v h).entries = m.entries ++ [(k, v)] := rfl

@[simp] theorem size_push (m : IndexMap α) (k : UInt8) (v : α) (h : m.Below k) :
    (m.push k v h).size = m.size + 1 := by
  simp [size]

theorem mem_insert {m : IndexMap α} {k : UInt8} {v : α} {e : UInt8 × α}
    (h : e ∈ (m.insert k v).entries) : e = (k, v) ∨ e ∈ m.entries :=
  mem_insertEntry h

theorem size_insert_pos (m : IndexMap α) (k : UInt8) (v : α) : 0 < (m.insert k v).size :=
  List.length_pos_iff.mpr (insertEntry_ne_nil k v m.entries)

theorem lookup_eq_none_of_forall {es : List (UInt8 × α)} {k : UInt8}
    (h : ∀ e ∈ es, e.1 ≠ k) : es.lookup k = none := by
  simpa [List.lookup_eq_none_iff] using fun a b hab heq => h (a, b) hab heq.symm

theorem length_insertEntry (k : UInt8) (v : α) {es : List (UInt8 × α)}
    (h : es.Pairwise fun a b => a.1 < b.1) :
    (insertEntry k v es).length = if (es.lookup k).isSome then es.length else es.length + 1 := by
  induction es with
  | nil => simp [insertEntry]
  | cons e es ih =>
      obtain ⟨he, hes⟩ := List.pairwise_cons.mp h
      obtain ⟨i, x⟩ := e
      unfold insertEntry
      split
      next hlt =>
        have hnone : ((i, x) :: es).lookup k = none := by
          refine lookup_eq_none_of_forall fun e he' => ?_
          rcases List.mem_cons.mp he' with rfl | he'
          · exact (UInt8.ne_of_lt hlt).symm
          · exact (UInt8.ne_of_lt (UInt8.lt_trans hlt (he e he'))).symm
        rw [hnone]
        simp
      next hle =>
        split
        next heq =>
          have heq' : k = i := heq
          simp [heq']
        next hne =>
          have hne' : (k == i) = false := by simpa using hne
          simp only [List.length_cons, List.lookup_cons, hne', ih hes]
          split <;> simp_all

theorem size_insert (m : IndexMap α) (k : UInt8) (v : α) :
    (m.insert k v).size = if m.contains k then m.size else m.size + 1 :=
  length_insertEntry k v m.ascending

/-- Applies `f` to the values in ascending order of their indices, up to the first that fails. -/
def traverseEntries {ε : Type} (f : α → Except ε β) : (es : List (UInt8 × α)) →
    Except ε { fs : List (UInt8 × β) // fs.map (·.1) = es.map (·.1) }
  | [] => .ok ⟨[], rfl⟩
  | e :: es => do
      let v ← f e.2
      let rest ← traverseEntries f es
      return ⟨(e.1, v) :: rest.1, by simp [rest.2]⟩

def traverse {ε : Type} (f : α → Except ε β) (m : IndexMap α) : Except ε (IndexMap β) := do
  let es ← traverseEntries f m.entries
  return ⟨es.1, by
    have h := List.pairwise_map.mpr m.ascending
    rw [← es.2] at h
    exact List.pairwise_map.mp h⟩

end IndexMap

/-- The sum of a list of numbers. -/
def total (ns : List Nat) : Nat := ns.foldr (· + ·) 0

/-- A map from the indices of an account's credentials and, within each, of its keys. -/
abbrev SlotMap (α : Type) := IndexMap (IndexMap α)

namespace SlotMap

variable {α β : Type}

/-- The number of keys of all credentials together. -/
def count (m : SlotMap α) : Nat := total (m.entries.map fun e => e.2.size)

/-- The slots in ascending order of the credential and, within one, of the key. -/
def slots (m : SlotMap α) : List (UInt8 × UInt8) :=
  m.entries.flatMap fun e => e.2.keys.map fun k => (e.1, k)

def find? (m : SlotMap α) (credential key : UInt8) : Option α :=
  (m.get? credential).bind fun keys => keys.get? key

def mapValues (f : α → β) (m : SlotMap α) : SlotMap β := IndexMap.map (IndexMap.map f) m

/-- Puts a value at a slot; a credential that is not there yet is added. -/
def put (m : SlotMap α) (credential key : UInt8) (v : α) : SlotMap α :=
  m.insert credential (((m.get? credential).getD .empty).insert key v)

end SlotMap

end AccountTx
