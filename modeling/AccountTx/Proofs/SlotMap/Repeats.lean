import AccountTx.Proofs.SlotMap.Insertion

/-!
Entries that repeat an index. Of those with one index the last takes the place of the others, so a
list of entries fills a map with its lasting ones, and the map has an entry for each of these.
-/

namespace AccountTx.IndexMap

variable {α β : Type}

/-- The entries without those that a later one of the same index takes the place of. -/
def lasting : List (UInt8 × α) → List (UInt8 × α)
  | [] => []
  | e :: es => if e.1 ∈ es.map (·.1) then lasting es else e :: lasting es

theorem keys_map (f : α → β) (es : List (UInt8 × α)) :
    (es.map fun e => (e.1, f e.2)).map (·.1) = es.map (·.1) := by
  rw [List.map_map]
  rfl

theorem lasting_sublist (es : List (UInt8 × α)) : (lasting es).Sublist es := by
  induction es with
  | nil => exact .slnil
  | cons e es ih =>
      rw [lasting]
      split
      · exact ih.cons e
      · exact ih.cons_cons e

theorem lasting_keys_nodup (es : List (UInt8 × α)) : ((lasting es).map (·.1)).Nodup := by
  induction es with
  | nil => exact .nil
  | cons e es ih =>
      rw [lasting]
      split
      · exact ih
      next hnew =>
        rw [List.map_cons, List.nodup_cons]
        exact ⟨fun hmem => hnew (((lasting_sublist es).map _).subset hmem), ih⟩

theorem lasting_eq_self {es : List (UInt8 × α)} (h : (es.map (·.1)).Nodup) : lasting es = es := by
  induction es with
  | nil => rfl
  | cons e es ih =>
      rw [List.map_cons, List.nodup_cons] at h
      rw [lasting, if_neg h.1, ih h.2]

theorem lasting_map (f : α → β) (es : List (UInt8 × α)) :
    lasting (es.map fun e => (e.1, f e.2)) = (lasting es).map fun e => (e.1, f e.2) := by
  induction es with
  | nil => rfl
  | cons e es ih =>
      rw [List.map_cons, lasting, lasting, keys_map, ih]
      split <;> rfl

/-! ### Filling a map -/

theorem get?_insertAll_empty (es : List (UInt8 × α)) (k : UInt8) :
    (insertAll es empty).get? k = es.reverse.lookup k := by
  induction es using List.reverseRecOn with
  | nil => rfl
  | append_singleton es e ih =>
      rw [insertAll_append, get?_insert, ih, List.reverse_append, List.reverse_singleton,
        List.singleton_append, List.lookup_cons]
      by_cases hk : k = e.1
      · simp [hk]
      · have hne : (k == e.1) = false := by simpa using hk
        rw [if_neg hk, hne]

theorem lookup_reverse_eq_none_iff {es : List (UInt8 × α)} {k : UInt8} :
    es.reverse.lookup k = none ↔ k ∉ es.map (·.1) := by
  rw [List.lookup_eq_none_iff]
  simp only [List.mem_reverse, bne_iff_ne, List.mem_map, not_exists, not_and]
  exact forall₂_congr fun e _ => ne_comm

/-- The lasting entries are those that a search from the end finds. -/
theorem mem_lasting_iff {es : List (UInt8 × α)} {k : UInt8} {v : α} :
    (k, v) ∈ lasting es ↔ es.reverse.lookup k = some v := by
  induction es with
  | nil => simp [lasting]
  | cons e es ih =>
      have hkeys : es.reverse.lookup k = none ↔ k ∉ es.map (·.1) := lookup_reverse_eq_none_iff
      rw [List.reverse_cons, List.lookup_append, lasting]
      by_cases hk : k = e.1
      · subst hk
        split
        next hmem =>
          -- a later entry has the index, so `e` does not count
          obtain ⟨w, hw⟩ := Option.ne_none_iff_exists'.mp fun hnone => hkeys.mp hnone hmem
          rw [ih, hw, Option.some_or]
        next hnew =>
          have hold : (e.1, v) ∉ lasting es := fun hmem =>
            hnew (List.mem_map.mpr ⟨_, (lasting_sublist es).subset hmem, rfl⟩)
          rw [hkeys.mpr hnew, Option.none_or, List.mem_cons, or_iff_left hold]
          obtain ⟨i, x⟩ := e
          simp [eq_comm]
      · have hne : (k == e.1) = false := by simpa using hk
        have hlookup : [e].lookup k = none := by rw [List.lookup_cons, hne]; rfl
        rw [hlookup, Option.or_none, ← ih]
        split
        · rfl
        · rw [List.mem_cons, or_iff_right fun heq => hk (congrArg Prod.fst heq)]

example : lasting [(1, 'a'), (2, 'b'), (1, 'c')] = [(2, 'b'), (1, 'c')] := by decide

/-- A map that was filled has the lasting entries, in ascending order. -/
theorem lasting_perm (es : List (UInt8 × α)) : (lasting es).Perm (insertAll es empty).entries := by
  have hnodup : (lasting es).Nodup := (lasting_keys_nodup es).of_map _
  have hentries : (insertAll es empty).entries.Nodup := (insertAll es empty).keys_nodup.of_map _
  refine (List.perm_ext_iff_of_nodup hnodup hentries).mpr fun e => ?_
  rw [← get?_eq_some_iff, get?_insertAll_empty, ← mem_lasting_iff]

/-- Entries without a repeated index are those of the map that they fill. -/
theorem perm_of_nodup {es : List (UInt8 × α)} (h : (es.map (·.1)).Nodup) :
    es.Perm (insertAll es empty).entries := by
  have hperm := lasting_perm es
  rwa [lasting_eq_self h] at hperm

theorem insertAll_lasting (es : List (UInt8 × α)) :
    insertAll (lasting es) empty = insertAll es empty :=
  insertAll_of_perm (lasting_perm es)

/-! ### Values computed from others -/

theorem get?_map (f : α → β) (m : IndexMap α) (k : UInt8) :
    (m.map f).get? k = (m.get? k).map f := by
  ext w
  rw [get?_eq_some_iff, Option.map_eq_some_iff, entries_map, List.mem_map]
  constructor
  · rintro ⟨⟨i, v⟩, hmem, heq⟩
    cases heq
    exact ⟨v, get?_eq_some_iff.mpr hmem, rfl⟩
  · rintro ⟨v, hv, rfl⟩
    exact ⟨(k, v), get?_eq_some_iff.mp hv, rfl⟩

theorem map_insert (f : α → β) (m : IndexMap α) (k : UInt8) (v : α) :
    (m.insert k v).map f = (m.map f).insert k (f v) := by
  refine ext_get? fun i => ?_
  rw [get?_map, get?_insert, get?_insert, get?_map]
  split <;> rfl

theorem map_insertAll (f : α → β) (es : List (UInt8 × α)) (m : IndexMap α) :
    (insertAll es m).map f = insertAll (es.map fun e => (e.1, f e.2)) (m.map f) := by
  induction es generalizing m with
  | nil => rfl
  | cons e es ih =>
      rw [insertAll, List.foldl_cons]
      exact (ih (m.insert e.1 e.2)).trans (by rw [map_insert]; rfl)

end AccountTx.IndexMap
