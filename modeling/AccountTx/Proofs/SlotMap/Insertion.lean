import Mathlib.Data.Finset.Card
import AccountTx.Proofs.SlotMap.Search

/-!
Putting values at indices and at slots. A map is determined by what it has at each index, so the
order in which different indices are filled leaves no trace; a map of maps is determined by its
slots as long as no credential is without keys.
-/

namespace AccountTx

namespace IndexMap

variable {α : Type} {m n : IndexMap α}

/-! ### One level -/

theorem lookup_insertEntry {k : UInt8} {v : α} {es : List (UInt8 × α)}
    (h : es.Pairwise fun a b => a.1 < b.1) (i : UInt8) :
    (insertEntry k v es).lookup i = if i = k then some v else es.lookup i := by
  induction es with
  | nil =>
      by_cases hi : i = k
      · simp [insertEntry, hi]
      · have hik : (i == k) = false := by simpa using hi
        simp [insertEntry, List.lookup_cons, hik, hi]
  | cons e es ih =>
      obtain ⟨he, hes⟩ := List.pairwise_cons.mp h
      obtain ⟨j, w⟩ := e
      unfold insertEntry
      by_cases hi : i = k
      · subst hi
        split
        · simp
        · split
          · simp
          next _ hne =>
            have hij : (i == j) = false := by simpa using hne
            rw [List.lookup_cons, hij]
            simpa using ih hes
      · have hik : (i == k) = false := by simpa using hi
        rw [if_neg hi]
        split
        · rw [List.lookup_cons, hik]
        · split
          next _ heq =>
            have hkj : k = j := heq
            rw [List.lookup_cons, List.lookup_cons, ← hkj, hik]
          · rw [List.lookup_cons, List.lookup_cons, ih hes, if_neg hi]

@[simp] theorem get?_insert (m : IndexMap α) (k : UInt8) (v : α) (i : UInt8) :
    (m.insert k v).get? i = if i = k then some v else m.get? i :=
  lookup_insertEntry m.ascending i

@[simp] theorem get?_empty (i : UInt8) : (empty : IndexMap α).get? i = none := rfl

theorem contains_iff {k : UInt8} : m.contains k = true ↔ ∃ v, m.get? k = some v := by
  rw [contains, Option.isSome_iff_exists]

theorem keys_nodup (m : IndexMap α) : m.keys.Nodup := by
  have hlt : m.keys.Pairwise (· < ·) := List.pairwise_map.mpr m.ascending
  exact hlt.imp UInt8.ne_of_lt

theorem mem_keys_iff {k : UInt8} : k ∈ m.keys ↔ m.contains k = true := by
  simp only [contains_iff, get?_eq_some_iff, keys, List.mem_map]
  constructor
  · rintro ⟨⟨_, v⟩, he, rfl⟩
    exact ⟨v, he⟩
  · rintro ⟨v, he⟩
    exact ⟨(k, v), he, rfl⟩

/-- A map has no other indices than a map with as many entries, all of whose indices it has. -/
theorem mem_keys_of_size_eq {β : Type} {n : IndexMap β} (hsubset : n.keys ⊆ m.keys)
    (hsize : m.size = n.size) {k : UInt8} (hk : k ∈ m.keys) : k ∈ n.keys := by
  have hlength : m.keys.length ≤ n.keys.length := by
    rw [keys, keys, List.length_map, List.length_map]
    exact Nat.le_of_eq hsize
  have hperm : n.keys.Perm m.keys :=
    (n.keys_nodup.subperm hsubset).perm_of_length_le hlength
  exact hperm.mem_iff.mpr hk

/-- A map with the indices of a set has as many entries as the set has members. -/
theorem size_eq_card {s : Finset UInt8} (h : ∀ k, m.contains k = true ↔ k ∈ s) :
    m.size = s.card := by
  have hkeys : m.keys.toFinset = s := by
    ext k
    rw [List.mem_toFinset, mem_keys_iff, h]
  rw [← hkeys, List.toFinset_card_of_nodup m.keys_nodup, keys, List.length_map, size]

/-- Maps that agree at every index are the same. -/
theorem ext_get? (h : ∀ k, m.get? k = n.get? k) : m = n := by
  have hnodup (m : IndexMap α) : m.entries.Nodup :=
    m.ascending.imp fun hlt heq => UInt8.ne_of_lt hlt (congrArg Prod.fst heq)
  have hmem (e : UInt8 × α) : e ∈ m.entries ↔ e ∈ n.entries := by
    rw [← get?_eq_some_iff, ← get?_eq_some_iff, h]
  have hperm := (List.perm_ext_iff_of_nodup (hnodup m) (hnodup n)).mpr hmem
  -- two lists in ascending order that are permutations of each other are equal
  refine IndexMap.ext (hperm.eq_of_pairwise ?_ m.ascending n.ascending)
  intro a b _ _ hab hba
  exact absurd hba (UInt8.lt_asymm hab)

/-- Puts values at indices one after the other. -/
def insertAll (es : List (UInt8 × α)) (m : IndexMap α) : IndexMap α :=
  es.foldl (fun m e => m.insert e.1 e.2) m

theorem insertAll_append (es : List (UInt8 × α)) (e : UInt8 × α) (m : IndexMap α) :
    insertAll (es ++ [e]) m = (insertAll es m).insert e.1 e.2 := by
  simp [insertAll]

theorem get?_insertAll_eq_some_iff {es : List (UInt8 × α)} {k : UInt8} {v : α}
    (h : (es.map (·.1)).Nodup) : (insertAll es empty).get? k = some v ↔ (k, v) ∈ es := by
  induction es using List.reverseRecOn with
  | nil => simp [insertAll]
  | append_singleton es e ih =>
      rw [List.map_append, List.nodup_append] at h
      obtain ⟨hnodup, -, hfree⟩ := h
      have hnew : ∀ w, (e.1, w) ∉ es := fun w hmem =>
        hfree e.1 (List.mem_map.mpr ⟨_, hmem, rfl⟩) e.1 List.mem_cons_self rfl
      rw [insertAll_append, get?_insert, List.mem_append, List.mem_singleton]
      split
      next hk =>
        subst hk
        rw [or_iff_right (hnew v), Option.some.injEq, Prod.ext_iff]
        simp [eq_comm]
      next hk =>
        rw [ih hnodup, or_iff_left fun heq => hk (congrArg Prod.fst heq)]

/-- A map is what is made of its entries, in whichever order they come. -/
theorem insertAll_of_perm {es : List (UInt8 × α)} (h : es.Perm m.entries) :
    insertAll es empty = m := by
  refine ext_get? fun k => Option.ext fun v => ?_
  rw [get?_insertAll_eq_some_iff ((h.map _).nodup_iff.mpr m.keys_nodup), h.mem_iff,
    get?_eq_some_iff]

end IndexMap

namespace SlotMap

variable {α : Type} {m n : SlotMap α}

/-! ### Two levels -/

@[simp] theorem find?_empty (credential key : UInt8) :
    find? (.empty : SlotMap α) credential key = none := rfl

@[simp] theorem find?_put (m : SlotMap α) (credential key : UInt8) (v : α) (c k : UInt8) :
    find? (put m credential key v) c k =
      if c = credential ∧ k = key then some v else find? m c k := by
  simp only [find?, put, IndexMap.get?_insert]
  by_cases hc : c = credential
  · subst hc
    by_cases hk : k = key
    · simp [hk]
    · cases hkeys : m.get? c <;> simp [hk]
  · simp [hc]

/-- The indices of the credentials that have a key. -/
theorem contains_iff (hkeys : ∀ e ∈ m.entries, 0 < e.2.size) {credential : UInt8} :
    m.contains credential = true ↔ ∃ key v, find? m credential key = some v := by
  simp only [IndexMap.contains_iff, IndexMap.get?_eq_some_iff, find?_eq_some_iff]
  constructor
  · rintro ⟨keys, hmem⟩
    obtain ⟨⟨key, v⟩, hv⟩ := List.exists_mem_of_length_pos (hkeys _ hmem)
    exact ⟨key, v, keys, hmem, hv⟩
  · rintro ⟨key, v, keys, hmem, -⟩
    exact ⟨keys, hmem⟩

/-- Maps of maps are the same if they have the same credentials and agree at every slot. -/
theorem ext_find?_of_contains
    (hcontains : ∀ credential, m.contains credential = n.contains credential)
    (h : ∀ credential key, find? m credential key = find? n credential key) : m = n := by
  refine IndexMap.ext_get? fun credential => ?_
  have hcredential := hcontains credential
  cases hkeys : m.get? credential with
  | none =>
      rw [IndexMap.contains, IndexMap.contains, hkeys, Option.isSome_none] at hcredential
      exact (Option.isNone_iff_eq_none.mp (Option.isSome_eq_false_iff.mp hcredential.symm)).symm
  | some keys =>
      rw [IndexMap.contains, IndexMap.contains, hkeys] at hcredential
      obtain ⟨keys', hkeys'⟩ := Option.isSome_iff_exists.mp hcredential.symm
      rw [hkeys', Option.some.injEq]
      refine IndexMap.ext_get? fun key => ?_
      have hslot := h credential key
      rwa [find?, find?, hkeys, hkeys'] at hslot

/-- Maps of maps that agree at every slot are the same, if no credential of either is without
keys. -/
theorem ext_find? (hm : ∀ e ∈ m.entries, 0 < e.2.size) (hn : ∀ e ∈ n.entries, 0 < e.2.size)
    (h : ∀ credential key, find? m credential key = find? n credential key) : m = n := by
  refine ext_find?_of_contains (fun credential => ?_) h
  rw [Bool.eq_iff_iff, contains_iff hm, contains_iff hn]
  simp only [h]

/-- A credential without keys would show in the number of credentials. -/
theorem ext_find?_of_size_eq (hn : ∀ e ∈ n.entries, 0 < e.2.size) (hsize : m.size = n.size)
    (h : ∀ credential key, find? m credential key = find? n credential key) : m = n := by
  have hsubset : n.keys ⊆ m.keys := by
    intro credential hmem
    rw [IndexMap.mem_keys_iff, contains_iff hn] at hmem
    obtain ⟨key, v, hv⟩ := hmem
    rw [← h] at hv
    obtain ⟨keys, hkeys, -⟩ := find?_eq_some_iff.mp hv
    exact List.mem_map.mpr ⟨_, hkeys, rfl⟩
  refine ext_find? (fun e he => ?_) hn h
  -- the credential of `e` is one of `n`, where it has a key, and so it has the key in `m`
  have hmem : e.1 ∈ n.keys :=
    IndexMap.mem_keys_of_size_eq hsubset hsize (List.mem_map.mpr ⟨e, he, rfl⟩)
  rw [IndexMap.mem_keys_iff, contains_iff hn] at hmem
  obtain ⟨key, v, hv⟩ := hmem
  rw [← h] at hv
  obtain ⟨keys, hkeys, hkey⟩ := find?_eq_some_iff.mp hv
  obtain rfl : keys = e.2 := IndexMap.eq_of_mem hkeys he
  exact List.length_pos_of_mem hkey

end SlotMap

end AccountTx
