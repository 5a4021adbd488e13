import Mathlib.Algebra.Order.BigOperators.Group.List
import Mathlib.Algebra.Order.Ring.Nat
import AccountTx.IndexMap
import AccountTx.Limits

/-!
Looking up slots, and counting them. Since the indices of a map ascend, a lookup finds the one entry
with its index, so that a slot has a value exactly if the entries say so.
-/

namespace AccountTx

theorem total_eq_zero_iff {ns : List Nat} : total ns = 0 ↔ ∀ n ∈ ns, n = 0 :=
  List.sum_eq_zero_iff

theorem total_le {ns : List Nat} {bound : Nat} (h : ∀ n ∈ ns, n ≤ bound) :
    total ns ≤ ns.length * bound :=
  List.sum_le_card_nsmul ns bound h

namespace IndexMap

variable {α β : Type}

theorem get?_eq_some_iff {m : IndexMap α} {k : UInt8} {v : α} :
    m.get? k = some v ↔ (k, v) ∈ m.entries := by
  rw [get?, List.lookup_eq_some_iff]
  constructor
  · rintro ⟨before, after, heq, -⟩
    simp [heq]
  · intro h
    obtain ⟨before, after, heq⟩ := List.append_of_mem h
    refine ⟨before, after, heq, fun e he => ?_⟩
    have hasc := m.ascending
    rw [heq, List.pairwise_append] at hasc
    have hlt : e.1 < k := hasc.2.2 e he (k, v) List.mem_cons_self
    simpa using (UInt8.ne_of_lt hlt).symm

end IndexMap

namespace SlotMap

variable {α β : Type}

theorem find?_eq_some_iff {m : SlotMap α} {credential key : UInt8} {v : α} :
    find? m credential key = some v ↔
      ∃ keys, (credential, keys) ∈ m.entries ∧ (key, v) ∈ keys.entries := by
  simp only [find?, Option.bind_eq_some_iff, IndexMap.get?_eq_some_iff]

/-- The entries of both levels are the slots that a lookup finds. -/
theorem forall_entries_iff {m : SlotMap α} {p : UInt8 → UInt8 → α → Prop} :
    (∀ c ∈ m.entries, ∀ k ∈ c.2.entries, p c.1 k.1 k.2) ↔
      ∀ credential key v, find? m credential key = some v → p credential key v := by
  simp only [find?_eq_some_iff]
  constructor
  · rintro h credential key v ⟨keys, hc, hk⟩
    exact h (credential, keys) hc (key, v) hk
  · rintro h ⟨credential, keys⟩ hc ⟨key, v⟩ hk
    exact h credential key v ⟨keys, hc, hk⟩

theorem find?_mapValues_eq_some_iff {f : α → β} {m : SlotMap α} {credential key : UInt8} {w : β} :
    find? (mapValues f m) credential key = some w ↔
      ∃ v, find? m credential key = some v ∧ f v = w := by
  simp only [find?_eq_some_iff, mapValues, IndexMap.entries_map, List.mem_map, Prod.mk.injEq]
  constructor
  · rintro ⟨_, ⟨e, he, rfl, rfl⟩, hk⟩
    simp only [IndexMap.entries_map, List.mem_map, Prod.mk.injEq] at hk
    obtain ⟨k, hk, rfl, rfl⟩ := hk
    exact ⟨k.2, ⟨e.2, he, hk⟩, rfl⟩
  · rintro ⟨v, ⟨keys, hkeys, hv⟩, rfl⟩
    refine ⟨keys.map f, ⟨(credential, keys), hkeys, rfl, rfl⟩, ?_⟩
    rw [IndexMap.entries_map]
    exact List.mem_map.mpr ⟨(key, v), hv, rfl⟩

@[simp] theorem count_mapValues (f : α → β) (m : SlotMap α) : count (mapValues f m) = count m := by
  simp [count, mapValues, Function.comp_def]

@[simp] theorem slots_mapValues (f : α → β) (m : SlotMap α) : slots (mapValues f m) = slots m := by
  simp [slots, mapValues, IndexMap.keys, List.flatMap_map, Function.comp_def]

/-- With at most `n` credentials of at most `n` keys there are no more than `n * n` slots. -/
theorem count_le {m : SlotMap α} {n : Nat} (hsize : m.size ≤ n)
    (hkeys : ∀ e ∈ m.entries, e.2.size ≤ n) : count m ≤ n * n := by
  have hsum : count m ≤ m.size * n := by
    rw [count, IndexMap.size, ← List.length_map]
    refine total_le fun k hk => ?_
    obtain ⟨e, he, rfl⟩ := List.mem_map.mp hk
    exact hkeys e he
  exact hsum.trans (Nat.mul_le_mul_right n hsize)

/-- Two full levels of 255 entries are far from what is lost in a 32-bit number. -/
theorem toNat_ofNat_count {m : SlotMap α} (hsize : m.size ≤ Limits.maxSigners)
    (hkeys : ∀ e ∈ m.entries, e.2.size ≤ Limits.maxSigners) :
    (UInt32.ofNat (count m)).toNat = count m := by
  have hle : count m ≤ Limits.maxSigners * Limits.maxSigners := count_le hsize hkeys
  have hmax : Limits.maxSigners * Limits.maxSigners < UInt32.size := by decide
  exact UInt32.toNat_ofNat_of_lt' (Nat.lt_of_le_of_lt hle hmax)

theorem count_eq_zero_iff {m : SlotMap α} :
    count m = 0 ↔ ∀ credential key, find? m credential key = none := by
  rw [count, total_eq_zero_iff]
  constructor
  · intro hzero credential key
    rw [Option.eq_none_iff_forall_ne_some]
    intro v hv
    obtain ⟨keys, hkeys, hmem⟩ := find?_eq_some_iff.mp hv
    have hsize : keys.size = 0 := hzero _ (List.mem_map.mpr ⟨_, hkeys, rfl⟩)
    exact List.not_mem_nil (List.eq_nil_of_length_eq_zero hsize ▸ hmem)
  · intro hnone n hn
    obtain ⟨e, he, rfl⟩ := List.mem_map.mp hn
    by_contra hpos
    obtain ⟨v, hv⟩ := List.exists_mem_of_length_pos (Nat.pos_of_ne_zero hpos)
    have hsome : find? m e.1 v.1 = some v.2 := find?_eq_some_iff.mpr ⟨e.2, he, hv⟩
    rw [hnone] at hsome
    cases hsome

end SlotMap

end AccountTx
