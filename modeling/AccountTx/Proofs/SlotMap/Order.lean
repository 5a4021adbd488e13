import AccountTx.Proofs.SlotMap.Search

/-!
The slots of a map, one after the other. They stand in ascending order, none of them twice, and they
are the slots that a lookup finds.
-/

namespace AccountTx.SlotMap

variable {α : Type}

theorem mem_slots_iff {m : SlotMap α} {credential key : UInt8} :
    (credential, key) ∈ slots m ↔ ∃ v, find? m credential key = some v := by
  simp only [slots, IndexMap.keys, List.mem_flatMap, List.map_map, List.mem_map, find?_eq_some_iff]
  constructor
  · rintro ⟨c, hc, k, hk, heq⟩
    cases heq
    exact ⟨k.2, c.2, hc, hk⟩
  · rintro ⟨v, keys, hc, hk⟩
    exact ⟨(credential, keys), hc, (key, v), hk, rfl⟩

theorem slots_pairwise (m : SlotMap α) :
    (slots m).Pairwise fun a b => Precedes a.1 a.2 b.1 b.2 := by
  rw [slots, List.pairwise_flatMap]
  constructor
  · intro c _
    simp only [IndexMap.keys, List.map_map, List.pairwise_map]
    exact c.2.ascending.imp fun hlt => .inr ⟨rfl, hlt⟩
  · refine m.ascending.imp fun hlt a ha b hb => .inl ?_
    obtain ⟨k, -, rfl⟩ := List.mem_map.mp ha
    obtain ⟨k', -, rfl⟩ := List.mem_map.mp hb
    exact hlt

theorem not_precedes_self {credential key : UInt8} :
    ¬ Precedes credential key credential key := by
  rintro (hlt | ⟨-, hlt⟩)
  · exact UInt8.lt_irrefl _ hlt
  · exact UInt8.lt_irrefl _ hlt

theorem slots_nodup (m : SlotMap α) : (slots m).Nodup := by
  refine (slots_pairwise m).imp fun hprecedes heq => ?_
  rw [heq] at hprecedes
  exact not_precedes_self hprecedes

theorem Precedes.asymm {a b : UInt8 × UInt8} (h : Precedes a.1 a.2 b.1 b.2) :
    ¬ Precedes b.1 b.2 a.1 a.2 := by
  rintro (hlt' | ⟨heq', hlt'⟩)
  · rcases h with hlt | ⟨heq, -⟩
    · exact UInt8.lt_asymm hlt hlt'
    · exact UInt8.ne_of_lt hlt' heq.symm
  · rcases h with hlt | ⟨-, hlt⟩
    · exact UInt8.ne_of_lt hlt heq'.symm
    · exact UInt8.lt_asymm hlt hlt'

/-- Maps with the same slots list them alike. -/
theorem slots_congr {β : Type} {m : SlotMap α} {n : SlotMap β}
    (h : ∀ slot, slot ∈ slots m ↔ slot ∈ slots n) : slots m = slots n := by
  have hperm := (List.perm_ext_iff_of_nodup (slots_nodup m) (slots_nodup n)).mpr h
  refine hperm.eq_of_pairwise (fun a b _ _ hab hba => ?_) (slots_pairwise m) (slots_pairwise n)
  exact absurd hba hab.asymm

theorem length_slots (m : SlotMap α) : (slots m).length = count m := by
  rw [slots, count, total, List.length_flatMap]
  simp [IndexMap.keys, IndexMap.size, List.sum]

end AccountTx.SlotMap
