import AccountTx.Proofs.SlotMap.Lookup

/-!
Searching the slots of a map in ascending order, by credential and, within one credential, by key.
A search that goes through the entries of both levels and stops at its first hit finds the least of
the slots that have what is looked for.
-/

namespace AccountTx

namespace IndexMap

variable {α β : Type}

theorem eq_of_mem {m : IndexMap α} {k : UInt8} {v w : α} (hv : (k, v) ∈ m.entries)
    (hw : (k, w) ∈ m.entries) : v = w := by
  rw [← get?_eq_some_iff] at hv hw
  rw [hv] at hw
  exact Option.some.inj hw

theorem findSome?_congr {es : List (UInt8 × α)} {f g : UInt8 × α → Option β}
    (h : ∀ e ∈ es, f e = g e) : es.findSome? f = es.findSome? g := by
  induction es with
  | nil => rfl
  | cons e es ih =>
      rw [List.findSome?_cons, List.findSome?_cons, h e List.mem_cons_self,
        ih fun e' he' => h e' (List.mem_cons_of_mem e he')]

/-- Among entries with ascending indices, the first with a result has the least index of those that
have one. -/
theorem findSome?_eq_some_iff {es : List (UInt8 × α)} (h : es.Pairwise fun a b => a.1 < b.1)
    {f : UInt8 × α → Option β} {b : β} :
    es.findSome? f = some b ↔ ∃ e ∈ es, f e = some b ∧ ∀ e' ∈ es, e'.1 < e.1 → f e' = none := by
  induction es with
  | nil => simp
  | cons e es ih =>
      obtain ⟨he, hes⟩ := List.pairwise_cons.mp h
      rw [List.findSome?_cons]
      cases hf : f e with
      | some b' =>
          constructor
          · intro hb
            refine ⟨e, List.mem_cons_self, hf.trans hb, fun e' he' hlt => ?_⟩
            rcases List.mem_cons.mp he' with rfl | he'
            · exact absurd hlt (UInt8.lt_irrefl _)
            · exact absurd hlt (UInt8.lt_asymm (he e' he'))
          -- no other entry can be the first, since `e` is below all of them
          · rintro ⟨e', he', hb, hfirst⟩
            rcases List.mem_cons.mp he' with rfl | he'
            · exact hf.symm.trans hb
            · have hnone := hfirst e List.mem_cons_self (he e' he')
              rw [hf] at hnone
              cases hnone
      | none =>
          rw [ih hes]
          constructor
          · rintro ⟨e', he', hb, hfirst⟩
            refine ⟨e', List.mem_cons_of_mem e he', hb, fun e'' he'' hlt => ?_⟩
            rcases List.mem_cons.mp he'' with rfl | he''
            · exact hf
            · exact hfirst e'' he'' hlt
          · rintro ⟨e', he', hb, hfirst⟩
            rcases List.mem_cons.mp he' with rfl | he'
            · rw [hf] at hb
              cases hb
            · exact ⟨e', he', hb, fun e'' he'' => hfirst e'' (List.mem_cons_of_mem e he'')⟩

end IndexMap

namespace SlotMap

variable {α β : Type} {m : SlotMap α} {p : UInt8 → UInt8 → α → Prop}

/-- The order of slots: a slot of a lower credential comes first, then one of a lower key. -/
def Precedes (credential key credential' key' : UInt8) : Prop :=
  credential < credential' ∨ credential = credential' ∧ key < key'

/-- The slot has a value with the property, and no slot before it has one. -/
structure IsFirst (p : UInt8 → UInt8 → α → Prop) (m : SlotMap α) (credential key : UInt8) (v : α) :
    Prop where
  find_eq : find? m credential key = some v
  holds : p credential key v
  before : ∀ credential' key' v', find? m credential' key' = some v' →
    Precedes credential' key' credential key → ¬ p credential' key' v'

/-- Asks `f` about one slot after the other, up to the first for which it has a result. -/
def search (f : UInt8 → UInt8 → α → Option β) (m : SlotMap α) : Option β :=
  m.entries.findSome? fun c => c.2.entries.findSome? fun k => f c.1 k.1 k.2

theorem search_eq_none_iff {f : UInt8 → UInt8 → α → Option β} :
    search f m = none ↔
      ∀ credential key v, find? m credential key = some v → f credential key v = none := by
  simp only [search, List.findSome?_eq_none_iff]
  exact forall_entries_iff (p := fun credential key v => f credential key v = none)

/-- A search hits the first slot that has the property for which `f` has results. -/
theorem search_eq_some_iff {f : UInt8 → UInt8 → α → Option β} {b : β}
    (hf : ∀ credential key v, f credential key v = none ↔ ¬ p credential key v) :
    search f m = some b ↔
      ∃ credential key v, IsFirst p m credential key v ∧ f credential key v = some b := by
  simp only [search, IndexMap.findSome?_eq_some_iff m.ascending]
  constructor
  · rintro ⟨⟨credential, keys⟩, hc, hinner, hbefore⟩
    rw [IndexMap.findSome?_eq_some_iff keys.ascending] at hinner
    obtain ⟨⟨key, v⟩, hk, hb, hbefore'⟩ := hinner
    have hholds : p credential key v := by
      by_contra hnot
      rw [← hf] at hnot
      cases hb.symm.trans hnot
    refine ⟨credential, key, v, ⟨find?_eq_some_iff.mpr ⟨keys, hc, hk⟩, hholds, ?_⟩, hb⟩
    intro credential' key' v' hfind hprecedes
    obtain ⟨keys', hc', hk'⟩ := find?_eq_some_iff.mp hfind
    rw [← hf]
    -- a credential before this one has no hit at all, this one has none at a key before
    rcases hprecedes with hlt | ⟨rfl, hlt⟩
    · have hnone := hbefore (credential', keys') hc' hlt
      exact List.findSome?_eq_none_iff.mp hnone (key', v') hk'
    · cases IndexMap.eq_of_mem hc hc'
      exact hbefore' (key', v') hk' hlt
  · rintro ⟨credential, key, v, ⟨hfind, -, hbefore⟩, hb⟩
    obtain ⟨keys, hc, hk⟩ := find?_eq_some_iff.mp hfind
    refine ⟨(credential, keys), hc, ?_, ?_⟩
    · rw [IndexMap.findSome?_eq_some_iff keys.ascending]
      refine ⟨(key, v), hk, hb, fun k hk' hlt => (hf _ _ _).mpr ?_⟩
      exact hbefore credential k.1 k.2 (find?_eq_some_iff.mpr ⟨keys, hc, hk'⟩) (.inr ⟨rfl, hlt⟩)
    · intro c hc' hlt
      refine List.findSome?_eq_none_iff.mpr fun k hk' => (hf _ _ _).mpr ?_
      exact hbefore c.1 k.1 k.2 (find?_eq_some_iff.mpr ⟨c.2, hc', hk'⟩) (.inl hlt)

/-- The first slot of a map whose values were computed from those of another map. -/
theorem isFirst_mapValues_iff {γ : Type} {g : γ → α} {n : SlotMap γ} {credential key : UInt8}
    {v : α} :
    IsFirst p (mapValues g n) credential key v ↔
      ∃ w, IsFirst (fun c k w => p c k (g w)) n credential key w ∧ g w = v := by
  constructor
  · rintro ⟨hfind, hholds, hbefore⟩
    obtain ⟨w, hw, rfl⟩ := find?_mapValues_eq_some_iff.mp hfind
    refine ⟨w, ⟨hw, hholds, fun c k w' hw' => ?_⟩, rfl⟩
    exact hbefore c k (g w') (find?_mapValues_eq_some_iff.mpr ⟨w', hw', rfl⟩)
  · rintro ⟨w, ⟨hfind, hholds, hbefore⟩, rfl⟩
    refine ⟨find?_mapValues_eq_some_iff.mpr ⟨w, hfind, rfl⟩, hholds, fun c k v hv => ?_⟩
    obtain ⟨w', hw', rfl⟩ := find?_mapValues_eq_some_iff.mp hv
    exact hbefore c k w' hw'

end SlotMap

end AccountTx
