import AccountTx.Proofs.Signing.Registry
import AccountTx.Proofs.SlotMap.Insertion
import AccountTx.Proofs.SlotMap.Order

/-!
Collecting signers into a registry, one after the other. A run is described by the signers that were
asked for and their slots, without the maps that are built on the way: it succeeds if no slot is
asked for twice and both levels stay within 255, and then the registry has these signers and no
others, in whichever order they came.
-/

namespace AccountTx

/-- A signer and the slot that it is for. -/
structure Placement where
  credential : UInt8
  key : UInt8
  signer : Signer

namespace Placement

def slot (p : Placement) : UInt8 × UInt8 := (p.credential, p.key)

/-- The credentials that have a signer in a list. -/
def credentials (ps : List Placement) : Finset UInt8 := (ps.map (·.credential)).toFinset

/-- The keys of one credential that have a signer in a list. -/
def keysAt (ps : List Placement) (credential : UInt8) : Finset UInt8 :=
  ((ps.filter fun p => p.credential = credential).map (·.key)).toFinset

/-- No slot is repeated, and there are at most 255 credentials and 255 keys of each. -/
structure Admissible (ps : List Placement) : Prop where
  distinct : (ps.map slot).Nodup
  credentials_le : (credentials ps).card ≤ 255
  keys_le : ∀ credential, (keysAt ps credential).card ≤ 255

/-- There is room for one more signer beside those of a list. -/
structure HasRoom (ps : List Placement) (p : Placement) : Prop where
  credential_room : p.credential ∈ credentials ps ∨ (credentials ps).card < 255
  free : p.slot ∉ ps.map slot
  key_room : (keysAt ps p.credential).card < 255

/-- Why there is no room for one more signer beside those of a list. -/
inductive Refused (ps : List Placement) (p : Placement) : SigningError → Prop where
  | tooManyCredentials : p.credential ∉ credentials ps → (credentials ps).card = 255 →
      Refused ps p (.tooManyCredentials 255)
  | duplicateKey : p.slot ∈ ps.map slot → Refused ps p (.duplicateKey p.credential p.key)
  | tooManyKeys : p.credential ∈ credentials ps ∨ (credentials ps).card < 255 →
      p.slot ∉ ps.map slot → (keysAt ps p.credential).card = 255 →
      Refused ps p (.tooManyKeys p.credential 255)

variable {ps qs : List Placement} {p : Placement}

theorem mem_credentials_iff {credential : UInt8} :
    credential ∈ credentials ps ↔ ∃ key signer, ⟨credential, key, signer⟩ ∈ ps := by
  simp only [credentials, List.mem_toFinset, List.mem_map]
  constructor
  · rintro ⟨p, hp, rfl⟩
    exact ⟨p.key, p.signer, hp⟩
  · rintro ⟨key, signer, hp⟩
    exact ⟨_, hp, rfl⟩

theorem mem_keysAt_iff {credential key : UInt8} :
    key ∈ keysAt ps credential ↔ ∃ signer, ⟨credential, key, signer⟩ ∈ ps := by
  simp only [keysAt, List.mem_toFinset, List.mem_map, List.mem_filter, decide_eq_true_eq]
  constructor
  · rintro ⟨p, ⟨hp, rfl⟩, rfl⟩
    exact ⟨p.signer, hp⟩
  · rintro ⟨signer, hp⟩
    exact ⟨_, ⟨hp, rfl⟩, rfl⟩

theorem mem_slots_iff {credential key : UInt8} :
    (credential, key) ∈ ps.map slot ↔ key ∈ keysAt ps credential := by
  rw [mem_keysAt_iff, List.mem_map]
  constructor
  · rintro ⟨p, hp, heq⟩
    cases heq
    exact ⟨p.signer, hp⟩
  · rintro ⟨signer, hp⟩
    exact ⟨_, hp, rfl⟩

theorem credentials_append : credentials (ps ++ [p]) = insert p.credential (credentials ps) := by
  ext credential
  simp [credentials]

theorem keysAt_append {credential : UInt8} :
    keysAt (ps ++ [p]) credential =
      if p.credential = credential then insert p.key (keysAt ps credential)
      else keysAt ps credential := by
  ext key
  split
  next h => simp [keysAt, h]
  next h => simp [keysAt, h]

theorem card_keysAt_append (hfree : p.slot ∉ ps.map slot) :
    (keysAt (ps ++ [p]) p.credential).card = (keysAt ps p.credential).card + 1 := by
  rw [keysAt_append, if_pos rfl]
  exact Finset.card_insert_of_notMem (mt mem_slots_iff.mpr hfree)

/-- A longer list is admissible if it was before its last signer, and there was room for this. -/
theorem admissible_append_iff : Admissible (ps ++ [p]) ↔ Admissible ps ∧ HasRoom ps p := by
  constructor
  · rintro ⟨hdistinct, hcredentials, hkeys⟩
    simp only [List.map_append, List.map_cons, List.map_nil, List.nodup_append, List.mem_singleton,
      forall_eq] at hdistinct
    obtain ⟨hnodup, -, hfree⟩ := hdistinct
    have hslot : p.slot ∉ ps.map slot := fun hmem => hfree _ hmem rfl
    rw [credentials_append] at hcredentials
    refine ⟨⟨hnodup, ?_, fun credential => ?_⟩, ?_, hslot, ?_⟩
    · exact (Finset.card_le_card (Finset.subset_insert _ _)).trans hcredentials
    · refine (Finset.card_le_card ?_).trans (hkeys credential)
      rw [keysAt_append]
      split
      · exact Finset.subset_insert _ _
      · exact subset_rfl
    · by_cases hmem : p.credential ∈ credentials ps
      · exact .inl hmem
      · rw [Finset.card_insert_of_notMem hmem] at hcredentials
        exact .inr hcredentials
    · have hle := hkeys p.credential
      rw [card_keysAt_append hslot] at hle
      exact hle
  · rintro ⟨⟨hnodup, hcredentials, hkeys⟩, hroom, hfree, hkeyRoom⟩
    refine ⟨?_, ?_, fun credential => ?_⟩
    · rw [List.map_append, List.nodup_append]
      refine ⟨hnodup, List.nodup_singleton _, fun a ha b hb heq => hfree ?_⟩
      rwa [← List.mem_singleton.mp hb, ← heq]
    · rw [credentials_append]
      rcases hroom with hmem | hlt
      · rwa [Finset.insert_eq_of_mem hmem]
      · exact (Finset.card_insert_le _ _).trans hlt
    · by_cases heq : p.credential = credential
      · subst heq
        rw [card_keysAt_append hfree]
        exact hkeyRoom
      · rw [keysAt_append, if_neg heq]
        exact hkeys credential

theorem admissible_nil : Admissible [] :=
  ⟨List.nodup_nil, by simp [credentials], fun credential => by simp [keysAt]⟩

theorem Admissible.perm (h : Admissible ps) (hperm : ps.Perm qs) : Admissible qs := by
  have hcredentials : credentials qs = credentials ps :=
    List.toFinset_eq_of_perm _ _ (hperm.symm.map _)
  have hkeys (credential) : keysAt qs credential = keysAt ps credential :=
    List.toFinset_eq_of_perm _ _ ((hperm.symm.filter _).map _)
  refine ⟨(hperm.map slot).nodup_iff.mp h.distinct, ?_, fun credential => ?_⟩
  · rw [hcredentials]
    exact h.credentials_le
  · rw [hkeys]
    exact h.keys_le credential

end Placement

namespace Registry

open Placement

/-- The registry of the signers in a list, added one after the other to an empty registry. -/
def collect (ps : List Placement) : Except SigningError Registry :=
  ps.foldlM (fun r p => r.add p.credential p.key p.signer) .empty

/-- The registry has the signers of a list at their slots, and no others. -/
def Holds (r : Registry) (ps : List Placement) : Prop :=
  ∀ credential key signer,
    SlotMap.find? r.signers credential key = some signer ↔ ⟨credential, key, signer⟩ ∈ ps

variable {r r' : Registry} {ps qs : List Placement} {p : Placement}

theorem eq_of_signers_eq (h : r.signers = r'.signers) : r = r' := by
  cases r
  cases r'
  cases h
  rfl

/-- There is one registry at most with these signers. -/
theorem Holds.unique (h : r.Holds ps) (h' : r'.Holds ps) : r = r' := by
  refine eq_of_signers_eq (SlotMap.ext_find? r.keys_pos r'.keys_pos fun credential key => ?_)
  refine Option.ext fun signer => ?_
  rw [h, h']

theorem Holds.perm (h : r.Holds ps) (hperm : ps.Perm qs) : r.Holds qs := by
  intro credential key signer
  rw [h, hperm.mem_iff]

/-! ### One more signer -/

theorem get?_keysOf (r : Registry) (credential key : UInt8) :
    (r.keysOf credential).get? key = SlotMap.find? r.signers credential key := by
  rw [keysOf, SlotMap.find?]
  cases r.signers.get? credential <;> rfl

theorem size_keysOf_le (r : Registry) (credential : UInt8) :
    (r.keysOf credential).size ≤ 255 := by
  rw [keysOf]
  cases hkeys : r.signers.get? credential with
  | none => exact Nat.zero_le _
  | some keys => exact (r.fits.2 _ (IndexMap.get?_eq_some_iff.mp hkeys)).2

section Holding

variable (h : r.Holds ps)

include h

theorem Holds.contains_iff {credential : UInt8} :
    r.signers.contains credential = true ↔ credential ∈ credentials ps := by
  rw [SlotMap.contains_iff r.keys_pos, mem_credentials_iff]
  simp only [h _ _ _]

theorem Holds.size_eq : r.signers.size = (credentials ps).card :=
  IndexMap.size_eq_card fun _ => h.contains_iff

theorem Holds.contains_keysOf_iff {credential key : UInt8} :
    (r.keysOf credential).contains key = true ↔ key ∈ keysAt ps credential := by
  rw [IndexMap.contains_iff, mem_keysAt_iff, get?_keysOf]
  simp only [h _ _ _]

theorem Holds.size_keysOf_eq (credential : UInt8) :
    (r.keysOf credential).size = (keysAt ps credential).card :=
  IndexMap.size_eq_card fun _ => h.contains_keysOf_iff

theorem Holds.not_lacksRoom_iff {credential : UInt8} :
    ¬ r.LacksRoom credential ↔ credential ∈ credentials ps ∨ (credentials ps).card < 255 := by
  rw [LacksRoom, h.size_eq, ← h.contains_iff, not_and_or, Bool.not_eq_false, Nat.not_le]
  rfl

/-- A signer that there is room for is added to what the registry has. -/
theorem Holds.add_of_hasRoom (hroom : HasRoom ps p) :
    ∃ r', r.add p.credential p.key p.signer = .ok r' ∧ r'.Holds (ps ++ [p]) := by
  have hcredential : ¬ r.LacksRoom p.credential :=
    h.not_lacksRoom_iff.mpr hroom.credential_room
  have hfree : p.key ∉ keysAt ps p.credential := mt mem_slots_iff.mpr hroom.free
  have hkeys : (r.keysOf p.credential).size < Limits.maxSigners := by
    rw [h.size_keysOf_eq]
    exact hroom.key_room
  rw [add, dif_neg hcredential, dif_neg (mt h.contains_keysOf_iff.mp hfree), dif_pos hkeys]
  refine ⟨_, rfl, fun credential key signer => ?_⟩
  have hput : SlotMap.find? (SlotMap.put r.signers p.credential p.key p.signer) credential key =
      some signer ↔ (⟨credential, key, signer⟩ : Placement) ∈ ps ++ [p] := by
    rw [SlotMap.find?_put, List.mem_append, List.mem_singleton]
    split
    -- the slot was free, so no signer of the list is there
    next heq =>
      obtain ⟨rfl, rfl⟩ := heq
      have hnone : (⟨p.credential, p.key, signer⟩ : Placement) ∉ ps :=
        fun hmem => hfree (mem_keysAt_iff.mpr ⟨signer, hmem⟩)
      rw [Option.some.injEq, or_iff_right hnone]
      constructor
      · rintro rfl
        rfl
      · intro heq
        rw [← heq]
    next hne =>
      have hother : (⟨credential, key, signer⟩ : Placement) ≠ p := by
        rintro rfl
        exact hne ⟨rfl, rfl⟩
      rw [h, or_iff_left hother]
  exact hput

/-- Where there is no room, the error names what is lacking. -/
theorem Holds.add_of_refused {e : SigningError} (hrefused : Refused ps p e) :
    r.add p.credential p.key p.signer = .error e := by
  cases hrefused with
  | tooManyCredentials hnew hfull =>
      have hlacks : r.LacksRoom p.credential := by
        by_contra hroom
        rcases h.not_lacksRoom_iff.mp hroom with hmem | hlt
        · exact hnew hmem
        · exact Nat.ne_of_lt hlt hfull
      rw [add, dif_pos hlacks]
      rfl
  | duplicateKey htaken =>
      rw [slot, mem_slots_iff] at htaken
      obtain ⟨signer, hmem⟩ := mem_keysAt_iff.mp htaken
      have hroom : ¬ r.LacksRoom p.credential :=
        h.not_lacksRoom_iff.mpr (.inl (mem_credentials_iff.mpr ⟨p.key, signer, hmem⟩))
      rw [add, dif_neg hroom, dif_pos (h.contains_keysOf_iff.mpr htaken)]
  | tooManyKeys hroom hfree hfull =>
      rw [slot, mem_slots_iff] at hfree
      have hkeys : ¬ (r.keysOf p.credential).size < Limits.maxSigners := by
        rw [h.size_keysOf_eq, hfull]
        exact Nat.lt_irrefl _
      rw [add, dif_neg (h.not_lacksRoom_iff.mpr hroom),
        dif_neg (mt h.contains_keysOf_iff.mp hfree), dif_neg hkeys]
      rfl

/-- There is room for a signer, or else something is lacking. -/
theorem Holds.hasRoom_or_refused (p : Placement) : HasRoom ps p ∨ ∃ e, Refused ps p e := by
  have hcredentials : (credentials ps).card ≤ 255 := h.size_eq ▸ r.fits.1
  have hkeys : (keysAt ps p.credential).card ≤ 255 :=
    h.size_keysOf_eq p.credential ▸ r.size_keysOf_le p.credential
  by_cases hroom : p.credential ∈ credentials ps ∨ (credentials ps).card < 255
  · by_cases hfree : p.slot ∈ ps.map slot
    · exact .inr ⟨_, .duplicateKey hfree⟩
    · rcases Nat.lt_or_eq_of_le hkeys with hlt | hfull
      · exact .inl ⟨hroom, hfree, hlt⟩
      · exact .inr ⟨_, .tooManyKeys hroom hfree hfull⟩
  · rw [not_or, Nat.not_lt] at hroom
    exact .inr ⟨_, .tooManyCredentials hroom.1 (Nat.le_antisymm hcredentials hroom.2)⟩

theorem Holds.exists_add_iff :
    (∃ r', r.add p.credential p.key p.signer = .ok r') ↔ HasRoom ps p := by
  constructor
  · rintro ⟨r', hadd⟩
    rcases h.hasRoom_or_refused p with hroom | ⟨e, hrefused⟩
    · exact hroom
    · rw [h.add_of_refused hrefused] at hadd
      cases hadd
  · intro hroom
    obtain ⟨r', hadd, -⟩ := h.add_of_hasRoom hroom
    exact ⟨r', hadd⟩

theorem Holds.add (hadd : r.add p.credential p.key p.signer = .ok r') :
    r'.Holds (ps ++ [p]) := by
  obtain ⟨r'', hadd', hholds⟩ := h.add_of_hasRoom (h.exists_add_iff.mp ⟨r', hadd⟩)
  rw [hadd] at hadd'
  cases hadd'
  exact hholds

theorem Holds.add_eq_error_iff {e : SigningError} :
    r.add p.credential p.key p.signer = .error e ↔ Refused ps p e := by
  constructor
  · intro hadd
    rcases h.hasRoom_or_refused p with hroom | ⟨e', hrefused⟩
    · obtain ⟨r', hadd', -⟩ := h.add_of_hasRoom hroom
      rw [hadd] at hadd'
      cases hadd'
    · rw [h.add_of_refused hrefused] at hadd
      cases hadd
      exact hrefused
  · exact h.add_of_refused

end Holding

/-! ### Runs -/

theorem holds_empty : Registry.empty.Holds [] := by
  intro credential key signer
  rw [empty, SlotMap.find?_empty]
  simp

theorem collect_append (ps : List Placement) (p : Placement) :
    collect (ps ++ [p]) = (collect ps).bind fun r => r.add p.credential p.key p.signer := by
  rw [collect, List.foldlM_append]
  simp only [List.foldlM_cons, List.foldlM_nil, bind_pure]
  rfl

theorem holds_of_collect (hcollect : collect ps = .ok r) : r.Holds ps := by
  induction ps using List.reverseRecOn generalizing r with
  | nil =>
      cases hcollect
      exact holds_empty
  | append_singleton ps p ih =>
      rw [collect_append] at hcollect
      cases hps : collect ps with
      | error e =>
          rw [hps] at hcollect
          cases hcollect
      | ok r₀ =>
          rw [hps] at hcollect
          exact (ih hps).add hcollect

theorem exists_collect_iff : (∃ r, collect ps = .ok r) ↔ Admissible ps := by
  induction ps using List.reverseRecOn with
  | nil => exact iff_of_true ⟨.empty, rfl⟩ admissible_nil
  | append_singleton ps p ih =>
      rw [admissible_append_iff, ← ih, collect_append]
      cases hps : collect ps with
      | error e => simp [Except.bind]
      | ok r =>
          have hadd := (holds_of_collect hps).exists_add_iff (p := p)
          rw [← hadd]
          simp [Except.bind]

theorem collect_eq_ok_iff : collect ps = .ok r ↔ Admissible ps ∧ r.Holds ps := by
  constructor
  · exact fun hcollect => ⟨exists_collect_iff.mp ⟨r, hcollect⟩, holds_of_collect hcollect⟩
  · rintro ⟨hadmissible, hholds⟩
    obtain ⟨r', hcollect⟩ := exists_collect_iff.mpr hadmissible
    rw [hcollect, (holds_of_collect hcollect).unique hholds]

/-- A run fails already before its last signer, or at this one. -/
theorem collect_append_eq_error_iff {e : SigningError} :
    collect (ps ++ [p]) = .error e ↔
      collect ps = .error e ∨ Admissible ps ∧ Refused ps p e := by
  rw [collect_append]
  cases hps : collect ps with
  | error e' =>
      have hinadmissible : ¬ Admissible ps := by
        rw [← exists_collect_iff, hps]
        rintro ⟨r, ⟨⟩⟩
      simp [Except.bind, hinadmissible]
  | ok r =>
      have hadmissible : Admissible ps := exists_collect_iff.mp ⟨r, hps⟩
      have hadd := (holds_of_collect hps).add_eq_error_iff (p := p) (e := e)
      simp [Except.bind, hadmissible, hadd]

/-- A member of a list and what stands before it: either the last one and all others, or both in the
list without the last one. -/
theorem exists_split_append_iff {P : List Placement → Placement → Prop} :
    (∃ before q after, ps ++ [p] = before ++ q :: after ∧ P before q) ↔
      (∃ before q after, ps = before ++ q :: after ∧ P before q) ∨ P ps p := by
  constructor
  · rintro ⟨before, q, after, heq, h⟩
    rcases List.eq_nil_or_concat after with rfl | ⟨after, q', rfl⟩
    · obtain ⟨rfl, hlast⟩ := List.append_inj' heq rfl
      obtain rfl := List.singleton_inj.mp hlast
      exact .inr h
    · rw [List.concat_eq_append, ← List.cons_append, ← List.append_assoc] at heq
      obtain ⟨rfl, -⟩ := List.append_inj' heq rfl
      exact .inl ⟨before, q, after, rfl, h⟩
  · rintro (⟨before, q, after, rfl, h⟩ | h)
    · exact ⟨before, q, after ++ [p], by simp, h⟩
    · exact ⟨ps, p, [], rfl, h⟩

/-- A run fails at the first signer that there is no room for. -/
theorem collect_eq_error_iff {e : SigningError} :
    collect ps = .error e ↔
      ∃ before p after, ps = before ++ p :: after ∧ Admissible before ∧ Refused before p e := by
  induction ps using List.reverseRecOn with
  | nil =>
      refine iff_of_false nofun ?_
      rintro ⟨before, p, after, heq, -⟩
      simp at heq
  | append_singleton ps p ih => rw [collect_append_eq_error_iff, exists_split_append_iff, ih]

/-! ### What is collected -/

theorem isEmpty_iff_count : r.isEmpty = true ↔ r.count = 0 := by
  rw [isEmpty_iff, slots_eq_nil_iff]

theorem Holds.mem_slots_iff (h : r.Holds ps) {slot : UInt8 × UInt8} :
    slot ∈ r.slots ↔ slot ∈ ps.map Placement.slot := by
  obtain ⟨credential, key⟩ := slot
  rw [slots, SlotMap.mem_slots_iff, Placement.mem_slots_iff, mem_keysAt_iff]
  simp only [h _ _ _]

/-- No slot counts twice, neither in the registry nor in the list. -/
theorem Holds.count_eq (h : r.Holds ps) (hdistinct : (ps.map slot).Nodup) :
    r.count = ps.length := by
  have hperm : r.slots.Perm (ps.map slot) :=
    (List.perm_ext_iff_of_nodup (SlotMap.slots_nodup r.signers) hdistinct).mpr
      fun _ => h.mem_slots_iff
  calc r.count = r.slots.length := (SlotMap.length_slots r.signers).symm
    _ = (ps.map slot).length := hperm.length_eq
    _ = ps.length := List.length_map _

/-- The registry that a run makes: what it holds, and how it lists and counts this. -/
structure IsOf (r : Registry) (ps : List Placement) : Prop where
  find_iff : ∀ credential key signer, SlotMap.find? r.signers credential key = some signer ↔
    ⟨credential, key, signer⟩ ∈ ps
  count_eq : r.count = ps.length
  count_fits : (UInt32.ofNat r.count).toNat = r.count
  slots_ascend : r.slots.Pairwise fun a b => SlotMap.Precedes a.1 a.2 b.1 b.2
  mem_slots : ∀ slot, slot ∈ r.slots ↔ slot ∈ ps.map Placement.slot
  keys_pos : ∀ e ∈ r.signers.entries, 0 < e.2.size
  empty_iff : r.isEmpty = true ↔ r.count = 0

theorem Holds.isOf (h : r.Holds ps) (hdistinct : (ps.map slot).Nodup) : r.IsOf ps where
  find_iff := h
  count_eq := h.count_eq hdistinct
  count_fits := r.toNat_ofNat_count
  slots_ascend := SlotMap.slots_pairwise r.signers
  mem_slots _ := h.mem_slots_iff
  keys_pos := r.keys_pos
  empty_iff := isEmpty_iff_count

/-- A run of additions succeeds exactly for an admissible list of signers, it makes the one registry
of these signers, for every order of the list the same, and otherwise it fails at the first signer
without room for the first reason that applies. -/
theorem collect_law :
    (∀ ps, (∃ r, collect ps = .ok r) ↔ Admissible ps) ∧
    (∀ ps r, collect ps = .ok r ↔ Admissible ps ∧ r.IsOf ps) ∧
    (∀ ps qs r, ps.Perm qs → (collect ps = .ok r ↔ collect qs = .ok r)) ∧
    ∀ ps e, collect ps = .error e ↔
      ∃ before p after, ps = before ++ p :: after ∧ Admissible before ∧ Refused before p e := by
  refine ⟨fun ps => exists_collect_iff, fun ps r => ?_, fun ps qs r hperm => ?_,
    fun ps e => collect_eq_error_iff⟩
  · rw [collect_eq_ok_iff]
    constructor
    · exact fun h => ⟨h.1, h.2.isOf h.1.distinct⟩
    · exact fun h => ⟨h.1, h.2.find_iff⟩
  · rw [collect_eq_ok_iff, collect_eq_ok_iff]
    constructor
    · exact fun h => ⟨h.1.perm hperm, h.2.perm hperm⟩
    · exact fun h => ⟨h.1.perm hperm.symm, h.2.perm hperm.symm⟩

/-- Three signers of two credentials, not in the order of their slots. -/
def threePlacements : List Placement :=
  [⟨2, 5, fun _ => [3]⟩, ⟨0, 1, fun _ => [2]⟩, ⟨0, 0, fun _ => [1]⟩]

theorem collect_threePlacements :
    ∃ r, collect threePlacements = .ok r ∧ collect threePlacements.reverse = .ok r ∧
      r.count = 3 ∧ r.slots = [(0, 0), (0, 1), (2, 5)] := by
  have hadmissible : Admissible threePlacements := by
    refine ⟨by decide, by decide, fun credential => ?_⟩
    calc (keysAt threePlacements credential).card
        ≤ ((threePlacements.filter fun p => p.credential = credential).map (·.key)).length :=
          List.toFinset_card_le _
      _ ≤ threePlacements.length := by
          rw [List.length_map]
          exact List.length_filter_le _ _
      _ ≤ 255 := by decide
  obtain ⟨hsucceeds, hmakes, hperm, -⟩ := collect_law
  obtain ⟨r, hr⟩ := (hsucceeds _).mpr hadmissible
  refine ⟨r, hr, (hperm _ _ r (List.reverse_perm _).symm).mp hr, ?_, ?_⟩
  · exact ((hmakes _ r).mp hr).2.count_eq
  · cases hr
    rfl

end Registry

end AccountTx
