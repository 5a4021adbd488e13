import AccountTx.Proofs.Signing.Collection
import AccountTx.Proofs.Value.Hexadecimal
import AccountTx.Proofs.Wallet.Reading
import AccountTx.Wallet.Import

/-!
From what an export says to an account. The keys are added to a registry one by one, so the account
has their signers if all of them are keys and there is room for them; which sender it is depends on
the address alone.
-/

namespace AccountTx.Wallet

open Hex

/-! ### Senders -/

/-- Who sends, given a sender or not: the exported address never names another account. -/
inductive Resolves (exported : String) : Option Address → Address → Prop where
  | given {sender : Address} : (Spells 32 exported → IsHexOf exported sender.bytes.toList) →
      Resolves exported (some sender) sender
  | exported {a : Address} : IsHexOf exported a.bytes.toList → Resolves exported none a

theorem exists_ofHex_iff {text : String} : (∃ a, Address.ofHex text = .ok a) ↔ Spells 32 text := by
  rw [← exists_fixed_isHexOf_iff]
  simp only [Address.ofHex_eq_ok_iff]
  constructor
  · rintro ⟨a, h⟩
    exact ⟨a.bytes, h⟩
  · rintro ⟨b, h⟩
    exact ⟨⟨b⟩, h⟩

theorem resolveSender_eq_ok_iff {exported : String} {sender : Option Address} {a : Address} :
    resolveSender exported sender = .ok a ↔ Resolves exported sender a := by
  cases hread : Address.ofHex exported with
  | error e =>
      have hother : ¬ Spells 32 exported := by
        rw [← exists_ofHex_iff, hread]
        rintro ⟨_, ⟨⟩⟩
      have hparsed : (Address.ofHex exported).toOption = none := by rw [hread]; rfl
      cases sender with
      | none =>
          simp only [resolveSender, hparsed]
          refine iff_of_false nofun fun h => ?_
          cases h with
          | exported hhex =>
              exact hother (exists_ofHex_iff.mp ⟨a, Address.ofHex_eq_ok_iff.mpr hhex⟩)
      | some sender =>
          simp only [resolveSender, hparsed]
          constructor
          · rintro ⟨⟩
            exact .given fun hspells => absurd hspells hother
          · rintro ⟨-⟩
            rfl
  | ok b =>
      have hhex : IsHexOf exported b.bytes.toList := Address.ofHex_eq_ok_iff.mp hread
      have hsame {a' : Address} (h : IsHexOf exported a'.bytes.toList) : a' = b := by
        rw [← Address.ofHex_eq_ok_iff, hread] at h
        exact (Except.ok.inj h).symm
      have hparsed : (Address.ofHex exported).toOption = some b := by rw [hread]; rfl
      cases sender with
      | none =>
          simp only [resolveSender, hparsed, Except.ok.injEq]
          constructor
          · rintro rfl
            exact .exported hhex
          · intro h
            cases h with
            | exported hhex' => exact (hsame hhex').symm
      | some sender =>
          simp only [resolveSender, hparsed]
          constructor
          · intro h
            split at h
            next heq =>
              cases h
              exact .given fun _ => heq ▸ hhex
            next => cases h
          · rintro ⟨h⟩
            rw [if_pos (hsame (h (exists_ofHex_iff.mp ⟨b, hread⟩)))]

theorem Resolves.sender_eq {exported : String} {sender a : Address}
    (h : Resolves exported (some sender) a) : a = sender := by
  cases h with
  | given _ => rfl

/-! ### Keys -/

/-- The slots of a map with the secret keys as they are written. -/
def secrets (credentials : List (UInt8 × IndexMap String)) : List (UInt8 × UInt8 × String) :=
  credentials.flatMap fun c => c.2.entries.map fun k => (c.1, k.1, k.2)

theorem addCredentials_eq (credentials : List (UInt8 × IndexMap String)) (r : Registry) :
    addCredentials credentials r =
      (secrets credentials).foldlM (fun r s => addKey r s.1 s.2.1 s.2.2) r := by
  induction credentials generalizing r with
  | nil => rfl
  | cons c credentials ih =>
      rw [secrets, List.flatMap_cons, List.foldlM_append, List.foldlM_map, ← secrets]
      simp only [← ih]
      rfl

/-- The slot of a secret key with its signer. -/
inductive Places : UInt8 × UInt8 × String → Placement → Prop where
  | intro {credential key : UInt8} {text : String} {secret : SecretKey} :
      IsHexOf (Text.trim text) secret.bytes.toList →
      Places (credential, key, text) ⟨credential, key, secret.sign⟩

theorem Places.unique {s : UInt8 × UInt8 × String} {p p' : Placement} (h : Places s p)
    (h' : Places s p') : p = p' := by
  obtain ⟨hhex⟩ := h
  obtain ⟨hhex'⟩ := h'
  rw [← SecretKey.ofHex_eq_ok_iff] at hhex hhex'
  rw [hhex] at hhex'
  cases hhex'
  rfl

theorem addKey_eq_ok_iff (r : Registry) (s : UInt8 × UInt8 × String) (r' : Registry) :
    addKey r s.1 s.2.1 s.2.2 = .ok r' ↔
      ∃ p, Places s p ∧ r.add p.credential p.key p.signer = .ok r' := by
  obtain ⟨credential, key, text⟩ := s
  rw [addKey]
  constructor
  · intro h
    split at h
    next => cases h
    next secret hsecret =>
      refine ⟨_, .intro (SecretKey.ofHex_eq_ok_iff.mp hsecret), ?_⟩
      split at h
      next hadd => exact hadd.trans (congrArg _ (Except.ok.inj h))
      next => cases h
  · rintro ⟨p, ⟨hhex⟩, hadd⟩
    simp only [SecretKey.ofHex_eq_ok_iff.mpr hhex, hadd]

theorem map_slot_of_places {ss : List (UInt8 × UInt8 × String)} {ps : List Placement}
    (h : List.Forall₂ Places ss ps) : ps.map Placement.slot = ss.map fun s => (s.1, s.2.1) := by
  induction h with
  | nil => rfl
  | cons hplaces _ ih =>
      obtain ⟨hhex⟩ := hplaces
      rw [List.map_cons, List.map_cons, ih]
      rfl

/-! ### Registries -/

section

variable {keys : SlotMap String} {ps : List Placement}

theorem mem_secrets_iff {credential key : UInt8} {text : String} :
    (credential, key, text) ∈ secrets keys.entries ↔
      SlotMap.find? keys credential key = some text := by
  simp only [secrets, List.mem_flatMap, List.mem_map, SlotMap.find?_eq_some_iff]
  constructor
  · rintro ⟨c, hc, k, hk, heq⟩
    cases heq
    exact ⟨c.2, hc, hk⟩
  · rintro ⟨inner, hc, hk⟩
    exact ⟨(credential, inner), hc, (key, text), hk, rfl⟩

theorem map_secrets : (secrets keys.entries).map (fun s => (s.1, s.2.1)) = SlotMap.slots keys := by
  simp [secrets, SlotMap.slots, IndexMap.keys, List.map_flatMap, Function.comp_def]

variable (hps : List.Forall₂ Places (secrets keys.entries) ps)

include hps

theorem mem_placements_iff {p : Placement} :
    p ∈ ps ↔ ∃ text, SlotMap.find? keys p.credential p.key = some text ∧
      Places (p.credential, p.key, text) p := by
  rw [mem_iff_of_forall₂ (r := Places) (fun _ _ _ => Places.unique) hps]
  constructor
  · rintro ⟨⟨credential, key, text⟩, hmem, hplaces⟩
    cases hplaces with
    | intro hhex => exact ⟨text, mem_secrets_iff.mp hmem, .intro hhex⟩
  · rintro ⟨text, hfind, hplaces⟩
    exact ⟨_, mem_secrets_iff.mpr hfind, hplaces⟩

theorem map_slot_placements : ps.map Placement.slot = SlotMap.slots keys := by
  rw [map_slot_of_places hps, map_secrets]

theorem mem_keysAt_placements_iff {credential key : UInt8} :
    key ∈ Placement.keysAt ps credential ↔
      ∃ text, SlotMap.find? keys credential key = some text := by
  rw [← Placement.mem_slots_iff, map_slot_placements hps, SlotMap.mem_slots_iff]

theorem card_keysAt_eq {c : UInt8 × IndexMap String} (hc : c ∈ keys.entries) :
    (Placement.keysAt ps c.1).card = c.2.size := by
  refine (IndexMap.size_eq_card fun key => ?_).symm
  have hget : keys.get? c.1 = some c.2 := IndexMap.get?_eq_some_iff.mpr hc
  rw [IndexMap.contains_iff, mem_keysAt_placements_iff hps, SlotMap.find?, hget, Option.bind_some]

/-- The signers have as many credentials as have a key. -/
theorem card_credentials_eq :
    (Placement.credentials ps).card = (keys.entries.filter fun c => 0 < c.2.size).length := by
  have hcredentials : Placement.credentials ps =
      ((keys.entries.filter fun c => 0 < c.2.size).map (·.1)).toFinset := by
    ext credential
    have hkeyed : credential ∈ Placement.credentials ps ↔
        ∃ key, key ∈ Placement.keysAt ps credential := by
      simp only [Placement.mem_credentials_iff, Placement.mem_keysAt_iff]
    rw [hkeyed]
    simp only [mem_keysAt_placements_iff hps, SlotMap.find?_eq_some_iff, List.mem_toFinset,
      List.mem_map, List.mem_filter, decide_eq_true_eq]
    constructor
    · rintro ⟨key, text, inner, hc, hk⟩
      exact ⟨(credential, inner), ⟨hc, List.length_pos_of_mem hk⟩, rfl⟩
    · rintro ⟨c, ⟨hc, hpos⟩, rfl⟩
      obtain ⟨k, hk⟩ := List.exists_mem_of_length_pos hpos
      exact ⟨k.1, k.2, c.2, hc, hk⟩
  have hnodup : ((keys.entries.filter fun c => 0 < c.2.size).map (·.1)).Nodup :=
    keys.keys_nodup.sublist (List.filter_sublist.map _)
  rw [hcredentials, List.toFinset_card_of_nodup hnodup, List.length_map]

theorem card_keysAt_le_iff :
    (∀ credential, (Placement.keysAt ps credential).card ≤ 255) ↔
      ∀ c ∈ keys.entries, c.2.size ≤ 255 := by
  constructor
  · intro h c hc
    rw [← card_keysAt_eq hps hc]
    exact h c.1
  · intro h credential
    by_cases hkeyed : ∃ key, key ∈ Placement.keysAt ps credential
    · obtain ⟨key, hkey⟩ := hkeyed
      obtain ⟨text, hfind⟩ := (mem_keysAt_placements_iff hps).mp hkey
      obtain ⟨inner, hc, -⟩ := SlotMap.find?_eq_some_iff.mp hfind
      exact (card_keysAt_eq hps hc).le.trans (h _ hc)
    · have hnone : Placement.keysAt ps credential = ∅ :=
        Finset.eq_empty_of_forall_notMem fun key hkey => hkeyed ⟨key, hkey⟩
      rw [hnone, Finset.card_empty]
      exact Nat.zero_le _

theorem admissible_iff :
    Placement.Admissible ps ↔ (keys.entries.filter fun c => 0 < c.2.size).length ≤ 255 ∧
      ∀ c ∈ keys.entries, c.2.size ≤ 255 := by
  rw [← card_keysAt_le_iff hps, ← card_credentials_eq hps]
  constructor
  · exact fun h => ⟨h.credentials_le, h.keys_le⟩
  · rintro ⟨hcredentials, hkeys⟩
    refine ⟨?_, hcredentials, hkeys⟩
    rw [map_slot_placements hps]
    exact SlotMap.slots_nodup keys

end

/-- The registry has the signers of the secrets of a map at their slots, and no others. -/
def HoldsSecrets (r : Registry) (keys : SlotMap String) : Prop :=
  ∀ credential key signer, SlotMap.find? r.signers credential key = some signer ↔
    ∃ text secret, SlotMap.find? keys credential key = some text ∧
      IsHexOf (Text.trim text) secret.bytes.toList ∧ signer = SecretKey.sign secret

/-- All secrets of a map are keys, and a registry has room for their signers. -/
structure FitsRegistry (keys : SlotMap String) : Prop where
  secrets_spelled : ∀ credential key text, SlotMap.find? keys credential key = some text →
    Spells 32 (Text.trim text)
  credentials_le : (keys.entries.filter fun c => 0 < c.2.size).length ≤ 255
  keys_le : ∀ c ∈ keys.entries, c.2.size ≤ 255

section

variable {keys : SlotMap String} {r : Registry}

theorem places_iff {credential key : UInt8} {text : String} {signer : Signer} :
    Places (credential, key, text) ⟨credential, key, signer⟩ ↔
      ∃ secret, IsHexOf (Text.trim text) secret.bytes.toList ∧ signer = SecretKey.sign secret := by
  constructor
  · rintro ⟨hhex⟩
    exact ⟨_, hhex, rfl⟩
  · rintro ⟨secret, hhex, rfl⟩
    exact .intro hhex

theorem exists_places_iff {s : UInt8 × UInt8 × String} :
    (∃ p, Places s p) ↔ Spells 32 (Text.trim s.2.2) := by
  rw [← exists_fixed_isHexOf_iff]
  constructor
  · rintro ⟨p, ⟨hhex⟩⟩
    exact ⟨_, hhex⟩
  · rintro ⟨b, hhex⟩
    have hsecret : IsHexOf (Text.trim s.2.2) (SecretKey.mk b).bytes.toList := hhex
    exact ⟨_, .intro hsecret⟩

theorem exists_placements_iff :
    (∃ ps, List.Forall₂ Places (secrets keys.entries) ps) ↔
      ∀ credential key text, SlotMap.find? keys credential key = some text →
        Spells 32 (Text.trim text) := by
  rw [exists_forall₂_iff]
  simp only [exists_places_iff, Prod.forall, mem_secrets_iff]

theorem holds_iff {ps : List Placement} (hps : List.Forall₂ Places (secrets keys.entries) ps) :
    r.Holds ps ↔ HoldsSecrets r keys := by
  simp only [Registry.Holds, HoldsSecrets, mem_placements_iff hps, places_iff, exists_and_left]

theorem addCredentials_eq_ok_iff :
    addCredentials keys.entries .empty = .ok r ↔ FitsRegistry keys ∧ HoldsSecrets r keys := by
  rw [addCredentials_eq, foldlM_eq_ok_iff addKey_eq_ok_iff]
  constructor
  · rintro ⟨ps, hps, hcollect⟩
    obtain ⟨hadmissible, hholds⟩ := Registry.collect_eq_ok_iff.mp hcollect
    obtain ⟨hcredentials, hkeys⟩ := (admissible_iff hps).mp hadmissible
    exact ⟨⟨exists_placements_iff.mp ⟨ps, hps⟩, hcredentials, hkeys⟩, (holds_iff hps).mp hholds⟩
  · rintro ⟨⟨hspelled, hcredentials, hkeys⟩, hholds⟩
    obtain ⟨ps, hps⟩ := exists_placements_iff.mpr hspelled
    refine ⟨ps, hps, Registry.collect_eq_ok_iff.mpr ⟨?_, (holds_iff hps).mpr hholds⟩⟩
    exact (admissible_iff hps).mpr ⟨hcredentials, hkeys⟩

theorem exists_holdsSecrets (h : FitsRegistry keys) : ∃ r, HoldsSecrets r keys := by
  obtain ⟨ps, hps⟩ := exists_placements_iff.mpr h.secrets_spelled
  have hadmissible := (admissible_iff hps).mpr ⟨h.credentials_le, h.keys_le⟩
  obtain ⟨r, hcollect⟩ := Registry.exists_collect_iff.mpr hadmissible
  exact ⟨r, (holds_iff hps).mp (Registry.collect_eq_ok_iff.mp hcollect).2⟩

theorem HoldsSecrets.slots_eq (h : HoldsSecrets r keys) (hfits : FitsRegistry keys) :
    r.slots = SlotMap.slots keys := by
  refine SlotMap.slots_congr fun slot => ?_
  obtain ⟨credential, key⟩ := slot
  rw [SlotMap.mem_slots_iff, SlotMap.mem_slots_iff]
  constructor
  · rintro ⟨signer, hfind⟩
    obtain ⟨text, secret, hfind', -⟩ := (h credential key signer).mp hfind
    exact ⟨text, hfind'⟩
  · rintro ⟨text, hfind⟩
    obtain ⟨b, hhex⟩ := exists_fixed_isHexOf_iff.mpr (hfits.secrets_spelled _ _ _ hfind)
    exact ⟨_, (h credential key _).mpr ⟨text, ⟨b⟩, hfind, hhex, rfl⟩⟩

end

/-! ### Accounts -/

/-- An export that an account can be made of: all its secrets are keys and there is room for them,
there is one at least, and the sender is known. -/
structure Export.IsImportable (e : Export) (sender : Option Address) : Prop where
  fits : FitsRegistry e.keys
  has_secret : ∃ credential key text, SlotMap.find? e.keys credential key = some text
  resolves : ∃ a, Resolves e.address sender a

/-- The account of an export: its sender, and the signers of its secrets at their slots. -/
structure Account.IsOf (account : Account) (e : Export) (sender : Option Address)
    (format : Format) : Prop where
  format_eq : account.format = format
  resolves : Resolves e.address sender account.address
  slots_eq : account.signers.slots = SlotMap.slots e.keys
  holds : HoldsSecrets account.signers e.keys

section

variable {e : Export} {format : Format} {sender : Option Address} {account : Account}

theorem slots_ne_nil_iff {keys : SlotMap String} :
    SlotMap.slots keys ≠ [] ↔ ∃ credential key text,
      SlotMap.find? keys credential key = some text := by
  rw [ne_eq, List.eq_nil_iff_forall_not_mem, not_forall_not, Prod.exists]
  simp only [SlotMap.mem_slots_iff]

theorem account_eq_ok_iff :
    e.account format sender = .ok account ↔
      e.IsImportable sender ∧ account.IsOf e sender format := by
  have hempty {r : Registry} (hholds : HoldsSecrets r e.keys) (hfits : FitsRegistry e.keys) :
      r.isEmpty = false ↔ ∃ credential key text,
        SlotMap.find? e.keys credential key = some text := by
    rw [← slots_ne_nil_iff, ← hholds.slots_eq hfits, ne_eq, ← Registry.isEmpty_iff,
      Bool.not_eq_true]
  have haccount : e.account format sender = .ok account ↔
      ∃ a, resolveSender e.address sender = .ok a ∧
        ∃ r, addCredentials e.keys.entries .empty = .ok r ∧ r.isEmpty = false ∧
          ⟨a, r, format⟩ = account := by
    rw [Export.account]
    simp only [except_bind_eq_ok_iff]
    refine exists_congr fun a => and_congr_right fun _ => exists_congr fun r =>
      and_congr_right fun _ => ?_
    cases r.isEmpty <;> simp
  simp only [haccount, resolveSender_eq_ok_iff, addCredentials_eq_ok_iff]
  constructor
  · rintro ⟨a, hresolves, r, ⟨hfits, hholds⟩, hnonempty, rfl⟩
    exact ⟨⟨hfits, (hempty hholds hfits).mp hnonempty, a, hresolves⟩,
      rfl, hresolves, hholds.slots_eq hfits, hholds⟩
  · rintro ⟨⟨hfits, hsecret, -⟩, rfl, hresolves, -, hholds⟩
    exact ⟨_, hresolves, _, ⟨hfits, hholds⟩, (hempty hholds hfits).mpr hsecret, rfl⟩

theorem exists_account_iff :
    (∃ account, e.account format sender = .ok account) ↔ e.IsImportable sender := by
  simp only [account_eq_ok_iff]
  constructor
  · rintro ⟨account, himportable, -⟩
    exact himportable
  · intro himportable
    obtain ⟨a, hresolves⟩ := himportable.resolves
    obtain ⟨r, hholds⟩ := exists_holdsSecrets himportable.fits
    exact ⟨⟨a, r, format⟩, himportable, rfl, hresolves, hholds.slots_eq himportable.fits, hholds⟩

end

end AccountTx.Wallet
