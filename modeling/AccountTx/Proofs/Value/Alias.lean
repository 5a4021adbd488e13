import AccountTx.Value.Address
import Mathlib.SetTheory.Cardinal.Finite

/-!
The aliases of an account. An address is the identity of its account and the number of the alias,
and the two determine it: for every identity there is one address for each number of three bytes.
-/

namespace AccountTx.Address

variable {a b c : Address} {n m : UInt32}

/-- The number of an alias: its last three bytes. -/
def aliasNumber (a : Address) : Nat :=
  BigEndian.toNat (a.bytes.toList.drop Limits.addressIdentityLength)

theorem length_identity (a : Address) : a.identity.length = Limits.addressIdentityLength := by
  rw [identity, List.length_take, a.length_bytes]
  rfl

theorem length_drop_identity (a : Address) :
    (a.bytes.toList.drop Limits.addressIdentityLength).length = 3 := by
  rw [List.length_drop, a.length_bytes]
  rfl

theorem aliasNumber_lt (a : Address) : a.aliasNumber < 2 ^ 24 := by
  have h := BigEndian.toNat_lt (a.bytes.toList.drop Limits.addressIdentityLength)
  rw [a.length_drop_identity] at h
  exact h

/-- The bytes of an address are those of its identity and of its number. -/
theorem identity_append_aliasNumber (a : Address) :
    a.identity ++ BigEndian.ofNat 3 a.aliasNumber = a.bytes.toList := by
  have hnumber := BigEndian.ofNat_toNat (a.bytes.toList.drop Limits.addressIdentityLength)
  rw [a.length_drop_identity] at hnumber
  rw [aliasNumber, hnumber, identity, List.take_append_drop]

theorem bytes_eq_iff {number : Nat} (h : number < 2 ^ 24) :
    b.bytes.toList = a.identity ++ BigEndian.ofNat 3 number ↔
      b.identity = a.identity ∧ b.aliasNumber = number := by
  constructor
  · intro hbytes
    have hlength := a.length_identity
    constructor
    · rw [identity, hbytes]
      exact List.take_left' hlength
    · rw [aliasNumber, hbytes, List.drop_left' hlength]
      exact BigEndian.toNat_ofNat_of_lt h
  · rintro ⟨hidentity, rfl⟩
    rw [← hidentity, b.identity_append_aliasNumber]

theorem eq_iff : a = b ↔ a.identity = b.identity ∧ a.aliasNumber = b.aliasNumber := by
  rw [← bytes_eq_iff b.aliasNumber_lt, b.identity_append_aliasNumber, ← FixedBytes.ext_iff]
  obtain ⟨bytes⟩ := a
  obtain ⟨bytes'⟩ := b
  rw [mk.injEq]

/-! ### The alias of a number -/

theorem maxAlias_lt_iff : Limits.maxAlias < n ↔ 2 ^ 24 ≤ n.toNat := by
  rw [UInt32.lt_iff_toNat_lt]
  exact Nat.lt_iff_add_one_le

/-- The alias of a number is the address of the account that has this number. -/
theorem nthAlias_eq_ok_iff :
    a.nthAlias n = .ok b ↔ b.IsAliasOf a ∧ b.aliasNumber = n.toNat := by
  rw [IsAliasOf, nthAlias]
  split
  next hmax =>
    have hlarge := maxAlias_lt_iff.mp hmax
    have hnumber := b.aliasNumber_lt
    constructor
    · intro h
      cases h
    · intro h
      omega
  next hmax =>
    have hsmall := Nat.not_le.mp (mt maxAlias_lt_iff.mpr hmax)
    rw [← bytes_eq_iff hsmall, Except.ok.injEq]
    obtain ⟨bytes⟩ := b
    rw [mk.injEq, FixedBytes.ext_iff, eq_comm]
    rfl

theorem exists_nthAlias_iff : (∃ b, a.nthAlias n = .ok b) ↔ n.toNat < 2 ^ 24 := by
  constructor
  · rintro ⟨b, h⟩
    rw [← (nthAlias_eq_ok_iff.mp h).2]
    exact b.aliasNumber_lt
  · intro h
    exact ⟨_, if_neg fun hmax => Nat.not_le.mpr h (maxAlias_lt_iff.mp hmax)⟩

theorem nthAlias_eq_nthAlias_iff (hn : n.toNat < 2 ^ 24) :
    a.nthAlias n = b.nthAlias m ↔ a.IsAliasOf b ∧ n = m := by
  obtain ⟨c, hc⟩ := exists_nthAlias_iff (a := a).mpr hn
  obtain ⟨hidentity, hnumber⟩ := nthAlias_eq_ok_iff.mp hc
  rw [hc, eq_comm, nthAlias_eq_ok_iff, hnumber, UInt32.toNat_inj, IsAliasOf, IsAliasOf, hidentity]

theorem isAliasOf_equivalence : Equivalence IsAliasOf :=
  ⟨fun _ => rfl, Eq.symm, Eq.trans⟩

theorem isAliasOf_iff_existsUnique :
    b.IsAliasOf a ↔ ∃! n : UInt32, n.toNat < 2 ^ 24 ∧ a.nthAlias n = .ok b := by
  constructor
  · intro h
    have hnumber : (UInt32.ofNat b.aliasNumber).toNat = b.aliasNumber :=
      UInt32.toNat_ofNat_of_lt' (Nat.lt_trans b.aliasNumber_lt (by decide))
    refine ⟨UInt32.ofNat b.aliasNumber, ⟨?_, nthAlias_eq_ok_iff.mpr ⟨h, hnumber.symm⟩⟩, ?_⟩
    · show (UInt32.ofNat b.aliasNumber).toNat < 2 ^ 24
      rw [hnumber]
      exact b.aliasNumber_lt
    · rintro m ⟨-, hm⟩
      apply UInt32.toNat_inj.mp
      rw [hnumber, (nthAlias_eq_ok_iff.mp hm).2]
  · rintro ⟨n, ⟨-, hn⟩, -⟩
    exact (nthAlias_eq_ok_iff.mp hn).1

/-- The addresses of an account are numbered without gaps. -/
theorem card_isAliasOf (a : Address) : Nat.card { b : Address // b.IsAliasOf a } = 2 ^ 24 := by
  let number : { b : Address // b.IsAliasOf a } → Fin (2 ^ 24) :=
    fun b => ⟨b.1.aliasNumber, b.1.aliasNumber_lt⟩
  have hbijective : Function.Bijective number := by
    constructor
    · intro b c h
      exact Subtype.ext (eq_iff.mpr ⟨b.2.trans c.2.symm, Fin.mk.inj h⟩)
    · intro k
      have hk : (UInt32.ofNat k).toNat = k :=
        UInt32.toNat_ofNat_of_lt' (Nat.lt_trans k.isLt (by decide))
      obtain ⟨b, hb⟩ := exists_nthAlias_iff (a := a).mpr (hk ▸ k.isLt)
      obtain ⟨halias, hnumber⟩ := nthAlias_eq_ok_iff.mp hb
      exact ⟨⟨b, halias⟩, Fin.ext (hnumber.trans hk)⟩
  rw [Nat.card_eq_of_bijective number hbijective, Nat.card_eq_fintype_card, Fintype.card_fin]

/-- What holds of the aliases of all accounts. -/
structure AliasLaws : Prop where
  equivalence : Equivalence IsAliasOf
  numbers (a : Address) (n : UInt32) : (∃ b, a.nthAlias n = .ok b) ↔ n.toNat < 2 ^ 24
  equal_iff (a b : Address) (n m : UInt32) : n.toNat < 2 ^ 24 → m.toNat < 2 ^ 24 →
    (a.nthAlias n = b.nthAlias m ↔ a.IsAliasOf b ∧ n = m)
  numbered (a b : Address) :
    b.IsAliasOf a ↔ ∃! n : UInt32, n.toNat < 2 ^ 24 ∧ a.nthAlias n = .ok b
  number (a b : Address) (n : UInt32) : a.nthAlias n = .ok b →
    n.toNat = BigEndian.toNat (b.bytes.toList.drop 29)
  overwrites (a b : Address) (n m : UInt32) : a.nthAlias n = .ok b → b.nthAlias m = a.nthAlias m
  card (a : Address) : Nat.card { b : Address // b.IsAliasOf a } = 2 ^ 24

/-- To be an alias is to have the same account, the aliases of an account are numbered by the
numbers of three bytes, one to one, and an alias has no trace of the one that it was made from. -/
theorem alias_arithmetic : AliasLaws where
  equivalence := isAliasOf_equivalence
  numbers _ _ := exists_nthAlias_iff
  equal_iff _ _ _ _ hn _ := nthAlias_eq_nthAlias_iff hn
  numbered _ _ := isAliasOf_iff_existsUnique
  number _ _ _ h := (nthAlias_eq_ok_iff.mp h).2.symm
  overwrites a b n m h := by
    have hidentity : b.identity = a.identity := (nthAlias_eq_ok_iff.mp h).1
    rw [nthAlias, nthAlias]
    simp only [hidentity]
  card := card_isAliasOf

/-- An address of which every byte is four. -/
def fours : Address := ⟨⟨List.replicate 32 4, rfl⟩⟩

theorem aliases_of_fours :
    (255 : UInt32).toNat < 2 ^ 24 ∧ (256 : UInt32).toNat < 2 ^ 24 ∧
      fours.nthAlias 255 ≠ fours.nthAlias 256 ∧
      ∃ b, fours.nthAlias 256 = .ok b ∧ BigEndian.toNat (b.bytes.toList.drop 29) = 256 ∧
        b.nthAlias 255 = fours.nthAlias 255 := by
  have hlow : (255 : UInt32).toNat < 2 ^ 24 := by decide
  have hhigh : (256 : UInt32).toNat < 2 ^ 24 := by decide
  refine ⟨hlow, hhigh, fun heq => ?_, _, rfl, ?_, alias_arithmetic.overwrites _ _ 256 255 rfl⟩
  · have hsame := (alias_arithmetic.equal_iff fours fours 255 256 hlow hhigh).mp heq
    exact absurd hsame.2 (by decide)
  · exact (alias_arithmetic.number fours _ 256 rfl).symm

end AccountTx.Address
