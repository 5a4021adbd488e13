import AccountTx.Value.Error

/-!
Account addresses. The first 29 bytes tell which account it is and the last three which of its
aliases, so every account has as many addresses as three bytes can number.
-/

namespace AccountTx

structure Address where
  bytes : FixedBytes 32
  deriving DecidableEq

namespace Address

theorem length_bytes (a : Address) : a.bytes.toList.length = Limits.addressLength :=
  a.bytes.length_eq

def what : String := "account address"

def ofBytes (bytes : Bytes) : Except ValueError Address :=
  (FixedBytes.ofBytes what 32 bytes).map mk

def ofHex (text : String) : Except ValueError Address :=
  (FixedBytes.ofHex what 32 text).map mk

def hex (a : Address) : String := a.bytes.hex

def describe (a : Address) : String := "AccountAddress(" ++ a.hex ++ ")"

/-- The bytes that all addresses of an account share. -/
def identity (a : Address) : Bytes := a.bytes.toList.take Limits.addressIdentityLength

def IsAliasOf (a b : Address) : Prop := a.identity = b.identity

instance (a b : Address) : Decidable (a.IsAliasOf b) :=
  inferInstanceAs (Decidable (a.identity = b.identity))

/-- The alias with a given number. -/
def nthAlias (a : Address) (n : UInt32) : Except ValueError Address :=
  if n > Limits.maxAlias then .error (.aliasOutOfRange Limits.maxAlias n)
  else .ok ⟨a.identity ++ (BigEndian.ofNat 4 n.toNat).drop 1, by
    simp [identity, Limits.addressIdentityLength, a.bytes.length_eq]⟩

end Address

end AccountTx
