import AccountTx.Key
import AccountTx.Signing.Error
import AccountTx.Value.Error

/-!
Why a document is not the form of a value: it does not have the shape of one, or it has and what it
says is refused.
-/

namespace AccountTx

/-- A rule that a document of the right shape breaks. -/
inductive Refusal where
  | hex (fault : HexError)
  | wrongLength (expected actual : Nat)
  | value (cause : ValueError)
  | key (cause : KeyError)
  | signatures (cause : SigningError)
  /-- The bytes of a text are no UTF-8. -/
  | notText
  deriving DecidableEq

def Refusal.message : Refusal → String
  | .hex fault => fault.message
  | .wrongLength expected actual => s!"expected {expected} bytes, found {actual}"
  | .value cause => cause.message
  | .key cause => cause.message
  | .signatures cause => cause.message
  | .notText => "string is not valid utf8"

inductive FormError where
  | shape
  | refused (cause : Refusal)
  deriving DecidableEq

namespace FormError

def ofValue {α : Type} : Except ValueError α → Except FormError α :=
  Except.mapError fun e => .refused (.value e)

def ofKey {α : Type} : Except KeyError α → Except FormError α :=
  Except.mapError fun e => .refused (.key e)

def ofSigning {α : Type} : Except SigningError α → Except FormError α :=
  Except.mapError fun e => .refused (.signatures e)

end FormError

end AccountTx
