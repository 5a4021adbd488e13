import AccountTx.Bytes.Hex
import AccountTx.Limits

/-!
What can be wrong with a value that is built from numbers, bytes or text.
-/

namespace AccountTx

/-- A computation of an amount whose exact result is no amount. -/
inductive AmountFault where
  | conversion (ccd : UInt64)
  | sum (a b : UInt64)
  | difference (a b : UInt64)
  deriving DecidableEq

def AmountFault.message : AmountFault → String
  | .conversion ccd => s!"{ccd} CCD * {Limits.microPerCcd} does not fit in u64"
  | .sum a b => s!"{a} + {b} does not fit in u64"
  | .difference a b => s!"{a} - {b} is negative"

/-- The rule that a contract function name breaks. -/
inductive NameFault where
  | tooLong
  | badCharacter
  | noInitPrefix
  | dotInInitName
  | noDot
  deriving DecidableEq

def NameFault.message : NameFault → String
  | .tooLong => "longer than 100 characters"
  | .badCharacter => "only ASCII alphanumerics and punctuation are allowed"
  | .noInitPrefix => "init names must start with \"init_\""
  | .dotInInitName => "init names must not contain '.'"
  | .noDot => "receive names must have the form <contract>.<entrypoint>"

inductive ValueError where
  | wrongLength (what : String) (expected actual : Nat)
  | invalidHex (what : String) (fault : HexError)
  | zeroNonce
  | nonceOverflow (nonce : UInt64)
  | aliasOutOfRange (max actual : UInt32)
  | amountOverflow (fault : AmountFault)
  | expiryOutOfRange (seconds : UInt64)
  | expiryBeforeEpoch (seconds : Int)
  | invalidName (name : String) (fault : NameFault)
  | parameterTooLarge (max actual : Nat)
  | dataTooLarge (max actual : Nat)
  deriving DecidableEq

def ValueError.message : ValueError → String
  | .wrongLength what expected actual =>
      s!"invalid length for {what}: expected {expected} bytes, got {actual}"
  | .invalidHex what fault => s!"invalid hex for {what}: " ++ fault.message
  | .zeroNonce => "account sequence numbers must be at least 1"
  | .nonceOverflow nonce => s!"sequence number {nonce} cannot be incremented"
  | .aliasOutOfRange max actual => s!"alias index can be at most {max}, got {actual}"
  | .amountOverflow fault => "amount arithmetic overflowed: " ++ fault.message
  | .expiryOutOfRange seconds => s!"expiry {seconds} exceeds the maximum unix timestamp"
  | .expiryBeforeEpoch seconds => s!"expiry {seconds} is before the unix epoch"
  | .invalidName name fault =>
      let shown := Text.quote name
      s!"invalid contract function name {shown}: " ++ fault.message
  | .parameterTooLarge max actual =>
      s!"parameter of {actual} bytes exceeds the maximum of {max}"
  | .dataTooLarge max actual =>
      s!"on-chain data of {actual} bytes exceeds the maximum of {max}"

namespace FixedBytes

/-- Bytes for a field that holds exactly `n`; `what` names the field. -/
def ofBytes (what : String) (n : Nat) (bytes : Bytes) : Except ValueError (FixedBytes n) :=
  match ofList? n bytes with
  | some fixed => .ok fixed
  | none => .error (.wrongLength what n bytes.length)

def ofHex (what : String) (n : Nat) (text : String) : Except ValueError (FixedBytes n) :=
  match Hex.decode text with
  | .ok bytes => ofBytes what n bytes
  | .error fault => .error (.invalidHex what fault)

def hex {n : Nat} (b : FixedBytes n) : String := Hex.encode b.toList

end FixedBytes

end AccountTx
