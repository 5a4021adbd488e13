import AccountTx.Limits

/-!
What can go wrong when signers are collected and asked to sign.
-/

namespace AccountTx

inductive SigningError where
  | noSigners
  | duplicateKey (credential key : UInt8)
  | tooManyCredentials (max : Nat)
  | tooManyKeys (credential : UInt8) (max : Nat)
  | signatureTooLong (credential key : UInt8) (length : Nat)
  | signatureCountMismatch (expected actual : UInt32)
  deriving DecidableEq

def SigningError.message : SigningError → String
  | .noSigners => "no signers registered"
  | .duplicateKey credential key =>
      s!"a signer is already registered for credential {credential}, key {key}"
  | .tooManyCredentials max => s!"at most {max} credentials can sign a transaction"
  | .tooManyKeys credential max =>
      s!"credential {credential} can have at most {max} signing keys"
  | .signatureTooLong credential key length =>
      s!"signature from credential {credential}, key {key} is {length} bytes long"
  | .signatureCountMismatch expected actual =>
      s!"energy was computed for {expected} signatures but the signer produces {actual}"

end AccountTx
