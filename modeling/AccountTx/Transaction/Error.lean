import AccountTx.Signing.Error
import AccountTx.Value.Energy
import AccountTx.Value.Expiry
import AccountTx.Value.TransactionHash

/-!
Why a transaction is not made, or not accepted.
-/

namespace AccountTx

inductive TransactionError where
  | energy (cause : EnergyError)
  | signing (cause : SigningError)
  | payloadTooLarge (size : Nat)
  | hashMismatch (remote computed : TransactionHash)
  | expired (expiry : Expiry)
  | insufficientEnergy (allowance required : Energy)
  | invalidSignature (credential key : UInt8)
  deriving DecidableEq

def TransactionError.message : TransactionError → String
  | .energy cause => cause.message
  | .signing cause => cause.message
  | .payloadTooLarge size => s!"payload of {size} bytes does not fit in a transaction"
  | .hashMismatch remote computed =>
      "remote transaction hash " ++ remote.hex ++ " does not match local hash " ++ computed.hex
  | .expired expiry => "transaction expired at " ++ expiry.toText
  | .insufficientEnergy allowance required =>
      "energy allowance " ++ allowance.toText ++ " is below the required minimum "
        ++ required.toText
  | .invalidSignature credential key =>
      s!"signature of credential {credential}, key {key} does not verify"

end AccountTx
