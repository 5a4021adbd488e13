import AccountTx.Transaction.Error
import AccountTx.Wallet.Import
import AccountTx.Wire.Reader

/-!
Why a request fails, and how that is reported: what was attempted, and under it the causes, numbered
if there is more than one.
-/

namespace AccountTx.Command

inductive FileError where
  | notFound
  | notADirectory
  | isADirectory
  | nameTooLong
  | other (reason : String)
  deriving DecidableEq

def FileError.message : FileError → String
  | .notFound => "No such file or directory (os error 2)"
  | .notADirectory => "Not a directory (os error 20)"
  | .isADirectory => "Is a directory (os error 21)"
  | .nameTooLong => "File name too long (os error 36)"
  | .other reason => reason

/-- A file with bytes where a text is wanted. -/
def notText : FileError := .other "stream did not contain valid UTF-8"

inductive Failure where
  | receiver (cause : ValueError)
  | memo (cause : ValueError)
  | data (cause : ValueError)
  | moduleFile (path : String) (cause : FileError)
  | keyFile (path : String) (cause : FileError)
  | keys (path : String) (cause : Wallet.ImportError)
  | nonce (cause : ValueError)
  | expiry (cause : ValueError)
  | signing (cause : TransactionError)
  | energy (cause : EnergyError)
  | hex (cause : HexError)
  | blockItem (cause : DecodeError)

namespace Failure

/-- A value that is refused while reading counts as a cause of its own. -/
def decodeChain : DecodeError → List String
  | .invalidValue cause => [(DecodeError.invalidValue cause).message, cause.message]
  | e => [e.message]

/-- The failure and its causes, the outermost first. -/
def chain : Failure → List String
  | receiver cause => ["invalid receiver address", cause.message]
  | memo cause => ["invalid memo", cause.message]
  | data cause => ["invalid data", cause.message]
  | moduleFile path cause => ["failed to read module " ++ path, cause.message]
  | keyFile path cause => ["failed to read key file " ++ path, cause.message]
  | keys path cause => ["invalid key file " ++ path, Wallet.notAnExport] ++ cause.chain
  | nonce cause => ["invalid nonce", cause.message]
  | expiry cause => ["invalid expiry", cause.message]
  | signing cause => ["failed to sign transaction", cause.message]
  | energy cause => [cause.message]
  | hex cause => ["block item is not valid hex", cause.message]
  | blockItem cause => "failed to decode block item" :: decodeChain cause

def causeLines : List String → List String
  | [] => []
  | [cause] => ["", "Caused by:", "    " ++ cause]
  | causes => "" :: "Caused by:" :: causes.zipIdx.map fun c => s!"    {c.2}: " ++ c.1

def report (f : Failure) : List String :=
  match f.chain with
  | [] => []
  | outermost :: causes => ("Error: " ++ outermost) :: causeLines causes

end Failure

end AccountTx.Command
