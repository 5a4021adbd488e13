import AccountTx.Value.Error

/-!
The hash by which the chain knows a transaction.
-/

namespace AccountTx

structure TransactionHash where
  bytes : FixedBytes 32
  deriving DecidableEq

namespace TransactionHash

theorem length_bytes (h : TransactionHash) : h.bytes.toList.length = Limits.hashLength :=
  h.bytes.length_eq

def what : String := "transaction hash"

def ofBytes (bytes : Bytes) : Except ValueError TransactionHash :=
  (FixedBytes.ofBytes what 32 bytes).map mk

def ofHex (text : String) : Except ValueError TransactionHash :=
  (FixedBytes.ofHex what 32 text).map mk

def hex (h : TransactionHash) : String := h.bytes.hex

def describe (h : TransactionHash) : String := "TransactionHash(" ++ h.hex ++ ")"

end TransactionHash

end AccountTx
