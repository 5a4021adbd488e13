import AccountTx.Value.Error

/-!
Data that a transaction puts on the chain: the memo of a transfer, or data registered by itself.
-/

namespace AccountTx

structure ChainData where
  bytes : Bytes
  length_le : bytes.length ≤ Limits.maxDataLength
  deriving DecidableEq

namespace ChainData

def what : String := "on-chain data"

def ofBytes (bytes : Bytes) : Except ValueError ChainData :=
  if h : bytes.length ≤ Limits.maxDataLength then .ok ⟨bytes, h⟩
  else .error (.dataTooLarge Limits.maxDataLength bytes.length)

def ofHex (text : String) : Except ValueError ChainData :=
  match Hex.decode text with
  | .ok bytes => ofBytes bytes
  | .error fault => .error (.invalidHex what fault)

def hex (d : ChainData) : String := Hex.encode d.bytes

def describe (d : ChainData) : String := "OnChainData(" ++ d.hex ++ ")"

def encodedSize (d : ChainData) : Nat := 2 + d.bytes.length

end ChainData

end AccountTx
