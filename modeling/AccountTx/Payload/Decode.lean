import AccountTx.Payload.Basic
import AccountTx.Wire.Reader

/-!
Reading a payload from its bytes. Each value is checked as soon as it has been read, before the
fields after it.
-/

namespace AccountTx.Payload

def readAmount : Reader Amount := do
  return ⟨← Reader.word "amount"⟩

def readReceiver : Reader Address := do
  return ⟨← Reader.fixed "receiver" 32⟩

def readParameter : Reader Parameter := do
  Reader.check (Parameter.ofBytes (← Reader.counted "parameter"))

/-- A name that is not UTF-8 turns into a text that no name has. -/
def readInitName : Reader InitName := do
  Reader.check (InitName.ofText (Utf8.decodeLossy (← Reader.counted "init name")))

def readReceiveName : Reader ReceiveName := do
  Reader.check (ReceiveName.ofText (Utf8.decodeLossy (← Reader.counted "receive name")))

def readContract : Reader ContractAddress := do
  let index ← Reader.word "contract index"
  let subindex ← Reader.word "contract subindex"
  return ⟨index, subindex⟩

/-- The fields of a payload of a type; `maxEnergy` is what a contract call may use. -/
def readBody (maxEnergy : Energy) : TransactionType → Reader Payload
  | .deployModule => do
      return deployModule (← Reader.all)
  | .initContract => do
      let amount ← readAmount
      let module ← Reader.fixed "module reference" 32
      let name ← readInitName
      let parameter ← readParameter
      return initContract amount ⟨module⟩ name parameter maxEnergy
  | .update => do
      let amount ← readAmount
      let contract ← readContract
      let name ← readReceiveName
      let parameter ← readParameter
      return updateContract amount contract name parameter maxEnergy
  | .transfer => do
      let receiver ← readReceiver
      let amount ← readAmount
      return transfer amount receiver
  | .registerData => do
      return registerData (← Reader.check (ChainData.ofBytes (← Reader.counted "data")))
  | .transferWithMemo => do
      let receiver ← readReceiver
      let memo ← Reader.check (ChainData.ofBytes (← Reader.counted "memo"))
      let amount ← readAmount
      return transferWithMemo amount receiver memo
  | type => Reader.fail (.unsupportedTransactionType type.tag)

def read (maxEnergy : Energy) : Reader Payload := do
  let tag ← Reader.byte "transaction type"
  match TransactionType.ofTag? tag with
  | some type => readBody maxEnergy type
  | none => Reader.fail (.unsupportedTransactionType tag)

def decodeWithEnergy (bytes : Bytes) (maxEnergy : Energy) : Except DecodeError Payload :=
  Reader.complete "payload" (read maxEnergy) bytes

/-- Contract calls are read with no energy, since their allowance is not written. -/
def decode (bytes : Bytes) : Except DecodeError Payload := decodeWithEnergy bytes .zero

end AccountTx.Payload
