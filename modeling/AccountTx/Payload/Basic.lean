import AccountTx.TransactionType
import AccountTx.Value.Address
import AccountTx.Value.Amount
import AccountTx.Value.ChainData
import AccountTx.Value.Contract
import AccountTx.Value.Energy

/-!
What an account transaction does. A payload is written as the tag of its type and its fields;
numbers stand with their most significant byte first, and names, parameters, memos and data after
their length in two bytes. The energy that a contract call may use is not written.
-/

namespace AccountTx

inductive Payload where
  | deployModule (module : Bytes)
  | initContract (amount : Amount) (module : ModuleRef) (name : InitName) (parameter : Parameter)
      (maxEnergy : Energy)
  | updateContract (amount : Amount) (contract : ContractAddress) (name : ReceiveName)
      (parameter : Parameter) (maxEnergy : Energy)
  | transfer (amount : Amount) (receiver : Address)
  | registerData (data : ChainData)
  | transferWithMemo (amount : Amount) (receiver : Address) (memo : ChainData)
  deriving DecidableEq

namespace Payload

def type : Payload → TransactionType
  | deployModule .. => .deployModule
  | initContract .. => .initContract
  | updateContract .. => .update
  | transfer .. => .transfer
  | registerData .. => .registerData
  | transferWithMemo .. => .transferWithMemo

/-- Bytes after their number in two bytes. -/
def counted (bytes : Bytes) : Bytes := BigEndian.ofNat 2 bytes.length ++ bytes

def encodeBody : Payload → Bytes
  | deployModule module => module
  | initContract amount module name parameter _ =>
      amount.encode ++ module.bytes.toList ++ counted name.encode ++ counted parameter.bytes
  | updateContract amount contract name parameter _ =>
      amount.encode ++ contract.encode ++ counted name.encode ++ counted parameter.bytes
  | transfer amount receiver => receiver.bytes.toList ++ amount.encode
  | registerData data => counted data.bytes
  | transferWithMemo amount receiver memo =>
      receiver.bytes.toList ++ counted memo.bytes ++ amount.encode

def encode (p : Payload) : Bytes := p.type.tag :: p.encodeBody

/-- The number of bytes that a payload takes, found without writing it. -/
def size : Payload → Nat
  | deployModule module => 1 + module.length
  | initContract _ _ name parameter _ => 1 + 8 + 32 + name.encodedSize + parameter.encodedSize
  | updateContract _ _ name parameter _ => 1 + 8 + 16 + name.encodedSize + parameter.encodedSize
  | transfer .. => 1 + 32 + 8
  | registerData data => 1 + data.encodedSize
  | transferWithMemo _ _ memo => 1 + 32 + memo.encodedSize + 8

/-- The energy charged for what the payload does. -/
def baseCost : Payload → Energy
  | deployModule module => ⟨UInt64.ofNat (Energy.ofModuleLength module.length)⟩
  | initContract _ _ _ _ maxEnergy => maxEnergy
  | updateContract _ _ _ _ maxEnergy => maxEnergy
  | transfer .. => ⟨Limits.fixedCost⟩
  | registerData .. => ⟨Limits.fixedCost⟩
  | transferWithMemo .. => ⟨Limits.fixedCost⟩

/-- The same payload with another allowance for a contract call. -/
def withMaxEnergy (e : Energy) : Payload → Payload
  | initContract amount module name parameter _ => initContract amount module name parameter e
  | updateContract amount contract name parameter _ =>
      updateContract amount contract name parameter e
  | p => p

end Payload

end AccountTx
