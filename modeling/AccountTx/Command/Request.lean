import AccountTx.Command.Arguments
import AccountTx.Limits

/-!
What the program is asked to do: a command with the values of its settings.
-/

namespace AccountTx.Command

/-- Who signs, and what the header is made from. -/
structure SigningOptions where
  keys : String
  sender : Option Address
  nonce : UInt64
  expiryMinutes : UInt64

inductive Request where
  | transfer (receiver : String) (amount : UInt64) (memo : Option String)
      (signing : SigningOptions)
  | registerData (data : String) (signing : SigningOptions)
  | deployModule (path : String) (signing : SigningOptions)
  | energy (signatures payloadSize : UInt32) (baseCost : UInt64)
  | inspect (blockItem : String)
  | version

namespace Given

/-- The value of a setting, if it was given. -/
def optional {α : Type} (given : Given) (s : Setting) (read? : String → Option α) :
    Except Stop (Option α) :=
  match given.lookup s with
  | none => .ok none
  | some text =>
      match read? text with
      | some a => .ok (some a)
      | none => .error .usage

def withDefault {α : Type} (given : Given) (s : Setting) (read? : String → Option α)
    (default : α) : Except Stop α := do
  return (← optional given s read?).getD default

def required {α : Type} (given : Given) (s : Setting) (read? : String → Option α) :
    Except Stop α := do
  match ← optional given s read? with
  | some a => .ok a
  | none => .error .usage

def signing (given : Given) : Except Stop SigningOptions := do
  let keys ← required given .keys path?
  let sender ← optional given .sender address?
  let nonce ← required given .nonce number64?
  let expiryMinutes ← withDefault given .expiryMinutes number64? (Limits.defaultExpirySeconds / 60)
  return ⟨keys, sender, nonce, expiryMinutes⟩

end Given

namespace Request

def ofGiven (given : Given) (operands : List String) : Name → Except Stop Request
  | .transfer => do
      let receiver ← given.required .receiver some
      let amount ← given.required .amount number64?
      let memo ← given.optional .memo some
      return transfer receiver amount memo (← given.signing)
  | .registerData => do
      let data ← given.required .data some
      return registerData data (← given.signing)
  | .deployModule => do
      let path ← given.required .module path?
      return deployModule path (← given.signing)
  | .energy => do
      let signatures ← given.withDefault .signatures number32? 1
      let payloadSize ← given.required .payloadSize number32?
      let baseCost ← given.withDefault .baseCost number64? Limits.fixedCost
      return energy signatures payloadSize baseCost
  | .inspect =>
      match operands with
      | [blockItem] => .ok (inspect blockItem)
      | _ => .error .usage
  | .version => .ok version

/-- The request of a command line. The environment has to be right for the settings before the
command too. -/
def ofArguments (environment : String → Option String) (arguments : List String) :
    Except Stop Request := do
  let scan ← Scan.ofArguments arguments
  match scan.command with
  | none => .error .usage
  | some name =>
      let _ ← withEnvironment environment scan.before.settled (Setting.of none)
      let given ← withEnvironment environment scan.after.settled (Setting.of (some name))
      ofGiven given scan.operands name

/-- The files that a request reads. -/
def paths : Request → List String
  | transfer _ _ _ signing => [signing.keys]
  | registerData _ signing => [signing.keys]
  | deployModule path signing => [path, signing.keys]
  | _ => []

end Request

end AccountTx.Command
