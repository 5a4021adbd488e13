import AccountTx.Value.Address

/-!
The commands of the program and what can be set for each: the names under which a setting is given,
the variable of the environment that stands in for it, and the texts that it takes.
-/

namespace AccountTx.Command

inductive Name where
  | transfer
  | registerData
  | deployModule
  | energy
  | inspect
  | version
  deriving DecidableEq

inductive Setting where
  | logFormat
  | logLevel
  | keys
  | sender
  | nonce
  | expiryMinutes
  | receiver
  | amount
  | memo
  | data
  | module
  | signatures
  | payloadSize
  | baseCost
  deriving DecidableEq

def Name.text : Name → String
  | .transfer => "transfer"
  | .registerData => "register-data"
  | .deployModule => "deploy-module"
  | .energy => "energy"
  | .inspect => "inspect"
  | .version => "version"

def Name.all : List Name := [.transfer, .registerData, .deployModule, .energy, .inspect, .version]

def Name.ofText? (text : String) : Option Name := all.find? fun n => n.text == text

/-- How many operands a command takes at most. -/
def Name.operands : Name → Nat
  | .inspect => 1
  | _ => 0

namespace Setting

/-- What can be set before the command as well as after it. The log is not kept here, and its
settings are only looked at for their form. -/
def shared : List Setting := [.logFormat, .logLevel]

def signing : List Setting := [.keys, .sender, .nonce, .expiryMinutes]

/-- What can be set after a command, or before any. -/
def of : Option Name → List Setting
  | some .transfer => [.receiver, .amount, .memo] ++ signing ++ shared
  | some .registerData => [.data] ++ signing ++ shared
  | some .deployModule => [.module] ++ signing ++ shared
  | some .energy => [.signatures, .payloadSize, .baseCost] ++ shared
  | some .inspect => shared
  | some .version => shared
  | none => shared

def text : Setting → String
  | logFormat => "log-format"
  | logLevel => "log-level"
  | keys => "keys"
  | sender => "sender"
  | nonce => "nonce"
  | expiryMinutes => "expiry-minutes"
  | receiver => "to"
  | amount => "amount"
  | memo => "memo"
  | data => "data"
  | module => "module"
  | signatures => "signatures"
  | payloadSize => "payload-size"
  | baseCost => "base-cost"

def letter? : Setting → Option Char
  | keys => some 'k'
  | nonce => some 'n'
  | _ => none

def environmentName? : Setting → Option String
  | logFormat => some "CCD_LOG_FORMAT"
  | logLevel => some "CCD_LOG_LEVEL"
  | keys => some "CCD_KEYS_FILE"
  | sender => some "CCD_SENDER"
  | expiryMinutes => some "CCD_EXPIRY_MINUTES"
  | _ => none

def environmentNames : List String := (shared ++ signing).filterMap environmentName?

end Setting

def digits? (digits : List Char) : Option Nat :=
  if digits.isEmpty || !digits.all Char.isDigit then none
  else some (digits.foldl (fun n c => n * 10 + (c.toNat - 48)) 0)

/-- A decimal number, which may have a plus before it. -/
def natural? (text : String) : Option Nat :=
  match text.toList with
  | '+' :: cs => digits? cs
  | cs => digits? cs

def number64? (text : String) : Option UInt64 :=
  (natural? text).bind fun n => if n < UInt64.size then some (UInt64.ofNat n) else none

/-- Narrow numbers are read with a sign of either kind, so that minus zero is zero. -/
def number32? (text : String) : Option UInt32 :=
  let n? : Option Nat := match text.toList with
    | '-' :: cs => (digits? cs).bind fun n => if n = 0 then some 0 else none
    | _ => natural? text
  n?.bind fun n => if n < UInt32.size then some (UInt32.ofNat n) else none

def address? (text : String) : Option Address := (Address.ofHex text).toOption

def path? (text : String) : Option String := if text.isEmpty then none else some text

def logFormat? (text : String) : Option String :=
  let name := text.toLower
  if name = "pretty" ∨ name = "json" then some name else none

/-- Whether a text is a value for a setting. -/
def Setting.accepts (text : String) : Setting → Bool
  | logFormat => (logFormat? text).isSome
  | keys => (path? text).isSome
  | module => (path? text).isSome
  | sender => (address? text).isSome
  | nonce => (number64? text).isSome
  | expiryMinutes => (number64? text).isSome
  | amount => (number64? text).isSome
  | baseCost => (number64? text).isSome
  | signatures => (number32? text).isSome
  | payloadSize => (number32? text).isSome
  | logLevel => true
  | receiver => true
  | memo => true
  | data => true

end AccountTx.Command
