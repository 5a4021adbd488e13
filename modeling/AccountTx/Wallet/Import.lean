import AccountTx.Signing.Registry
import AccountTx.Wallet.Export

/-!
From a key export to a sender and its signers. Exports write addresses in a way that is not read
here, so the sender is given beside the export unless its address is hexadecimal; the two never
disagree. Both formats are tried, and it is the first attempt that is reported.
-/

namespace AccountTx.Wallet

inductive ImportError where
  | malformed
  | senderMismatch (sender exported : Address)
  | addressNotHex (exported : String)
  | invalidKey (credential key : UInt8) (cause : KeyError)
  | signing (cause : SigningError)
  | noKeys
  deriving DecidableEq

/-- The error and what caused it. -/
def ImportError.chain : ImportError → List String
  | .malformed => ["not the document of a key export"]
  | .senderMismatch sender exported =>
      ["sender " ++ sender.hex ++ " does not match the exported address " ++ exported.hex]
  | .addressNotHex exported =>
      ["exported address " ++ Text.quote exported
        ++ " is not hex; pass the sender address with --sender"]
  | .invalidKey credential key cause =>
      [s!"bad sign key at slot ({credential}, {key})", cause.message]
  | .signing cause => [cause.message]
  | .noKeys => ["wallet export holds no sign keys"]

/-- What an export is imported for when none of the formats fits. -/
def notAnExport : String := "not a genesis or browser wallet key export"

/-- A sender and the signers of its account. -/
structure Account where
  address : Address
  signers : Registry
  format : Format

def Account.describe (a : Account) : String :=
  "AccountKeys \x7b address: " ++ a.address.describe ++ ", format: " ++ a.format.name
    ++ ", signatures: " ++ toString a.signers.count ++ " \x7d"

def resolveSender (exported : String) (sender : Option Address) : Except ImportError Address :=
  match sender, (Address.ofHex exported).toOption with
  | some sender, some address =>
      if sender = address then .ok sender else .error (.senderMismatch sender address)
  | some sender, none => .ok sender
  | none, some address => .ok address
  | none, none => .error (.addressNotHex exported)

/-- The registry with the signer of one more key. -/
def addKey (signers : Registry) (credential key : UInt8) (secret : String) :
    Except ImportError Registry :=
  match SecretKey.ofHex secret with
  | .error cause => .error (.invalidKey credential key cause)
  | .ok secret =>
      match signers.add credential key secret.sign with
      | .ok signers => .ok signers
      | .error cause => .error (.signing cause)

/-- The registry with the signers of one more credential. -/
def addKeys (credential : UInt8) (keys : List (UInt8 × String)) (signers : Registry) :
    Except ImportError Registry :=
  keys.foldlM (fun signers k => addKey signers credential k.1 k.2) signers

def addCredentials (credentials : List (UInt8 × IndexMap String)) (signers : Registry) :
    Except ImportError Registry :=
  credentials.foldlM (fun signers c => addKeys c.1 c.2.entries signers) signers

def Export.account (e : Export) (format : Format) (sender : Option Address) :
    Except ImportError Account := do
  let address ← resolveSender e.address sender
  let signers ← addCredentials e.keys.entries .empty
  if signers.isEmpty then .error .noKeys else .ok ⟨address, signers, format⟩

def importAs (format : Format) (d : Json.Document) (sender : Option Address) :
    Except ImportError Account :=
  match Export.ofDocument? format d with
  | some e => e.account format sender
  | none => .error .malformed

/-- The account of an export; where neither format fits, the error is that of the first. -/
def importDocument (d : Json.Document) (sender : Option Address) : Except ImportError Account :=
  match importAs .genesis d sender with
  | .ok account => .ok account
  | .error e =>
      match importAs .browser d sender with
      | .ok account => .ok account
      | .error _ => .error e

/-- The account of an export given as text. -/
def importAccount (raw : String) (sender : Option Address) : Except ImportError Account :=
  match Json.parseDocument raw with
  | some d => importDocument d sender
  | none => .error .malformed

end AccountTx.Wallet
