import AccountTx.Command.Error
import AccountTx.Command.Request
import AccountTx.Form.Payload
import AccountTx.Form.Transaction
import AccountTx.Json.Print
import AccountTx.Text.Blank
import AccountTx.Transaction.Assembly

/-!
What the program answers. A request that signs checks what it was given for the payload first, then
the keys, the sequence number and the expiry, and then makes and signs the transaction; the block
item that it prints is what another request takes apart.
-/

namespace AccountTx.Command

/-- What a request depends on beside itself: the clock in seconds, and the files. -/
structure Surroundings where
  now : Int
  file : String → Except FileError Bytes

/-- What is told of a transaction that was signed. -/
structure Receipt where
  hash : TransactionHash
  blockItem : String
  energy : Energy
  payloadSize : PayloadSize

def Receipt.of (t : SignedTransaction) : Receipt where
  hash := t.toBlockItem.hash
  blockItem := Hex.encode t.toBlockItem.bytes
  energy := t.header.energy
  payloadSize := t.header.payloadSize

def Receipt.document (r : Receipt) : Json :=
  .object [("transaction_hash", toJson r.hash), ("block_item", toJson r.blockItem),
    ("energy", toJson r.energy), ("payload_size", toJson r.payloadSize)]

inductive Answer where
  | signed (r : Receipt)
  | energy (e : Energy)
  | inspected (t : SignedTransaction)
  | version

namespace Answer

def inspection (t : SignedTransaction) : Json :=
  .object [("transaction_hash", toJson t.hash), ("transaction_type", toJson t.payload.type),
    ("header", toJson t.header), ("payload", toJson t.payload),
    ("signatures", toJson t.signatures)]

def versionText : String := "ccd-tx 0.1.0"

/-- The lines that are printed. The members of what was inspected are in the order of their
names. -/
def text : Answer → String
  | signed r => Json.pretty r.document
  | energy e => Json.pretty (.object [("energy", toJson e)])
  | inspected t => Json.pretty (inspection t).sorted
  | version => versionText ++ "\nheader " ++ toString Limits.headerSize ++ " bytes"

end Answer

/-- What is printed where the version was asked for by a setting. -/
def versionLine : Option Name → String
  | none => Answer.versionText
  | some name => "ccd-tx-" ++ name.text ++ " 0.1.0"

/-- The account in a file of keys. -/
def loadAccount (s : Surroundings) (path : String) (sender : Option Address) :
    Except Failure Wallet.Account := do
  let bytes ← (s.file path).mapError (.keyFile path)
  match Utf8.decode? bytes with
  | none => .error (.keyFile path notText)
  | some raw => (Wallet.importAccount raw sender).mapError (.keys path)

/-- Signs a payload with all keys of an account. -/
def signPayload (s : Surroundings) (options : SigningOptions) (payload : Payload) :
    Except Failure SignedTransaction := do
  let account ← loadAccount s options.keys options.sender
  let nonce ← (Nonce.ofNumber options.nonce).mapError .nonce
  let expiry ← (Expiry.minutesFrom s.now options.expiryMinutes).mapError .expiry
  let prepared : PreparedTransaction := ⟨account.address, nonce, expiry, payload⟩
  (prepared.sign account.signers).mapError .signing

def transferPayload (receiver : String) (amount : UInt64) (memo : Option String) :
    Except Failure Payload := do
  let receiver ← (Address.ofHex receiver).mapError .receiver
  match memo with
  | none => .ok (.transfer ⟨amount⟩ receiver)
  | some memo => do
      let memo ← (ChainData.ofHex memo).mapError .memo
      return .transferWithMemo ⟨amount⟩ receiver memo

/-- The transaction of a block item in hexadecimal, with white space around it. -/
def inspectText (text : String) : Except Failure SignedTransaction := do
  let bytes ← (Hex.decode (Text.trim text)).mapError .hex
  (BlockItem.decode bytes).mapError .blockItem

def run (s : Surroundings) : Request → Except Failure Answer
  | .transfer receiver amount memo signing => do
      let payload ← transferPayload receiver amount memo
      return .signed (.of (← signPayload s signing payload))
  | .registerData data signing => do
      let data ← (ChainData.ofHex data).mapError .data
      return .signed (.of (← signPayload s signing (.registerData data)))
  | .deployModule path signing => do
      let module ← (s.file path).mapError (.moduleFile path)
      return .signed (.of (← signPayload s signing (.deployModule module)))
  | .energy signatures payloadSize baseCost => do
      let cost := Energy.cost signatures ⟨baseCost⟩ Limits.headerSize payloadSize
      return .energy (← cost.mapError .energy)
  | .inspect blockItem => do
      return .inspected (← inspectText blockItem)
  | .version => .ok .version

end AccountTx.Command
