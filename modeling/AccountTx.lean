import AccountTx.Bytes.Basic
import AccountTx.Bytes.Hex
import AccountTx.Bytes.Sha2
import AccountTx.Command.Arguments
import AccountTx.Command.Error
import AccountTx.Command.Request
import AccountTx.Command.Run
import AccountTx.Command.Setting
import AccountTx.Ed25519.Curve
import AccountTx.Ed25519.Signature
import AccountTx.Form.Binary
import AccountTx.Form.Error
import AccountTx.Form.Payload
import AccountTx.Form.Record
import AccountTx.Form.Transaction
import AccountTx.Form.Value
import AccountTx.Header
import AccountTx.IndexMap
import AccountTx.Json.Basic
import AccountTx.Json.Parse
import AccountTx.Json.Print
import AccountTx.Json.Spelling
import AccountTx.Json.Token
import AccountTx.Key
import AccountTx.Limits
import AccountTx.Main
import AccountTx.Payload.Basic
import AccountTx.Payload.Decode
import AccountTx.Proofs.Assembly.Outcome
import AccountTx.Proofs.Assembly.RoundTrip
import AccountTx.Proofs.Assembly.Signing
import AccountTx.Proofs.BlockItem.Canonical
import AccountTx.Proofs.Energy.Cost
import AccountTx.Proofs.Header.Codec
import AccountTx.Proofs.Payload.Codec
import AccountTx.Proofs.Signing.Codec
import AccountTx.Proofs.Signing.Registry
import AccountTx.Proofs.Signing.Shape
import AccountTx.Proofs.SlotMap.Lookup
import AccountTx.Proofs.SlotMap.Search
import AccountTx.Proofs.Text.Utf8
import AccountTx.Proofs.Value.Checked
import AccountTx.Proofs.Verification.Acceptance
import AccountTx.Proofs.Verification.Verdict
import AccountTx.Proofs.Wire.Reading
import AccountTx.Signing.Error
import AccountTx.Signing.Registry
import AccountTx.Signing.SignatureMap
import AccountTx.Text.Blank
import AccountTx.Text.Decimal
import AccountTx.Text.Printable
import AccountTx.Text.Quoted
import AccountTx.Text.Utf8
import AccountTx.Transaction.Assembly
import AccountTx.Transaction.BlockItem
import AccountTx.Transaction.Error
import AccountTx.Transaction.Message
import AccountTx.Transaction.Signed
import AccountTx.Transaction.Verification
import AccountTx.TransactionType
import AccountTx.Value.Address
import AccountTx.Value.Amount
import AccountTx.Value.Calendar
import AccountTx.Value.ChainData
import AccountTx.Value.Contract
import AccountTx.Value.Energy
import AccountTx.Value.Error
import AccountTx.Value.Expiry
import AccountTx.Value.Nonce
import AccountTx.Value.Stepping
import AccountTx.Value.TransactionHash
import AccountTx.Value.Word
import AccountTx.Wallet.Export
import AccountTx.Wallet.Import
import AccountTx.Wire.Reader
import AccountTx.Proofs.Signing.Collection
import AccountTx.Proofs.Transaction.Authorization
import AccountTx.Proofs.Form.Record
import AccountTx.Proofs.Form.Value
import AccountTx.Proofs.Json.Scanning
import AccountTx.Proofs.Json.RoundTrip
import AccountTx.Proofs.Json.Names
import AccountTx.Proofs.Transaction.Message
import AccountTx.Proofs.Wallet.Reading
import AccountTx.Proofs.Value.HexText
import AccountTx.Proofs.Value.Hexadecimal
import AccountTx.Proofs.Wallet.Account
import AccountTx.Proofs.Wallet.Import
import AccountTx.Transaction.Sharing
import AccountTx.Proofs.Transaction.Rotation
import AccountTx.Proofs.Form.Payload
import AccountTx.Proofs.Form.Order
import AccountTx.Proofs.Json.Layout
import AccountTx.Proofs.Json.Sorting
import AccountTx.Proofs.Text.Blank
import AccountTx.Proofs.Command.Agreement
import AccountTx.Proofs.Form.Binary
import AccountTx.Proofs.Form.Reading
import AccountTx.Proofs.Ed25519.Prime
import AccountTx.Proofs.Ed25519.Field
import AccountTx.Proofs.Ed25519.Point
import AccountTx.Proofs.Admission.Checked
import AccountTx.Proofs.Admission.Value
import AccountTx.Proofs.Admission.Header
import AccountTx.Proofs.Admission.Payload
import AccountTx.Proofs.Admission.Transaction
import AccountTx.Proofs.Assembly.Staged
import AccountTx.Proofs.Signing.Slotwise
import AccountTx.Proofs.Wire.Stability
import AccountTx.Proofs.Wire.Delimitation
import AccountTx.Proofs.BlockItem.Delimitation
import AccountTx.Proofs.BlockItem.Hash
import AccountTx.Proofs.Header.Layout
import AccountTx.Proofs.Admission.FunctionName
import AccountTx.Proofs.SlotMap.Repeats
import AccountTx.Proofs.Form.IndexMap
import AccountTx.Proofs.Form.Signatures
import AccountTx.Proofs.Form.Canonical
import AccountTx.Proofs.Value.Alias
import AccountTx.Proofs.Value.Amount
import AccountTx.Proofs.Value.Expiry
import AccountTx.Proofs.Energy.Module
import AccountTx.Proofs.BlockItem.Size
