import AccountTx.Bytes.Hex
import AccountTx.Ed25519.Signature
import AccountTx.Limits
import AccountTx.Text.Blank

/-!
The keys of an account. A secret key signs; a public key is 32 bytes that are a point of the curve,
and checks signatures. The texts of keys may have white space around them.
-/

namespace AccountTx

inductive KeyError where
  | wrongLength (expected actual : Nat)
  | invalidHex
  | notAPoint
  deriving DecidableEq

def KeyError.message : KeyError → String
  | .wrongLength expected actual =>
      s!"invalid key length: expected {expected} bytes, got {actual}"
  | .invalidHex => "key is not valid hex"
  | .notAPoint => "invalid public key bytes: not a valid Ed25519 point"

/-- The 32 bytes of a key given in hexadecimal. -/
def keyBytes (text : String) : Except KeyError (FixedBytes 32) :=
  match Hex.decode (Text.trim text) with
  | .error _ => .error .invalidHex
  | .ok bytes =>
      match FixedBytes.ofList? 32 bytes with
      | some fixed => .ok fixed
      | none => .error (.wrongLength 32 bytes.length)

structure PublicKey where
  bytes : FixedBytes 32
  deriving DecidableEq

namespace PublicKey

theorem length_bytes (k : PublicKey) : k.bytes.toList.length = Limits.publicKeyLength :=
  k.bytes.length_eq

def ofFixed (bytes : FixedBytes 32) : Except KeyError PublicKey :=
  if Ed25519.isPoint bytes.toList then .ok ⟨bytes⟩ else .error .notAPoint

def ofBytes (bytes : Bytes) : Except KeyError PublicKey :=
  match FixedBytes.ofList? 32 bytes with
  | some fixed => ofFixed fixed
  | none => .error (.wrongLength 32 bytes.length)

def ofHex (text : String) : Except KeyError PublicKey := (keyBytes text).bind ofFixed

def hex (k : PublicKey) : String := Hex.encode k.bytes.toList

def describe (k : PublicKey) : String := "Ed25519PublicKey(" ++ k.hex ++ ")"

/-- Whether a byte string is a signature of the message under this key. -/
def verify (k : PublicKey) (message signature : Bytes) : Bool :=
  Ed25519.verify k.bytes.toList message signature

end PublicKey

structure SecretKey where
  bytes : FixedBytes 32
  deriving DecidableEq

namespace SecretKey

theorem length_bytes (k : SecretKey) : k.bytes.toList.length = Limits.secretKeyLength :=
  k.bytes.length_eq

def ofBytes (bytes : Bytes) : Except KeyError SecretKey :=
  match FixedBytes.ofList? 32 bytes with
  | some fixed => .ok ⟨fixed⟩
  | none => .error (.wrongLength 32 bytes.length)

def ofHex (text : String) : Except KeyError SecretKey := (keyBytes text).map mk

def hex (k : SecretKey) : String := Hex.encode k.bytes.toList

def publicKey (k : SecretKey) : PublicKey :=
  ⟨Ed25519.publicKey k.bytes.toList, Ed25519.length_publicKey _⟩

/-- Shows the public half of the key only. -/
def describe (k : SecretKey) : String :=
  "Ed25519SignKey \x7b public_key: \"" ++ k.publicKey.hex ++ "\", .. \x7d"

def sign (k : SecretKey) (message : Bytes) : Bytes := Ed25519.sign k.bytes.toList message

theorem length_sign (k : SecretKey) (message : Bytes) :
    (k.sign message).length = Limits.signatureLength :=
  Ed25519.length_sign _ _

end SecretKey

end AccountTx
