import AccountTx.Bytes.Sha2
import AccountTx.Ed25519.Curve

/-!
Signing and verifying with Ed25519. A signature is a point and a scalar; verifying recomputes the
point from the scalar and compares its bytes with those of the signature.
-/

namespace AccountTx.Ed25519

/-- A number written with its least significant byte first. -/
def littleEndian (bytes : Bytes) : Nat := BigEndian.toNat bytes.reverse

/-- The scalar of a secret key: the low half of its hash with the bits fixed that every such scalar
has in common. -/
def secretScalar (hashed : Bytes) : Nat :=
  let n := littleEndian (hashed.take 32)
  n % Nat.pow 2 254 / 8 * 8 + Nat.pow 2 254

def publicKey (seed : Bytes) : Bytes :=
  (Point.scale (secretScalar (sha512 seed).toList) Point.base).compress

theorem length_publicKey (seed : Bytes) : (publicKey seed).length = 32 := by
  simp [publicKey, Point.compress]

/-- The scalar that binds a signature to its point, its key and its message. -/
def challenge (point key message : Bytes) : Nat :=
  littleEndian (sha512 (point ++ key ++ message)).toList % order

def sign (seed message : Bytes) : Bytes :=
  let hashed := (sha512 seed).toList
  let secret := secretScalar hashed
  let key := (Point.scale secret Point.base).compress
  let nonce := littleEndian (sha512 (hashed.drop 32 ++ message)).toList % order
  let point := (Point.scale nonce Point.base).compress
  let scalar := (nonce + challenge point key message * secret) % order
  point ++ (BigEndian.ofNat 32 scalar).reverse

theorem length_sign (seed message : Bytes) : (sign seed message).length = 64 := by
  simp [sign, Point.compress]

/-- Whether 32 bytes are the height and parity of a point. -/
def isPoint (bytes : Bytes) : Bool := (Point.decompress? bytes).isSome

/-- A signature has 64 bytes, and its scalar is below the order of the base point. -/
def verify (key message signature : Bytes) : Bool :=
  let point := signature.take 32
  let scalar := littleEndian (signature.drop 32)
  match Point.decompress? key with
  | none => false
  | some p =>
      signature.length == 64 && decide (scalar < order)
        && (Point.add (Point.scale scalar Point.base)
          (Point.scale (challenge point key message) p.neg)).compress == point

end AccountTx.Ed25519
