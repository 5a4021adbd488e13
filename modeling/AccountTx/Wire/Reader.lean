import AccountTx.Value.Error

/-!
Reading the parts of a transaction from the front of a byte string. A reader takes what it needs and
leaves the rest, or says which field the bytes end in.
-/

namespace AccountTx

inductive DecodeError where
  | unexpectedEnd (field : String) (needed remaining : Nat)
  | trailingBytes (what : String) (count : Nat)
  | unsupportedTransactionType (tag : UInt8)
  | invalidVersion (version : UInt8)
  | invalidBlockItemKind (kind : UInt8)
  | payloadSizeMismatch (declared : UInt32) (actual : Nat)
  | invalidValue (cause : ValueError)
  | emptySignatureMap
  | unorderedIndex (what : String)
  deriving DecidableEq

def DecodeError.message : DecodeError → String
  | .unexpectedEnd field needed remaining =>
      s!"unexpected end of input while reading {field}: need {needed} bytes, {remaining} left"
  | .trailingBytes what count => s!"{count} trailing bytes after {what}"
  | .unsupportedTransactionType tag => s!"unsupported transaction type tag {tag}"
  | .invalidVersion version => s!"unsupported block item version {version}"
  | .invalidBlockItemKind kind => s!"block item kind {kind} is not an account transaction"
  | .payloadSizeMismatch declared actual =>
      s!"header declares a payload of {declared} bytes, found {actual}"
  | .invalidValue cause => "invalid value: " ++ cause.message
  | .emptySignatureMap => "signature map has no credentials"
  | .unorderedIndex what => s!"{what} out of order or repeated in signature map"

abbrev Reader (α : Type) := StateT Bytes (Except DecodeError) α

/-- Whether a byte string has at least `n` bytes, found without counting all of them. -/
def hasAtLeast (n : Nat) (bytes : Bytes) : Bool :=
  n == 0 || !(bytes.drop (n - 1)).isEmpty

theorem hasAtLeast_iff {n : Nat} {bytes : Bytes} :
    hasAtLeast n bytes = true ↔ n ≤ bytes.length := by
  cases n with
  | zero => simp [hasAtLeast]
  | succ n =>
      rw [Nat.add_one_le_iff]
      simp [hasAtLeast]

theorem length_take_of_hasAtLeast {n : Nat} {bytes : Bytes} (h : hasAtLeast n bytes = true) :
    (bytes.take n).length = n := by
  rw [List.length_take, Nat.min_eq_left (hasAtLeast_iff.mp h)]

namespace Reader

/-- The next `n` bytes. -/
def fixed (field : String) (n : Nat) : Reader (FixedBytes n) := fun bytes =>
  if h : hasAtLeast n bytes = true then
    .ok (⟨bytes.take n, length_take_of_hasAtLeast h⟩, bytes.drop n)
  else .error (.unexpectedEnd field n bytes.length)

def byte (field : String) : Reader UInt8 := fun bytes =>
  match bytes with
  | [] => .error (.unexpectedEnd field 1 0)
  | b :: rest => .ok (b, rest)

/-- A number of `width` bytes, most significant first. -/
def number (field : String) (width : Nat) : Reader Nat := do
  let bytes ← fixed field width
  return BigEndian.toNat bytes.toList

def word (field : String) : Reader UInt64 := do
  return UInt64.ofNat (← number field 8)

/-- As many bytes as the two before them say. -/
def counted (field : String) : Reader Bytes := do
  let length ← number field 2
  return (← fixed field length).toList

def all : Reader Bytes := fun bytes => .ok (bytes, [])

/-- What was read has to satisfy the rule of its type. -/
def check {α : Type} (value : Except ValueError α) : Reader α := fun bytes =>
  match value with
  | .ok a => .ok (a, bytes)
  | .error e => .error (.invalidValue e)

def fail {α : Type} (e : DecodeError) : Reader α := fun _ => .error e

/-- Reads a whole byte string; `what` names that which may have no bytes after it. -/
def complete {α : Type} (what : String) (read : Reader α) (bytes : Bytes) : Except DecodeError α :=
  match read bytes with
  | .error e => .error e
  | .ok (a, []) => .ok a
  | .ok (_, rest) => .error (.trailingBytes what rest.length)

end Reader

end AccountTx
