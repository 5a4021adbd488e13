import AccountTx.Bytes.Basic
import AccountTx.Text.Quoted
import AccountTx.Text.Utf8

/-!
Hexadecimal text. Writing uses lower case; reading takes either case and nothing else, and counts
positions in bytes of the UTF-8 form. An odd number of bytes is reported before any digit is looked
at.
-/

namespace AccountTx

inductive HexError where
  | oddLength
  /-- The first byte that is no digit, and where it stands. -/
  | invalidDigit (byte : UInt8) (position : Nat)
  deriving DecidableEq

/-- A byte that is no digit is shown as the character of its own code. -/
def HexError.message : HexError → String
  | .oddLength => "Odd number of digits"
  | .invalidDigit byte position =>
      let shown := Text.quoteChar (Char.ofNat byte.toNat)
      s!"Invalid character {shown} at position {position}"

namespace Hex

def digit (n : UInt8) : Char :=
  Char.ofNat (n.toNat + if n < 10 then 48 else 87)

def encodeByte (b : UInt8) : List Char := [digit (b / 16), digit (b % 16)]

def encode (bytes : Bytes) : String := String.ofList (bytes.flatMap encodeByte)

/-- The value of a digit, given as the byte that spells it. -/
def digitValue? (b : UInt8) : Option UInt8 :=
  if 48 ≤ b ∧ b ≤ 57 then some (b - 48)
  else if 97 ≤ b ∧ b ≤ 102 then some (b - 87)
  else if 65 ≤ b ∧ b ≤ 70 then some (b - 55)
  else none

def isDigit (b : UInt8) : Bool := (digitValue? b).isSome

/-- The values of digits taken two by two; `done` holds the bytes so far, last first. -/
def pairs (done : Bytes) : Bytes → Bytes
  | high :: low :: digits =>
      pairs (((digitValue? high).getD 0 * 16 + (digitValue? low).getD 0) :: done) digits
  | _ => done.reverse

def decodeBytes (digits : Bytes) : Except HexError Bytes :=
  if digits.length % 2 = 1 then .error .oddLength
  else
    match digits.zipIdx.find? (fun d => !isDigit d.1) with
    | some (byte, position) => .error (.invalidDigit byte position)
    | none => .ok (pairs [] digits)

def decode (text : String) : Except HexError Bytes := decodeBytes (Utf8.encode text)

end Hex

end AccountTx
