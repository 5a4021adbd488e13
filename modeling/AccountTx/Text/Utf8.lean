import AccountTx.Bytes.Basic

/-!
UTF-8. `encode` writes a text; `decodeLossy` reads any byte string and puts U+FFFD in place of each
maximal part that is no UTF-8, one byte at a time.
-/

namespace AccountTx.Utf8

def encode (text : String) : Bytes := text.toList.flatMap String.utf8EncodeChar

/-- The number of bytes of a text. -/
def size (text : String) : Nat := (encode text).length

/-- A character whose first bytes have been read: how many more are due, which values the next one
may have, and the bits collected so far. -/
structure Pending where
  due : Nat
  low : UInt8
  high : UInt8
  bits : Nat
  deriving DecidableEq

def replacement : Char := '\uFFFD'

/-- What a byte means where a character may begin: the characters it completes and what is pending
after it. -/
def start (b : UInt8) : List Char × Option Pending :=
  if b < 0x80 then ([Char.ofNat b.toNat], none)
  else if 0xC2 ≤ b ∧ b ≤ 0xDF then ([], some ⟨1, 0x80, 0xBF, b.toNat - 0xC0⟩)
  else if 0xE0 ≤ b ∧ b ≤ 0xEF then
    let low := if b = 0xE0 then 0xA0 else 0x80
    let high := if b = 0xED then 0x9F else 0xBF
    ([], some ⟨2, low, high, b.toNat - 0xE0⟩)
  else if 0xF0 ≤ b ∧ b ≤ 0xF4 then
    let low := if b = 0xF0 then 0x90 else 0x80
    let high := if b = 0xF4 then 0x8F else 0xBF
    ([], some ⟨3, low, high, b.toNat - 0xF0⟩)
  else ([replacement], none)

def step : Option Pending → UInt8 → List Char × Option Pending
  | none, b => start b
  | some p, b =>
      if p.low ≤ b ∧ b ≤ p.high then
        let bits := p.bits * 64 + (b.toNat - 0x80)
        if p.due = 1 then ([Char.ofNat bits], none)
        else ([], some ⟨p.due - 1, 0x80, 0xBF, bits⟩)
      else
        let next := start b
        (replacement :: next.1, next.2)

/-- A character cut off by the end of the input counts as one malformed part. -/
def finish : Option Pending → List Char
  | none => []
  | some _ => [replacement]

/-- Reads on from `pending`; `done` holds the characters so far, last first. -/
def run (pending : Option Pending) (done : List Char) : Bytes → List Char
  | [] => done.reverse ++ finish pending
  | b :: bytes =>
      let next := step pending b
      run next.2 (next.1.reverse ++ done) bytes

def decodeLossy (bytes : Bytes) : String := String.ofList (run none [] bytes)

/-- The text of a byte string that is UTF-8 throughout. -/
def decode? (bytes : Bytes) : Option String :=
  let text := decodeLossy bytes
  if encode text = bytes then some text else none

end AccountTx.Utf8
