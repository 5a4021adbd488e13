import AccountTx.Bytes.Basic
import AccountTx.Json.Basic

/-!
How strings and numbers are spelled in JSON. A spelling is the text between the quotes; it may have
escapes that stand for no character, and such a string is well formed all the same.
-/

namespace AccountTx.Json

abbrev Spelling := List Char

namespace Spelling

def hexValue? (c : Char) : Option Nat :=
  if '0' ≤ c ∧ c ≤ '9' then some (c.toNat - 48)
  else if 'a' ≤ c ∧ c ≤ 'f' then some (c.toNat - 87)
  else if 'A' ≤ c ∧ c ≤ 'F' then some (c.toNat - 55)
  else none

def code? (a b c d : Char) : Option Nat := do
  return (((← hexValue? a) * 16 + (← hexValue? b)) * 16 + (← hexValue? c)) * 16 + (← hexValue? d)

/-- What a letter stands for after a backslash. -/
def simpleEscape? : Char → Option Char
  | '"' => some '"'
  | '\\' => some '\\'
  | '/' => some '/'
  | 'b' => some '\x08'
  | 'f' => some '\x0c'
  | 'n' => some '\n'
  | 'r' => some '\r'
  | 't' => some '\t'
  | _ => none

/-- One part of a spelling: a character, or a code that was given by its four digits. -/
inductive Part where
  | char (c : Char)
  | code (n : Nat)

/-- The parts of a spelling; `done` holds those so far, last first. Control characters have to be
escaped, and a backslash begins one of the known escapes. -/
def parts (done : List Part) : Spelling → Option (List Part)
  | [] => some done.reverse
  | '\\' :: 'u' :: a :: b :: c :: d :: cs =>
      match code? a b c d with
      | some n => parts (.code n :: done) cs
      | none => none
  | '\\' :: c :: cs =>
      match simpleEscape? c with
      | some e => parts (.char e :: done) cs
      | none => none
  | ['\\'] => none
  | c :: cs => if c.toNat < 0x20 then none else parts (.char c :: done) cs

def isWellFormed (s : Spelling) : Bool := (parts [] s).isSome

/-- The characters that the parts stand for. Two codes of a surrogate pair are one character; half a
pair is none. -/
def join (done : List Char) : List Part → Option (List Char)
  | [] => some done.reverse
  | .char c :: ps => join (c :: done) ps
  | .code n :: ps =>
      if n < 0xD800 ∨ 0xDFFF < n then join (Char.ofNat n :: done) ps
      else
        match ps with
        | .code m :: qs =>
            if n < 0xDC00 ∧ 0xDC00 ≤ m ∧ m ≤ 0xDFFF then
              join (Char.ofNat ((n - 0xD800) * 0x400 + (m - 0xDC00) + 0x10000) :: done) qs
            else none
        | _ => none

def text? (s : Spelling) : Option String :=
  ((parts [] s).bind (join [])).map String.ofList

end Spelling

/-- The number of leading digits in a row, and the characters after them. -/
def spanDigits (cs : List Char) : List Char × List Char := cs.span Char.isDigit

/-- An exponent or nothing. -/
def isExponent : List Char → Bool
  | [] => true
  | c :: cs =>
      (c = 'e' || c = 'E') &&
        (let digits := match cs with
          | '+' :: ds => ds
          | '-' :: ds => ds
          | ds => ds
        !digits.isEmpty && digits.all Char.isDigit)

/-- A fraction and an exponent, either of which may be missing. -/
def isNumberTail : List Char → Bool
  | '.' :: cs =>
      let parts := spanDigits cs
      !parts.1.isEmpty && isExponent parts.2
  | cs => isExponent cs

def digitsValue (digits : List Char) : Nat :=
  digits.foldl (fun n c => n * 10 + (c.toNat - 48)) 0

/-- The number of a literal: digits without a leading zero, a minus before them, and a fraction or
exponent after them. Minus zero is not an integer. -/
def numeral? (literal : List Char) : Option Numeral :=
  let negative := literal.head? = some '-'
  let parts := spanDigits (if negative then literal.tail else literal)
  let digits := parts.1
  if digits.isEmpty || (digits.head? = some '0' && digits.length ≠ 1) || !isNumberTail parts.2 then
    none
  else if parts.2.isEmpty && !(negative && digits = ['0']) then
    let n := digitsValue digits
    some (.integer (if negative then -n else n))
  else some (.other (String.ofList literal))

end AccountTx.Json
