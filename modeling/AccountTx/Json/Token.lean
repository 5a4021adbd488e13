import AccountTx.Json.Spelling

/-!
The tokens of a JSON text. The text is read one character at a time, with what has been read of the
current token in the state.
-/

namespace AccountTx.Json

inductive Token where
  | openArray
  | closeArray
  | openObject
  | closeObject
  | comma
  | colon
  | string (s : Spelling)
  | number (n : Numeral)
  | null
  | bool (b : Bool)

/-- The token that is being read; its characters so far stand last first. -/
inductive Mode where
  | between
  | inString (read : List Char)
  | inEscape (read : List Char)
  | inNumber (read : List Char)
  | inWord (read : List Char)

namespace Token

def punctuation? : Char → Option Token
  | '[' => some .openArray
  | ']' => some .closeArray
  | '\x7b' => some .openObject
  | '\x7d' => some .closeObject
  | ',' => some .comma
  | ':' => some .colon
  | _ => none

def word? (word : List Char) : Option Token :=
  if word = ['n', 'u', 'l', 'l'] then some .null
  else if word = ['t', 'r', 'u', 'e'] then some (.bool true)
  else if word = ['f', 'a', 'l', 's', 'e'] then some (.bool false)
  else none

def isSpace (c : Char) : Bool := c = ' ' || c = '\n' || c = '\t' || c = '\r'

def isNumberChar (c : Char) : Bool :=
  c.isDigit || c = '-' || c = '+' || c = '.' || c = 'e' || c = 'E'

/-- What a character means where a token may begin. -/
def begin? (c : Char) : Option (List Token × Mode) :=
  if isSpace c then some ([], .between)
  else if c = '"' then some ([], .inString [])
  else if c = '-' || c.isDigit then some ([], .inNumber [c])
  else if c.isAlpha then some ([], .inWord [c])
  else (punctuation? c).map fun t => ([t], .between)

/-- The token that ends where no character of it follows. -/
def close? : Mode → Option (List Token)
  | .between => some []
  | .inString _ => none
  | .inEscape _ => none
  | .inNumber read => (numeral? read.reverse).map fun n => [.number n]
  | .inWord read => (word? read.reverse).map fun t => [t]

/-- The tokens that a character completes, last first, and the mode after it. -/
def step? (mode : Mode) (c : Char) : Option (List Token × Mode) :=
  match mode with
  | .inString read =>
      if c = '"' then
        if Spelling.isWellFormed read.reverse then some ([.string read.reverse], .between) else none
      else if c = '\\' then some ([], .inEscape (c :: read))
      else some ([], .inString (c :: read))
  | .inEscape read => some ([], .inString (c :: read))
  | .inNumber read =>
      if isNumberChar c then some ([], .inNumber (c :: read))
      else do
        let done ← close? mode
        let (next, mode) ← begin? c
        return (next ++ done, mode)
  | .inWord read =>
      if c.isAlpha then some ([], .inWord (c :: read))
      else do
        let done ← close? mode
        let (next, mode) ← begin? c
        return (next ++ done, mode)
  | .between => begin? c

/-- The tokens of a text; `done` holds those so far, last first. -/
def scan (mode : Mode) (done : List Token) : List Char → Option (List Token)
  | [] => (close? mode).map fun last => (last ++ done).reverse
  | c :: cs =>
      match step? mode c with
      | some (tokens, mode) => scan mode (tokens ++ done) cs
      | none => none

end Token

end AccountTx.Json
