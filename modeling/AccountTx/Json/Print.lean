import AccountTx.Json.Basic

/-!
Writing JSON, without any space or with one member to a line. Members keep their order.
-/

namespace AccountTx.Json

def hexDigit (n : Nat) : Char := Char.ofNat (n + if n < 10 then 48 else 87)

/-- A character inside a string; controls and the two that delimit a string are escaped. -/
def spell (c : Char) : List Char :=
  if c = '"' then ['\\', '"']
  else if c = '\\' then ['\\', '\\']
  else if c = '\x08' then ['\\', 'b']
  else if c = '\x0c' then ['\\', 'f']
  else if c = '\n' then ['\\', 'n']
  else if c = '\r' then ['\\', 'r']
  else if c = '\t' then ['\\', 't']
  else if c.toNat < 0x20 then
    ['\\', 'u', '0', '0', hexDigit (c.toNat / 16), hexDigit (c.toNat % 16)]
  else [c]

def spellString (s : String) : String :=
  String.ofList ('"' :: s.toList.flatMap spell ++ ['"'])

def spellNumeral : Numeral → String
  | .integer n => toString n
  | .other literal => literal

mutual

def compact : Json → String
  | .null => "null"
  | .bool b => if b then "true" else "false"
  | .number n => spellNumeral n
  | .string s => spellString s
  | .array items => "[" ++ ",".intercalate (compactItems items) ++ "]"
  | .object members => "\x7b" ++ ",".intercalate (compactMembers members) ++ "\x7d"

def compactItems : List Json → List String
  | [] => []
  | j :: js => compact j :: compactItems js

def compactMembers : List (String × Json) → List String
  | [] => []
  | (name, j) :: js => (spellString name ++ ":" ++ compact j) :: compactMembers js

end

/-- Lines of an array or object, one level deeper than the line that opens it. -/
def block (indent : String) (before : String) (lines : List String) (after : String) : String :=
  if lines.isEmpty then before ++ after
  else before ++ "\n" ++ ",\n".intercalate lines ++ "\n" ++ indent ++ after

mutual

/-- `indent` stands before the line that the document begins on. -/
def prettyAt (indent : String) : Json → String
  | .array items => block indent "[" (prettyItems (indent ++ "  ") items) "]"
  | .object members => block indent "\x7b" (prettyMembers (indent ++ "  ") members) "\x7d"
  | .null => "null"
  | .bool b => if b then "true" else "false"
  | .number n => spellNumeral n
  | .string s => spellString s

def prettyItems (indent : String) : List Json → List String
  | [] => []
  | j :: js => (indent ++ prettyAt indent j) :: prettyItems indent js

def prettyMembers (indent : String) : List (String × Json) → List String
  | [] => []
  | (name, j) :: js =>
      (indent ++ spellString name ++ ": " ++ prettyAt indent j) :: prettyMembers indent js

end

def pretty (j : Json) : String := prettyAt "" j

mutual

/-- The same document with the members of every object in the order of their names. -/
def sorted : Json → Json
  | .array items => .array (sortedItems items)
  | .object members =>
      .object ((sortedMembers members).mergeSort fun a b => decide (a.1 ≤ b.1))
  | j => j

def sortedItems : List Json → List Json
  | [] => []
  | j :: js => sorted j :: sortedItems js

def sortedMembers : List (String × Json) → List (String × Json)
  | [] => []
  | (name, j) :: js => (name, sorted j) :: sortedMembers js

end

end AccountTx.Json
