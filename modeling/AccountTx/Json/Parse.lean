import AccountTx.Json.Token

/-!
Reading a JSON text, which holds one document and nothing after it. The tokens are folded over a
stack of the arrays and objects that are still open, so that documents may be nested to any depth.
-/

namespace AccountTx.Json

/-- A document with its strings as they are spelled. -/
abbrev Document := JsonOf Spelling

/-- An array or object that is still open, with what it holds so far, last first. -/
inductive Frame where
  | items (done : List Document)
  | members (done : List (Spelling × Document)) (key : Spelling)

/-- What has to come next. -/
inductive Expected where
  | value
  | firstItem
  | firstKey (done : List (Spelling × Document))
  | key (done : List (Spelling × Document))
  | colon (done : List (Spelling × Document)) (key : Spelling)
  /-- A comma or the end of what is open, after a finished value. -/
  | next (value : Document)

def beginValue? (stack : List Frame) : Token → Option (List Frame × Expected)
  | .openArray => some (stack, .firstItem)
  | .openObject => some (stack, .firstKey [])
  | .string s => some (stack, .next (.string s))
  | .number n => some (stack, .next (.number n))
  | .null => some (stack, .next .null)
  | .bool b => some (stack, .next (.bool b))
  | _ => none

def stepToken? (stack : List Frame) (expected : Expected) (token : Token) :
    Option (List Frame × Expected) :=
  match expected, token with
  | .firstItem, .closeArray => some (stack, .next (.array []))
  | .firstItem, t => beginValue? (.items [] :: stack) t
  | .value, t => beginValue? stack t
  | .firstKey _, .closeObject => some (stack, .next (.object []))
  | .firstKey done, .string s => some (stack, .colon done s)
  | .key done, .string s => some (stack, .colon done s)
  | .colon done key, .colon => some (.members done key :: stack, .value)
  | .next v, .comma =>
      match stack with
      | .items done :: rest => some (.items (v :: done) :: rest, .value)
      | .members done key :: rest => some (rest, .key ((key, v) :: done))
      | [] => none
  | .next v, .closeArray =>
      match stack with
      | .items done :: rest => some (rest, .next (.array (v :: done).reverse))
      | _ => none
  | .next v, .closeObject =>
      match stack with
      | .members done key :: rest => some (rest, .next (.object ((key, v) :: done).reverse))
      | _ => none
  | _, _ => none

def ofTokens? (stack : List Frame) (expected : Expected) : List Token → Option Document
  | [] =>
      match stack, expected with
      | [], .next v => some v
      | _, _ => none
  | t :: ts =>
      match stepToken? stack expected t with
      | some (stack, expected) => ofTokens? stack expected ts
      | none => none

/-- The document of a text. -/
def parseDocument (text : String) : Option Document :=
  (Token.scan .between [] text.toList).bind (ofTokens? [] .value)

mutual

/-- A document with the texts of its strings, if every string has one. -/
def ofDocument : Document → Option Json
  | .null => some .null
  | .bool b => some (.bool b)
  | .number n => some (.number n)
  | .string s => s.text?.map .string
  | .array items => (ofItems items).map .array
  | .object members => (ofMembers members).map .object

def ofItems : List Document → Option (List Json)
  | [] => some []
  | d :: ds => do return (← ofDocument d) :: (← ofItems ds)

def ofMembers : List (Spelling × Document) → Option (List (String × Json))
  | [] => some []
  | (key, d) :: ds => do return (← key.text?, ← ofDocument d) :: (← ofMembers ds)

end

def parse (text : String) : Option Json := (parseDocument text).bind ofDocument

end AccountTx.Json
