import AccountTx.Form.Record
import AccountTx.IndexMap
import AccountTx.Json.Spelling
import AccountTx.Key
import AccountTx.TransactionType
import AccountTx.Value.Address
import AccountTx.Value.Amount
import AccountTx.Value.ChainData
import AccountTx.Value.Contract
import AccountTx.Value.Energy
import AccountTx.Value.Expiry
import AccountTx.Value.Nonce
import AccountTx.Value.TransactionHash

/-!
The JSON forms of values. Numbers are integers in the range of their type, byte strings are
hexadecimal text, names are text, and a map by index is an object whose names are the indices in
decimal.
-/

namespace AccountTx

instance : JsonForm UInt64 where
  toJson n := .nat n.toNat
  ofJson j := match j.natBelow? UInt64.size with
    | some n => .ok (UInt64.ofNat n)
    | none => .error .shape

instance : JsonForm UInt32 where
  toJson n := .nat n.toNat
  ofJson j := match j.natBelow? UInt32.size with
    | some n => .ok (UInt32.ofNat n)
    | none => .error .shape

instance : JsonForm UInt8 where
  toJson n := .nat n.toNat
  ofJson j := match j.natBelow? UInt8.size with
    | some n => .ok (UInt8.ofNat n)
    | none => .error .shape

instance : JsonForm String where
  toJson := .string
  ofJson
    | .string s => .ok s
    | _ => .error .shape

def hexOfText (text : String) : Except FormError Bytes :=
  (Hex.decode text).mapError fun fault => .refused (.hex fault)

instance : JsonForm Bytes where
  toJson bytes := .string (Hex.encode bytes)
  ofJson j := do hexOfText (← ofJson j)

instance {n : Nat} : JsonForm (FixedBytes n) where
  toJson b := toJson b.toList
  ofJson j := do
    let bytes : Bytes ← ofJson j
    match FixedBytes.ofList? n bytes with
    | some fixed => .ok fixed
    | none => .error (.refused (.wrongLength n bytes.length))

instance : JsonForm Address where
  toJson a := toJson a.bytes
  ofJson j := return ⟨← ofJson j⟩

instance : JsonForm ModuleRef where
  toJson r := toJson r.bytes
  ofJson j := return ⟨← ofJson j⟩

instance : JsonForm TransactionHash where
  toJson h := toJson h.bytes
  ofJson j := return ⟨← ofJson j⟩

/-- The text of a public key has no white space around it here. -/
instance : JsonForm PublicKey where
  toJson k := toJson k.bytes
  ofJson j := do FormError.ofKey (PublicKey.ofFixed (← ofJson j))

instance : JsonForm ChainData where
  toJson d := toJson d.bytes
  ofJson j := do FormError.ofValue (ChainData.ofBytes (← ofJson j))

instance : JsonForm Parameter where
  toJson p := toJson p.bytes
  ofJson j := do FormError.ofValue (Parameter.ofBytes (← ofJson j))

instance : JsonForm Amount where
  toJson a := toJson a.micro
  ofJson j := return ⟨← ofJson j⟩

instance : JsonForm Energy where
  toJson e := toJson e.value
  ofJson j := return ⟨← ofJson j⟩

instance : JsonForm PayloadSize where
  toJson s := toJson s.value
  ofJson j := return ⟨← ofJson j⟩

instance : JsonForm Nonce where
  toJson n := toJson n.value
  ofJson j := do FormError.ofValue (Nonce.ofNumber (← ofJson j))

instance : JsonForm Expiry where
  toJson e := toJson e.seconds
  ofJson j := do FormError.ofValue (Expiry.ofSeconds (← ofJson j))

instance : JsonForm InitName where
  toJson n := .string n.text
  ofJson j := do FormError.ofValue (InitName.ofText (← ofJson j))

instance : JsonForm ReceiveName where
  toJson n := .string n.text
  ofJson j := do FormError.ofValue (ReceiveName.ofText (← ofJson j))

instance : JsonForm ContractAddress where
  toJson a := .object [("index", toJson a.index), ("subindex", toJson a.subindex)]
  ofJson := (ContractAddress.mk <$> .part "index" <*> .part "subindex" : Record _).read

/-- A type is given by its name, which may also stand as the only member of an object with nothing
in it. -/
instance : JsonForm TransactionType where
  toJson t := .string t.name
  ofJson j :=
    let name? : Option String := match j with
      | .string name => some name
      | .object [(name, .null)] => some name
      | _ => none
    match name?.bind TransactionType.ofName? with
    | some t => .ok t
    | none => .error .shape

/-- The index that a text is the decimal of, without sign or leading zero. -/
def index? (digits : List Char) : Option UInt8 :=
  let n := Json.digitsValue digits
  if digits.length ≤ 3 ∧ n < UInt8.size ∧ (toString n).toList = digits then some (UInt8.ofNat n)
  else none

namespace IndexMap

variable {α : Type} [JsonForm α]

/-- Adds the members to a map one by one. -/
def ofMembers (m : IndexMap α) : List (String × Json) → Except FormError (IndexMap α)
  | [] => .ok m
  | (name, j) :: members =>
      match index? name.toList with
      | some k => do ofMembers (m.insert k (← ofJson j)) members
      | none => .error .shape

instance : JsonForm (IndexMap α) where
  toJson m := .object (m.entries.map fun e => (toString e.1, toJson e.2))
  ofJson
    | .object members => ofMembers .empty (members.mergeSort fun a b => decide (a.1 ≤ b.1))
    | _ => .error .shape

end IndexMap

end AccountTx
