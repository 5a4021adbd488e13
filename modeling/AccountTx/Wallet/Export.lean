import AccountTx.Form.Value
import AccountTx.Json.Parse

/-!
The keys and the address in a key export of a wallet. Each part of a record is there once; members
that are no part may hold anything. An index is spelled without escapes, and the last of equal
indices counts.
-/

namespace AccountTx.Wallet

open Json

/-- The secret keys of an account by credential and key, and its address, all as they are
written. -/
structure Export where
  keys : SlotMap String
  address : String

/-- Which records stand around the parts of an export. -/
inductive Format where
  | genesis
  | browser
  deriving DecidableEq

def Format.name : Format → String
  | .genesis => "Genesis"
  | .browser => "Browser"

namespace Export

/-- The only document with a name. -/
def unique? (name : String) (members : List (String × Document)) : Option Document :=
  match members.filter fun m => m.1 == name with
  | [(_, d)] => some d
  | _ => none

/-- The documents of the parts of a record. An array holds the parts alone, in their order. -/
def parts? (names : List String) : Document → Option (List Document)
  | .array items => if items.length = names.length then some items else none
  | .object members => do
      let named ← members.mapM fun m => m.1.text?.map fun name => (name, m.2)
      names.mapM fun name => unique? name named
  | _ => none

def part? (name : String) (d : Document) : Option Document :=
  (parts? [name] d).bind List.head?

def text? : Document → Option String
  | .string s => s.text?
  | _ => none

/-- Adds the members to a map one by one, each in place of an earlier one of its index. -/
def insertAll? {α : Type} (read? : Document → Option α) (m : IndexMap α) :
    List (Spelling × Document) → Option (IndexMap α)
  | [] => some m
  | (key, d) :: members => do insertAll? read? (m.insert (← index? key) (← read? d)) members

def indexed? {α : Type} (read? : Document → Option α) : Document → Option (IndexMap α)
  | .object members => insertAll? read? .empty members
  | _ => none

def secret? (d : Document) : Option String := (part? "signKey" d).bind text?

def credential? (d : Document) : Option (IndexMap String) :=
  (part? "keys" d).bind (indexed? secret?)

def keys? (d : Document) : Option (SlotMap String) :=
  (part? "keys" d).bind (indexed? credential?)

def genesis? (d : Document) : Option Export :=
  match parts? ["accountKeys", "address"] d with
  | some [keys, address] => do return ⟨← keys? keys, ← text? address⟩
  | _ => none

/-- A browser wallet puts the same records under a name of their own. -/
def browser? (d : Document) : Option Export := (part? "value" d).bind genesis?

def ofDocument? : Format → Document → Option Export
  | .genesis => genesis?
  | .browser => browser?

end Export

end AccountTx.Wallet
