/-!
JSON documents. A document is read with its strings as they are spelled, and most uses want the
texts that the spellings stand for, so the type of the strings is a parameter.
-/

namespace AccountTx

/-- A number that is written as an integer is exact; nothing here reads any other. -/
inductive Numeral where
  | integer (n : Int)
  | other (literal : String)
  deriving DecidableEq

inductive JsonOf (σ : Type) where
  | null
  | bool (b : Bool)
  | number (n : Numeral)
  | string (s : σ)
  | array (items : List (JsonOf σ))
  | object (members : List (σ × JsonOf σ))

abbrev Json := JsonOf String

namespace Json

def int (n : Int) : Json := .number (.integer n)

def nat (n : Nat) : Json := int n

/-- The member of a name; the last one counts where a name is repeated. -/
def member? (name : String) (members : List (String × Json)) : Option Json :=
  members.reverse.lookup name

def string? : Json → Option String
  | .string s => some s
  | _ => none

/-- The number of a document, if it is a natural number below `bound`. -/
def natBelow? (bound : Nat) : Json → Option Nat
  | .number (.integer n) => if 0 ≤ n ∧ n.toNat < bound then some n.toNat else none
  | _ => none

end Json

end AccountTx
