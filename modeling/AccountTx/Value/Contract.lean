import AccountTx.Value.Error

/-!
What names a smart contract: the address of an instance, the hash of a module, the names of its
functions, and the parameter of a call. A function name is of printable ASCII without the space;
the name of an init function begins with a fixed word and has no dot, and the name of a receive
function has one.
-/

namespace AccountTx

structure ContractAddress where
  index : UInt64
  subindex : UInt64
  deriving DecidableEq

namespace ContractAddress

def encode (a : ContractAddress) : Bytes :=
  BigEndian.ofNat 8 a.index.toNat ++ BigEndian.ofNat 8 a.subindex.toNat

def toText (a : ContractAddress) : String := s!"<{a.index},{a.subindex}>"

end ContractAddress

structure ModuleRef where
  bytes : FixedBytes 32
  deriving DecidableEq

namespace ModuleRef

theorem length_bytes (r : ModuleRef) : r.bytes.toList.length = Limits.hashLength :=
  r.bytes.length_eq

def what : String := "module reference"

def ofBytes (bytes : Bytes) : Except ValueError ModuleRef :=
  (FixedBytes.ofBytes what 32 bytes).map mk

def ofHex (text : String) : Except ValueError ModuleRef :=
  (FixedBytes.ofHex what 32 text).map mk

def hex (r : ModuleRef) : String := r.bytes.hex

def describe (r : ModuleRef) : String := "ModuleReference(" ++ r.hex ++ ")"

end ModuleRef

namespace FunctionName

def isPunctuation (c : Char) : Bool :=
  ('!' ≤ c && c ≤ '/') || (':' ≤ c && c ≤ '@') || ('[' ≤ c && c ≤ '\x60') || ('\x7b' ≤ c && c ≤ '~')

def isAllowed (c : Char) : Bool := c.isAlphanum || isPunctuation c

/-- The rule for all function names that a text breaks, if any. -/
def fault? (name : String) : Option NameFault :=
  if Utf8.size name > Limits.maxNameLength then some .tooLong
  else if !name.toList.all isAllowed then some .badCharacter
  else none

def hasDot (name : String) : Bool := name.toList.contains '.'

end FunctionName

open FunctionName

namespace InitName

/-- The rule for init names that a text breaks, if any. -/
def fault? (name : String) : Option NameFault :=
  match FunctionName.fault? name with
  | some fault => some fault
  | none =>
      if !Limits.initPrefix.toList.isPrefixOf name.toList then some .noInitPrefix
      else if hasDot name then some .dotInInitName
      else none

end InitName

/-- The name of the function that makes an instance of a contract. -/
structure InitName where
  text : String
  valid : InitName.fault? text = none
  deriving DecidableEq

namespace InitName

def ofText (name : String) : Except ValueError InitName :=
  match h : fault? name with
  | none => .ok ⟨name, h⟩
  | some fault => .error (.invalidName name fault)

def encode (n : InitName) : Bytes := Utf8.encode n.text

/-- The name after the word that it begins with. -/
def contractName (n : InitName) : String :=
  String.ofList (n.text.toList.drop Limits.initPrefix.length)

/-- The bytes of the name and of its length. -/
def encodedSize (n : InitName) : Nat := 2 + Utf8.size n.text

end InitName

namespace ReceiveName

/-- The rule for receive names that a text breaks, if any. -/
def fault? (name : String) : Option NameFault :=
  match FunctionName.fault? name with
  | some fault => some fault
  | none => if hasDot name then none else some .noDot

end ReceiveName

/-- The name of a function that an instance of a contract answers to. -/
structure ReceiveName where
  text : String
  valid : ReceiveName.fault? text = none
  deriving DecidableEq

namespace ReceiveName

def ofText (name : String) : Except ValueError ReceiveName :=
  match h : fault? name with
  | none => .ok ⟨name, h⟩
  | some fault => .error (.invalidName name fault)

def encode (n : ReceiveName) : Bytes := Utf8.encode n.text

/-- The name up to its first dot. -/
def contractName (n : ReceiveName) : String :=
  String.ofList (n.text.toList.takeWhile (· ≠ '.'))

/-- The name after its first dot. -/
def entrypoint (n : ReceiveName) : String :=
  String.ofList ((n.text.toList.dropWhile (· ≠ '.')).drop 1)

def encodedSize (n : ReceiveName) : Nat := 2 + Utf8.size n.text

end ReceiveName

/-- What a contract function is called with; only the length is known here. -/
structure Parameter where
  bytes : Bytes
  length_le : bytes.length ≤ Limits.maxParameterLength
  deriving DecidableEq

namespace Parameter

def ofBytes (bytes : Bytes) : Except ValueError Parameter :=
  if h : bytes.length ≤ Limits.maxParameterLength then .ok ⟨bytes, h⟩
  else .error (.parameterTooLarge Limits.maxParameterLength bytes.length)

def empty : Parameter := ⟨[], by decide⟩

def hex (p : Parameter) : String := Hex.encode p.bytes

def describe (p : Parameter) : String := "Parameter(" ++ p.hex ++ ")"

def encodedSize (p : Parameter) : Nat := 2 + p.bytes.length

end Parameter

end AccountTx
