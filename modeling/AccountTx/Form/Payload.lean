import AccountTx.Form.Value
import AccountTx.Payload.Basic

/-!
The JSON form of payloads: the parts of the payload beside a member that tells its kind. The kind is
looked up before any part is read; in an array it stands first.
-/

namespace AccountTx.Payload

def kind : Payload → String
  | deployModule .. => "deployModule"
  | initContract .. => "initContract"
  | updateContract .. => "updateContract"
  | transfer .. => "transfer"
  | registerData .. => "registerData"
  | transferWithMemo .. => "transferWithMemo"

def members : Payload → List (String × Json)
  | deployModule module => [("module", toJson module)]
  | initContract amount module name parameter maxEnergy =>
      [("amount", toJson amount), ("module_ref", toJson module), ("init_name", toJson name),
        ("parameter", toJson parameter), ("max_energy", toJson maxEnergy)]
  | updateContract amount contract name parameter maxEnergy =>
      [("amount", toJson amount), ("address", toJson contract), ("receive_name", toJson name),
        ("parameter", toJson parameter), ("max_energy", toJson maxEnergy)]
  | transfer amount receiver => [("amount", toJson amount), ("receiver", toJson receiver)]
  | registerData data => [("data", toJson data)]
  | transferWithMemo amount receiver memo =>
      [("amount", toJson amount), ("receiver", toJson receiver), ("memo", toJson memo)]

/-- The parts of the payloads of a kind. -/
def record? : String → Option (Record Payload)
  | "deployModule" => some (deployModule <$> .part "module")
  | "initContract" =>
      some (initContract <$> .part "amount" <*> .part "module_ref" <*> .part "init_name"
        <*> .part "parameter" <*> .part "max_energy")
  | "updateContract" =>
      some (updateContract <$> .part "amount" <*> .part "address" <*> .part "receive_name"
        <*> .part "parameter" <*> .part "max_energy")
  | "transfer" => some (transfer <$> .part "amount" <*> .part "receiver")
  | "registerData" => some (registerData <$> .part "data")
  | "transferWithMemo" =>
      some (transferWithMemo <$> .part "amount" <*> .part "receiver" <*> .part "memo")
  | _ => none

/-- The kind that a document tells, and the document of the parts. -/
def split? : Json → Option (Json × Json)
  | .object members => (Json.member? "type" members).map fun kind => (kind, .object members)
  | .array (kind :: items) => some (kind, .array items)
  | _ => none

instance : JsonForm Payload where
  toJson p := .object (("type", .string p.kind) :: p.members)
  ofJson j :=
    match split? j with
    | some (.string kind, parts) =>
        match record? kind with
        | some record => record.read parts
        | none => .error .shape
    | _ => .error .shape

end AccountTx.Payload
