import AccountTx.Proofs.Admission.Header

/-!
The ways to a payload. A draft has the parts of a payload with the names, the parameter and the data
unchecked; both its bytes and its documents are admitted exactly if these keep to their rules.
-/

namespace AccountTx

namespace Payload

/-- A payload before its names, its parameter and its data are checked. -/
inductive Draft where
  | deployModule (module : Bytes)
  | initContract (amount : Amount) (module : ModuleRef) (name : String) (parameter : Bytes)
      (maxEnergy : Energy)
  | updateContract (amount : Amount) (contract : ContractAddress) (name : String)
      (parameter : Bytes) (maxEnergy : Energy)
  | transfer (amount : Amount) (receiver : Address)
  | registerData (data : Bytes)
  | transferWithMemo (amount : Amount) (receiver : Address) (memo : Bytes)

namespace Draft

def check : Draft → Except ValueError Payload
  | deployModule module => .ok (.deployModule module)
  | initContract amount module name parameter maxEnergy => do
      let name ← InitName.ofText name
      let parameter ← Parameter.ofBytes parameter
      return .initContract amount module name parameter maxEnergy
  | updateContract amount contract name parameter maxEnergy => do
      let name ← ReceiveName.ofText name
      let parameter ← Parameter.ofBytes parameter
      return .updateContract amount contract name parameter maxEnergy
  | transfer amount receiver => .ok (.transfer amount receiver)
  | registerData data => do
      let data ← ChainData.ofBytes data
      return .registerData data
  | transferWithMemo amount receiver memo => do
      let memo ← ChainData.ofBytes memo
      return .transferWithMemo amount receiver memo

def Rule : Draft → Prop
  | deployModule _ => True
  | initContract _ _ name parameter _ => InitName.Rule name ∧ Parameter.Rule parameter
  | updateContract _ _ name parameter _ => ReceiveName.Rule name ∧ Parameter.Rule parameter
  | transfer _ _ => True
  | registerData data => ChainData.Rule data
  | transferWithMemo _ _ memo => ChainData.Rule memo

def layout : Draft → Bytes
  | deployModule module => TransactionType.deployModule.tag :: module
  | initContract amount module name parameter _ =>
      TransactionType.initContract.tag :: (amount.encode ++ module.bytes.toList
        ++ counted (Utf8.encode name) ++ counted parameter)
  | updateContract amount contract name parameter _ =>
      TransactionType.update.tag :: (amount.encode ++ contract.encode
        ++ counted (Utf8.encode name) ++ counted parameter)
  | transfer amount receiver =>
      TransactionType.transfer.tag :: (receiver.bytes.toList ++ amount.encode)
  | registerData data => TransactionType.registerData.tag :: counted data
  | transferWithMemo amount receiver memo =>
      TransactionType.transferWithMemo.tag ::
        (receiver.bytes.toList ++ counted memo ++ amount.encode)

/-- A contract call may use just this energy. -/
def Allows (e : Energy) : Draft → Prop
  | initContract _ _ _ _ maxEnergy => maxEnergy = e
  | updateContract _ _ _ _ maxEnergy => maxEnergy = e
  | _ => True

def kind : Draft → String
  | deployModule .. => "deployModule"
  | initContract .. => "initContract"
  | updateContract .. => "updateContract"
  | transfer .. => "transfer"
  | registerData .. => "registerData"
  | transferWithMemo .. => "transferWithMemo"

def names : Draft → List String
  | deployModule .. => ["module"]
  | initContract .. => ["amount", "module_ref", "init_name", "parameter", "max_energy"]
  | updateContract .. => ["amount", "address", "receive_name", "parameter", "max_energy"]
  | transfer .. => ["amount", "receiver"]
  | registerData .. => ["data"]
  | transferWithMemo .. => ["amount", "receiver", "memo"]

/-- Every part of the draft is told. -/
def ArePartsTold (find : String → Option Json) : Draft → Prop
  | deployModule module => Tells find "module" module
  | initContract amount module name parameter maxEnergy =>
      Tells find "amount" amount ∧ Tells find "module_ref" module ∧ Tells find "init_name" name ∧
        Tells find "parameter" parameter ∧ Tells find "max_energy" maxEnergy
  | updateContract amount contract name parameter maxEnergy =>
      Tells find "amount" amount ∧ Tells find "address" contract ∧
        Tells find "receive_name" name ∧ Tells find "parameter" parameter ∧
        Tells find "max_energy" maxEnergy
  | transfer amount receiver => Tells find "amount" amount ∧ Tells find "receiver" receiver
  | registerData data => Tells find "data" data
  | transferWithMemo amount receiver memo =>
      Tells find "amount" amount ∧ Tells find "receiver" receiver ∧ Tells find "memo" memo

/-- A document tells the kind and the parts of a draft: in an object by their names, in an array by
their order after the kind. -/
inductive IsTold : Json → Draft → Prop where
  | object {members : List (String × Json)} {d : Draft} :
      Json.member? "type" members = some (.string d.kind) →
      d.ArePartsTold (fun name => Json.member? name members) → IsTold (.object members) d
  | array {items : List Json} {d : Draft} : items.length ≤ d.names.length →
      d.ArePartsTold (fun name => (d.names.zip items).lookup name) →
      IsTold (.array (.string d.kind :: items)) d

end Draft

def draft : Payload → Draft
  | deployModule module => .deployModule module
  | initContract amount module name parameter maxEnergy =>
      .initContract amount module name.text parameter.bytes maxEnergy
  | updateContract amount contract name parameter maxEnergy =>
      .updateContract amount contract name.text parameter.bytes maxEnergy
  | transfer amount receiver => .transfer amount receiver
  | registerData data => .registerData data.bytes
  | transferWithMemo amount receiver memo => .transferWithMemo amount receiver memo.bytes

theorem rule_draft (p : Payload) : p.draft.Rule := by
  cases p with
  | deployModule module => trivial
  | initContract amount module name parameter maxEnergy =>
      exact ⟨name.rule_text, parameter.length_le⟩
  | updateContract amount contract name parameter maxEnergy =>
      exact ⟨name.rule_text, parameter.length_le⟩
  | transfer amount receiver => trivial
  | registerData data => exact data.length_le
  | transferWithMemo amount receiver memo => exact memo.length_le

/-- What is written for a payload is the layout of what it is made of. -/
theorem layout_draft (p : Payload) : p.draft.layout = p.encode := by
  cases p <;> rfl

theorem allows_draft_iff {p : Payload} {e : Energy} :
    p.draft.Allows e ↔ p.withMaxEnergy e = p := by
  cases p <;> simp [draft, Draft.Allows, withMaxEnergy, eq_comm]

theorem arePartsTold_draft_iff {find : String → Option Json} {p : Payload} :
    p.draft.ArePartsTold find ↔ p.IsTold find := by
  cases p <;> simp only [draft, Draft.ArePartsTold, IsTold,
    tells_congr InitName.ofJson_eq_ok_iff, tells_congr ReceiveName.ofJson_eq_ok_iff,
    tells_congr Parameter.ofJson_eq_ok_iff, tells_congr ChainData.ofJson_eq_ok_iff]

theorem kind_draft (p : Payload) : p.draft.kind = p.kind := by
  cases p <;> rfl

theorem names_draft (p : Payload) : p.draft.names = p.names := by
  cases p <;> rfl

theorem isTold_draft_iff {j : Json} {p : Payload} : p.draft.IsTold j ↔ IsFormOf j p := by
  constructor
  · generalize hd : p.draft = d
    intro h
    cases h with
    | object hkind hparts =>
        subst hd
        rw [kind_draft] at hkind
        exact .object hkind (arePartsTold_draft_iff.mp hparts)
    | array hlength hparts =>
        subst hd
        rw [names_draft] at hlength hparts
        rw [kind_draft]
        exact .array hlength (arePartsTold_draft_iff.mp hparts)
  · intro h
    cases h with
    | object hkind hparts =>
        rw [← kind_draft] at hkind
        exact .object hkind (arePartsTold_draft_iff.mpr hparts)
    | array hlength hparts =>
        rw [← names_draft] at hlength hparts
        rw [← kind_draft]
        exact .array hlength (arePartsTold_draft_iff.mpr hparts)

theorem check_draft (p : Payload) : p.draft.check = .ok p := by
  cases p with
  | deployModule module => rfl
  | initContract amount module name parameter maxEnergy =>
      simp only [draft, Draft.check, InitName.ofText_eq_ok_iff.mpr rfl,
        Parameter.ofBytes_eq_ok_iff.mpr rfl]
      rfl
  | updateContract amount contract name parameter maxEnergy =>
      simp only [draft, Draft.check, ReceiveName.ofText_eq_ok_iff.mpr rfl,
        Parameter.ofBytes_eq_ok_iff.mpr rfl]
      rfl
  | transfer amount receiver => rfl
  | registerData data =>
      simp only [draft, Draft.check, ChainData.ofBytes_eq_ok_iff.mpr rfl]
      rfl
  | transferWithMemo amount receiver memo =>
      simp only [draft, Draft.check, ChainData.ofBytes_eq_ok_iff.mpr rfl]
      rfl

theorem draft_of_check {d : Draft} {p : Payload} (h : d.check = .ok p) : p.draft = d := by
  cases d with
  | deployModule module =>
      cases h
      rfl
  | initContract amount module name parameter maxEnergy =>
      simp only [Draft.check, except_bind_eq_ok_iff, InitName.ofText_eq_ok_iff,
        Parameter.ofBytes_eq_ok_iff] at h
      obtain ⟨n, rfl, q, rfl, heq⟩ := h
      cases heq
      rfl
  | updateContract amount contract name parameter maxEnergy =>
      simp only [Draft.check, except_bind_eq_ok_iff, ReceiveName.ofText_eq_ok_iff,
        Parameter.ofBytes_eq_ok_iff] at h
      obtain ⟨n, rfl, q, rfl, heq⟩ := h
      cases heq
      rfl
  | transfer amount receiver =>
      cases h
      rfl
  | registerData data =>
      simp only [Draft.check, except_bind_eq_ok_iff, ChainData.ofBytes_eq_ok_iff] at h
      obtain ⟨d, rfl, heq⟩ := h
      cases heq
      rfl
  | transferWithMemo amount receiver memo =>
      simp only [Draft.check, except_bind_eq_ok_iff, ChainData.ofBytes_eq_ok_iff] at h
      obtain ⟨m, rfl, heq⟩ := h
      cases heq
      rfl

theorem exists_draft {d : Draft} (hrule : d.Rule) : ∃ p : Payload, p.draft = d := by
  cases d with
  | deployModule module => exact ⟨.deployModule module, rfl⟩
  | initContract amount module name parameter maxEnergy =>
      obtain ⟨n, rfl⟩ := Checked.exists_draft (α := InitName) hrule.1
      exact ⟨.initContract amount module n ⟨parameter, hrule.2⟩ maxEnergy, rfl⟩
  | updateContract amount contract name parameter maxEnergy =>
      obtain ⟨n, rfl⟩ := Checked.exists_draft (α := ReceiveName) hrule.1
      exact ⟨.updateContract amount contract n ⟨parameter, hrule.2⟩ maxEnergy, rfl⟩
  | transfer amount receiver => exact ⟨.transfer amount receiver, rfl⟩
  | registerData data => exact ⟨.registerData ⟨data, hrule⟩, rfl⟩
  | transferWithMemo amount receiver memo =>
      exact ⟨.transferWithMemo amount receiver ⟨memo, hrule⟩, rfl⟩

instance : Checked Payload Draft where
  Fault := ValueError
  check := Draft.check
  draft := draft
  Rule := Draft.Rule
  check_eq_ok_iff {d p} := by
    constructor
    · intro h
      obtain rfl := draft_of_check h
      exact ⟨rfl, p.rule_draft⟩
    · rintro ⟨rfl, -⟩
      exact check_draft p
  exists_draft := exists_draft

instance : AlwaysValid Payload := ⟨rule_draft⟩

structure EntryPoints : Prop where
  wire (maxEnergy : Energy) : Admits (decodeWithEnergy · maxEnergy)
    fun bytes d => bytes = d.layout ∧ d.Allows maxEnergy
  wireAlone : Admits decode fun bytes d => bytes = d.layout ∧ d.Allows .zero
  document : Admits (ofJson : Json → Except FormError Payload) Draft.IsTold
  every (p : Payload) : p.draft.Rule

theorem decodeWithEnergy_eq_ok_iff_draft {bytes : Bytes} {maxEnergy : Energy} {p : Payload} :
    decodeWithEnergy bytes maxEnergy = .ok p ↔
      bytes = p.draft.layout ∧ p.draft.Allows maxEnergy := by
  rw [decodeWithEnergy_eq_ok_iff, layout_draft, allows_draft_iff]

theorem entryPoints : EntryPoints where
  wire _ := .of_iff fun _ _ => decodeWithEnergy_eq_ok_iff_draft
  wireAlone := .of_iff fun _ _ => decodeWithEnergy_eq_ok_iff_draft
  document := .of_iff fun _ _ => ofJson_eq_ok_iff.trans isTold_draft_iff.symm
  every := rule_draft

end Payload

end AccountTx
