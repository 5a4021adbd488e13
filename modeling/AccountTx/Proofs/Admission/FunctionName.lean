import AccountTx.Proofs.Admission.Value

/-!
Names of contract functions as byte strings. A grammar of bytes tells which byte strings are names,
and a name is taken from its bytes, from its text and from a document alike: what is not UTF-8, or
no visible ASCII, is no name on any of these ways. A name falls into the parts it is made of at its
first dot, or behind the word that it begins with.
-/

namespace AccountTx

/-! ### Texts of visible bytes -/

namespace Utf8

/-- The character with a given byte as its code. -/
def charOfByte (b : UInt8) : Char := Char.ofNat b.toNat

theorem toNat_charOfByte (b : UInt8) : (charOfByte b).toNat = b.toNat := by
  have hlt := b.toNat_lt
  have hvalid : b.toNat.isValidChar := .inl (by omega)
  rw [charOfByte, Char.ofNat, dif_pos hvalid]
  rfl

theorem charOfByte_injective : Function.Injective charOfByte := by
  intro b b' h
  have hcode := congrArg Char.toNat h
  rw [toNat_charOfByte, toNat_charOfByte] at hcode
  exact UInt8.toNat_inj.mp hcode

theorem encode_inj {s t : String} : encode s = encode t ↔ s = t := by
  constructor
  · intro h
    rw [← String.toByteArray_inj, ← String.ofList_toList (s := s), ← String.ofList_toList (s := t),
      String.toByteArray_ofList, String.toByteArray_ofList]
    exact congrArg List.toByteArray h
  · rintro rfl
    rfl

/-- The bytes of visible ASCII characters. -/
def IsVisibleByte (b : UInt8) : Prop := 0x21 ≤ b ∧ b ≤ 0x7E

theorem isVisible_charOfByte_iff {b : UInt8} : IsVisible (charOfByte b) ↔ IsVisibleByte b := by
  rw [IsVisible, toNat_charOfByte, IsVisibleByte, UInt8.le_iff_toNat_le, UInt8.le_iff_toNat_le]
  rfl

theorem encode_ofList_map_charOfByte {bytes : Bytes} (h : ∀ b ∈ bytes, IsVisibleByte b) :
    encode (String.ofList (bytes.map charOfByte)) = bytes := by
  rw [encode, String.toList_ofList]
  induction bytes with
  | nil => rfl
  | cons b bytes ih =>
      have hb := isVisible_charOfByte_iff.mpr (h b List.mem_cons_self)
      have htail := ih fun b' hb' => h b' (List.mem_cons_of_mem b hb')
      rw [List.map_cons, List.flatMap_cons, htail, encodeChar_of_isVisible hb, toNat_charOfByte,
        UInt8.ofNat_toNat]
      rfl

/-- A text of visible bytes has one character for each of them. -/
theorem toList_eq_map_charOfByte {text : String} (h : ∀ b ∈ encode text, IsVisibleByte b) :
    text.toList = (encode text).map charOfByte := by
  have hsame := encode_inj.mp (encode_ofList_map_charOfByte h)
  rw [← congrArg String.toList hsame, String.toList_ofList]

theorem forall_isVisible_iff {text : String} :
    (∀ c ∈ text.toList, IsVisible c) ↔ ∀ b ∈ encode text, IsVisibleByte b := by
  constructor
  · intro h b hb
    obtain ⟨c, hc, hbc⟩ := List.mem_flatMap.mp hb
    have hvisible := h c hc
    rw [encodeChar_of_isVisible hvisible, List.mem_singleton] at hbc
    rw [hbc, IsVisibleByte, UInt8.le_iff_toNat_le, UInt8.le_iff_toNat_le,
      toNat_ofNat_visible hvisible]
    exact hvisible
  · intro h c hc
    rw [toList_eq_map_charOfByte h, List.mem_map] at hc
    obtain ⟨b, hb, rfl⟩ := hc
    exact isVisible_charOfByte_iff.mpr (h b hb)

end Utf8

/-! ### The grammar of names -/

namespace FunctionName

/-- What the bytes of init names and of receive names have in common. -/
def IsSpelling (bytes : Bytes) : Prop := bytes.length ≤ 100 ∧ ∀ b ∈ bytes, 0x21 ≤ b ∧ b ≤ 0x7E

theorem rule_iff_isSpelling {name : String} : Rule name ↔ IsSpelling (Utf8.encode name) :=
  and_congr_right fun _ => Utf8.forall_isVisible_iff

/-- Bytes that spell a name are those of a text. -/
theorem exists_encode_eq_of_isSpelling {bytes : Bytes} (h : IsSpelling bytes) :
    ∃ name, Utf8.encode name = bytes :=
  ⟨_, Utf8.encode_ofList_map_charOfByte h.2⟩

theorem dot_mem_iff {name : String} (h : IsSpelling (Utf8.encode name)) :
    '.' ∈ name.toList ↔ 0x2E ∈ Utf8.encode name := by
  have hdot : '.' = Utf8.charOfByte 0x2E := by decide
  rw [Utf8.toList_eq_map_charOfByte h.2, hdot,
    List.mem_map_of_injective Utf8.charOfByte_injective]

theorem init_prefix_iff {name : String} (h : IsSpelling (Utf8.encode name)) :
    "init_".toList <+: name.toList ↔ [0x69, 0x6E, 0x69, 0x74, 0x5F] <+: Utf8.encode name := by
  have hinit : "init_".toList = [0x69, 0x6E, 0x69, 0x74, 0x5F].map Utf8.charOfByte := by decide
  rw [Utf8.toList_eq_map_charOfByte h.2, hinit,
    List.prefix_map_iff_of_injective Utf8.charOfByte_injective]

end FunctionName

namespace InitName

/-- Behind `init_`, an init name has any visible bytes but dots. -/
def IsSpelling (bytes : Bytes) : Prop :=
  FunctionName.IsSpelling bytes ∧ [0x69, 0x6E, 0x69, 0x74, 0x5F] <+: bytes ∧ 0x2E ∉ bytes

theorem rule_iff_isSpelling {name : String} : Rule name ↔ IsSpelling (Utf8.encode name) := by
  rw [Rule, IsSpelling, FunctionName.rule_iff_isSpelling]
  refine and_congr_right fun h => ?_
  rw [FunctionName.init_prefix_iff h, FunctionName.dot_mem_iff h]

end InitName

namespace ReceiveName

def IsSpelling (bytes : Bytes) : Prop := FunctionName.IsSpelling bytes ∧ 0x2E ∈ bytes

theorem rule_iff_isSpelling {name : String} : Rule name ↔ IsSpelling (Utf8.encode name) := by
  rw [Rule, IsSpelling, FunctionName.rule_iff_isSpelling]
  exact and_congr_right FunctionName.dot_mem_iff

end ReceiveName

/-! ### The ways to a name -/

namespace FunctionName

/-- Names with the texts that `text` gives are taken from a text, from a document, and from the
bytes of a payload. Every way takes the names whose bytes a grammar allows, and gives the name that
has these bytes. -/
structure Routes {α : Type} [JsonForm α] (ofText : String → Except ValueError α)
    (text : α → String) (read : Reader α) (IsSpelling : Bytes → Prop) : Prop where
  accepted (bytes : Bytes) : (∃ n, ofText (Utf8.decodeLossy bytes) = .ok n) ↔ IsSpelling bytes
  value (bytes : Bytes) (n : α) :
    ofText (Utf8.decodeLossy bytes) = .ok n ↔ Utf8.encode (text n) = bytes
  utf8 (bytes : Bytes) (n : α) :
    ofText (Utf8.decodeLossy bytes) = .ok n ↔ Utf8.decode? bytes = some (text n)
  same (t : String) (n : α) :
    ofText t = .ok n ↔ ofText (Utf8.decodeLossy (Utf8.encode t)) = .ok n
  document (j : Json) (n : α) : ofJson j = .ok n ↔ ∃ t, j = .string t ∧ ofText t = .ok n
  wire (input : Bytes) (n : α) (rest : Bytes) :
    read input = .ok (n, rest) ↔
      ∃ bytes, input = Payload.counted bytes ++ rest ∧ ofText (Utf8.decodeLossy bytes) = .ok n

variable {α : Type} [JsonForm α] {ofText : String → Except ValueError α} {text : α → String}
  {read : Reader α} {IsSpelling : Bytes → Prop}

/-- Names that are checked texts have these ways, if the check is the grammar. -/
theorem Routes.of_checked (htext : ∀ {t n}, ofText t = .ok n ↔ text n = t)
    (hspelling : ∀ t, (∃ n, text n = t) ↔ IsSpelling (Utf8.encode t))
    (hcommon : ∀ {bytes}, IsSpelling bytes → FunctionName.IsSpelling bytes)
    (hjson : ∀ {j n}, ofJson j = .ok n ↔ ofJson j = .ok (text n))
    (hread : ∀ {input n rest},
      read input = .ok (n, rest) ↔ input = Payload.counted (Utf8.encode (text n)) ++ rest) :
    Routes ofText text read IsSpelling := by
  have hvisible : ∀ n, ∀ c ∈ (text n).toList, Utf8.IsVisible c := fun n =>
    Utf8.forall_isVisible_iff.mpr (hcommon ((hspelling (text n)).mp ⟨n, rfl⟩)).2
  have hbytes : ∀ bytes n,
      ofText (Utf8.decodeLossy bytes) = .ok n ↔ Utf8.encode (text n) = bytes := by
    intro bytes n
    rw [htext, eq_comm, Utf8.decodeLossy_eq_iff (hvisible n), eq_comm]
  refine ⟨fun bytes => ?_, hbytes, fun bytes n => ?_, fun t n => ?_, fun j n => ?_,
    fun input n rest => ?_⟩
  · simp only [hbytes]
    constructor
    · rintro ⟨n, rfl⟩
      exact (hspelling (text n)).mp ⟨n, rfl⟩
    · intro h
      obtain ⟨t, rfl⟩ := exists_encode_eq_of_isSpelling (hcommon h)
      obtain ⟨n, rfl⟩ := (hspelling t).mpr h
      exact ⟨n, rfl⟩
  · rw [hbytes]
    constructor
    · rintro rfl
      exact Utf8.decode?_encode (hvisible n)
    · exact Utf8.encode_of_decode?
  · rw [hbytes, htext, Utf8.encode_inj]
  · rw [hjson, ofJson_text_eq_ok_iff]
    constructor
    · rintro rfl
      exact ⟨text n, rfl, htext.mpr rfl⟩
    · rintro ⟨t, rfl, ht⟩
      rw [htext.mp ht]
  · rw [hread]
    constructor
    · rintro rfl
      exact ⟨Utf8.encode (text n), rfl, (hbytes _ n).mpr rfl⟩
    · rintro ⟨bytes, rfl, hn⟩
      rw [(hbytes bytes n).mp hn]

end FunctionName

/-! ### The parts of a name -/

/-- A list falls into what stands before the first of some element, and what stands behind it. -/
theorem takeWhile_ne_append_cons {β : Type} [DecidableEq β] {a : β} {l : List β} (h : a ∈ l) :
    l.takeWhile (· ≠ a) ++ a :: (l.dropWhile (· ≠ a)).drop 1 = l := by
  induction l with
  | nil => cases h
  | cons b l ih =>
      by_cases hb : b = a
      · simp [hb]
      · have hl : a ∈ l := (List.mem_cons.mp h).resolve_left fun heq => hb heq.symm
        simpa [hb] using ih hl

namespace InitName

theorem toList_contractName (n : InitName) : n.contractName.toList = n.text.toList.drop 5 :=
  String.toList_ofList

theorem init_append_contractName (n : InitName) : "init_" ++ n.contractName = n.text := by
  have hprefix : "init_".toList <+: n.text.toList := n.rule_text.2.1
  apply String.toList_injective
  rw [String.toList_append, toList_contractName]
  exact List.prefix_iff_eq_append.mp hprefix

end InitName

namespace ReceiveName

theorem toList_contractName (n : ReceiveName) :
    n.contractName.toList = n.text.toList.takeWhile (· ≠ '.') :=
  String.toList_ofList

theorem toList_entrypoint (n : ReceiveName) :
    n.entrypoint.toList = (n.text.toList.dropWhile (· ≠ '.')).drop 1 :=
  String.toList_ofList

theorem contractName_append_entrypoint (n : ReceiveName) :
    n.contractName ++ "." ++ n.entrypoint = n.text := by
  have hdot : '.' ∈ n.text.toList := n.rule_text.2
  apply String.toList_injective
  rw [String.toList_append, String.toList_append, toList_contractName, toList_entrypoint,
    List.append_assoc]
  exact takeWhile_ne_append_cons hdot

theorem dot_notMem_contractName (n : ReceiveName) : '.' ∉ n.contractName.toList := by
  intro hmem
  rw [toList_contractName] at hmem
  simpa using List.mem_takeWhile_imp hmem

end ReceiveName

/-! ### Names and their grammars -/

theorem InitName.routes :
    FunctionName.Routes InitName.ofText InitName.text Payload.readInitName InitName.IsSpelling :=
  .of_checked InitName.ofText_eq_ok_iff
    (fun _ => (exists_draft_iff (α := InitName)).trans InitName.rule_iff_isSpelling)
    And.left InitName.ofJson_eq_ok_iff Payload.readInitName_eq_ok_iff

theorem ReceiveName.routes :
    FunctionName.Routes ReceiveName.ofText ReceiveName.text Payload.readReceiveName
      ReceiveName.IsSpelling :=
  .of_checked ReceiveName.ofText_eq_ok_iff
    (fun _ => (exists_draft_iff (α := ReceiveName)).trans ReceiveName.rule_iff_isSpelling)
    And.left ReceiveName.ofJson_eq_ok_iff Payload.readReceiveName_eq_ok_iff

namespace FunctionName

/-- Init names and receive names are the byte strings of their grammars, on every way in; none is
both, and each is made up of its parts. -/
theorem names_exact :
    Routes InitName.ofText InitName.text Payload.readInitName InitName.IsSpelling ∧
    Routes ReceiveName.ofText ReceiveName.text Payload.readReceiveName ReceiveName.IsSpelling ∧
    (∀ t : String, ¬ ((∃ i, InitName.ofText t = .ok i) ∧ ∃ r, ReceiveName.ofText t = .ok r)) ∧
    (∀ n : ReceiveName,
      n.contractName ++ "." ++ n.entrypoint = n.text ∧ '.' ∉ n.contractName.toList) ∧
    ∀ n : InitName, "init_" ++ n.contractName = n.text := by
  refine ⟨InitName.routes, ReceiveName.routes, ?_, ?_, InitName.init_append_contractName⟩
  · rintro t ⟨⟨i, hi⟩, r, hr⟩
    rw [InitName.ofText_eq_ok_iff] at hi
    rw [ReceiveName.ofText_eq_ok_iff] at hr
    exact i.rule_text.2.2 (hi.trans hr.symm ▸ r.rule_text.2)
  · exact fun n => ⟨n.contractName_append_entrypoint, n.dot_notMem_contractName⟩

end FunctionName

end AccountTx
