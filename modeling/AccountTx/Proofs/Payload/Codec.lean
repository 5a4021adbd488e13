import AccountTx.Payload.Decode
import AccountTx.Proofs.Value.Checked
import AccountTx.Proofs.Wire.Reading

/-!
The bytes of a payload are read as that payload, but for the energy that a contract call may use,
which is not written and which the reader supplies. No other bytes are read as a payload. There is
one equivalence for each field, then one for each kind of payload.
-/

namespace AccountTx

theorem TransactionType.ofTag?_eq_some_iff {tag : UInt8} {type : TransactionType} :
    ofTag? tag = some type ↔ type.tag = tag := by
  constructor
  · intro h
    simpa using List.find?_some h
  · rintro rfl
    cases type <;> rfl

namespace Payload

open Reader

variable {bytes rest : Bytes} {maxEnergy : Energy}

/-! ### Fields -/

theorem readAmount_eq_ok_iff {amount : Amount} :
    readAmount bytes = .ok (amount, rest) ↔ bytes = amount.encode ++ rest := by
  simp only [readAmount, bind_eq_ok_iff, pure_eq_ok_iff, word_eq_ok_iff]
  constructor
  · rintro ⟨micro, _, rfl, rfl, rfl⟩
    rfl
  · rintro rfl
    exact ⟨amount.micro, rest, rfl, rfl, rfl⟩

theorem readReceiver_eq_ok_iff {receiver : Address} :
    readReceiver bytes = .ok (receiver, rest) ↔ bytes = receiver.bytes.toList ++ rest := by
  simp only [readReceiver, bind_eq_ok_iff, pure_eq_ok_iff, fixed_eq_ok_iff]
  constructor
  · rintro ⟨fixed, _, rfl, rfl, rfl⟩
    rfl
  · rintro rfl
    exact ⟨receiver.bytes, rest, rfl, rfl, rfl⟩

theorem readContract_eq_ok_iff {contract : ContractAddress} :
    readContract bytes = .ok (contract, rest) ↔ bytes = contract.encode ++ rest := by
  simp only [readContract, bind_eq_ok_iff, pure_eq_ok_iff, word_eq_ok_iff]
  constructor
  · rintro ⟨index, _, rfl, subindex, _, rfl, rfl, rfl⟩
    simp [ContractAddress.encode]
  · rintro rfl
    exact ⟨contract.index, _, by simp [ContractAddress.encode], contract.subindex, rest, rfl, rfl,
      rfl⟩

/-- A checked value after its length: `make` checks the bytes, and a value that passes has the bytes
`written`, which are not too long for their length to be written. -/
theorem readChecked_eq_ok_iff {α : Type} {field : String} {make : Bytes → Except ValueError α}
    {value : α} {written : Bytes} (hmake : ∀ b, make b = .ok value ↔ b = written)
    (hlength : written.length < 65536) :
    (do Reader.check (make (← Reader.counted field)) : Reader α) bytes = .ok (value, rest) ↔
      bytes = counted written ++ rest := by
  simp only [bind_eq_ok_iff, counted_eq_ok_iff, check_eq_ok_iff, hmake]
  constructor
  · rintro ⟨_, _, ⟨_, rfl⟩, rfl, rfl⟩
    rfl
  · rintro rfl
    exact ⟨written, rest, ⟨hlength, rfl⟩, rfl, rfl⟩

theorem readParameter_eq_ok_iff {parameter : Parameter} :
    readParameter bytes = .ok (parameter, rest) ↔ bytes = counted parameter.bytes ++ rest := by
  refine readChecked_eq_ok_iff (fun b => ?_) (Nat.lt_succ_of_le parameter.length_le)
  rw [Parameter.ofBytes_eq_ok_iff, eq_comm]

theorem readInitName_eq_ok_iff {name : InitName} :
    readInitName bytes = .ok (name, rest) ↔ bytes = counted name.encode ++ rest :=
  readChecked_eq_ok_iff (fun _ => InitName.ofText_decodeLossy_eq_ok_iff)
    (Nat.lt_of_le_of_lt name.length_encode_le (by decide))

theorem readReceiveName_eq_ok_iff {name : ReceiveName} :
    readReceiveName bytes = .ok (name, rest) ↔ bytes = counted name.encode ++ rest :=
  readChecked_eq_ok_iff (fun _ => ReceiveName.ofText_decodeLossy_eq_ok_iff)
    (Nat.lt_of_le_of_lt name.length_encode_le (by decide))

/-! ### Kinds of payload -/

/-- What is read as the body of a payload of some type is what is written for the payload, which is
of this type and has the energy that was supplied. -/
theorem eq_of_readBody {type : TransactionType} {p : Payload}
    (h : readBody maxEnergy type bytes = .ok (p, rest)) :
    p.type = type ∧ p.withMaxEnergy maxEnergy = p ∧ bytes = p.encodeBody ++ rest := by
  cases type
  case deployModule =>
    simp only [readBody, bind_eq_ok_iff, pure_eq_ok_iff, all_eq_ok_iff] at h
    obtain ⟨_, _, ⟨rfl, rfl⟩, rfl, rfl⟩ := h
    exact ⟨rfl, rfl, by simp [encodeBody]⟩
  case initContract =>
    simp only [readBody, bind_eq_ok_iff, pure_eq_ok_iff, readAmount_eq_ok_iff, fixed_eq_ok_iff,
      readInitName_eq_ok_iff, readParameter_eq_ok_iff] at h
    obtain ⟨amount, _, rfl, module, _, rfl, name, _, rfl, parameter, _, rfl, rfl, rfl⟩ := h
    exact ⟨rfl, rfl, by simp [encodeBody]⟩
  case update =>
    simp only [readBody, bind_eq_ok_iff, pure_eq_ok_iff, readAmount_eq_ok_iff,
      readContract_eq_ok_iff, readReceiveName_eq_ok_iff, readParameter_eq_ok_iff] at h
    obtain ⟨amount, _, rfl, contract, _, rfl, name, _, rfl, parameter, _, rfl, rfl, rfl⟩ := h
    exact ⟨rfl, rfl, by simp [encodeBody]⟩
  case transfer =>
    simp only [readBody, bind_eq_ok_iff, pure_eq_ok_iff, readAmount_eq_ok_iff,
      readReceiver_eq_ok_iff] at h
    obtain ⟨receiver, _, rfl, amount, _, rfl, rfl, rfl⟩ := h
    exact ⟨rfl, rfl, by simp [encodeBody]⟩
  case registerData =>
    simp only [readBody, bind_eq_ok_iff, pure_eq_ok_iff, counted_eq_ok_iff, check_eq_ok_iff,
      ChainData.ofBytes_eq_ok_iff] at h
    obtain ⟨_, _, ⟨_, rfl⟩, data, _, ⟨rfl, rfl⟩, rfl, rfl⟩ := h
    exact ⟨rfl, rfl, rfl⟩
  case transferWithMemo =>
    simp only [readBody, bind_eq_ok_iff, pure_eq_ok_iff, readAmount_eq_ok_iff,
      readReceiver_eq_ok_iff, counted_eq_ok_iff, check_eq_ok_iff, ChainData.ofBytes_eq_ok_iff] at h
    obtain ⟨receiver, _, rfl, _, _, ⟨_, rfl⟩, memo, _, ⟨rfl, rfl⟩, amount, _, rfl, rfl, rfl⟩ := h
    exact ⟨rfl, rfl, by simp [encodeBody, counted]⟩
  all_goals cases h

/-- What is written for a payload is read back, and only a module takes all that follows. -/
theorem readBody_encodeBody (p : Payload) (h : p.type = .deployModule → rest = []) :
    readBody maxEnergy p.type (p.encodeBody ++ rest) = .ok (p.withMaxEnergy maxEnergy, rest) := by
  cases p with
  | deployModule module =>
      simp only [type, readBody, bind_eq_ok_iff, pure_eq_ok_iff, all_eq_ok_iff, h rfl]
      exact ⟨module, [], ⟨by simp [encodeBody], rfl⟩, rfl, rfl⟩
  | initContract amount module name parameter energy =>
      simp only [type, readBody, bind_eq_ok_iff, pure_eq_ok_iff, readAmount_eq_ok_iff,
        fixed_eq_ok_iff, readInitName_eq_ok_iff, readParameter_eq_ok_iff]
      exact ⟨amount, _, by simp [encodeBody], module.bytes, _, rfl, name, _, rfl, parameter, _, rfl,
        rfl, rfl⟩
  | updateContract amount contract name parameter energy =>
      simp only [type, readBody, bind_eq_ok_iff, pure_eq_ok_iff, readAmount_eq_ok_iff,
        readContract_eq_ok_iff, readReceiveName_eq_ok_iff, readParameter_eq_ok_iff]
      exact ⟨amount, _, by simp [encodeBody], contract, _, rfl, name, _, rfl, parameter, _, rfl,
        rfl, rfl⟩
  | transfer amount receiver =>
      simp only [type, readBody, bind_eq_ok_iff, pure_eq_ok_iff, readAmount_eq_ok_iff,
        readReceiver_eq_ok_iff]
      exact ⟨receiver, _, by simp [encodeBody], amount, _, rfl, rfl, rfl⟩
  | registerData data =>
      simp only [type, readBody, bind_eq_ok_iff, pure_eq_ok_iff, counted_eq_ok_iff,
        check_eq_ok_iff, ChainData.ofBytes_eq_ok_iff]
      exact ⟨data.bytes, _, ⟨Nat.lt_of_le_of_lt data.length_le (by decide), rfl⟩, data, _,
        ⟨rfl, rfl⟩, rfl, rfl⟩
  | transferWithMemo amount receiver memo =>
      simp only [type, readBody, bind_eq_ok_iff, pure_eq_ok_iff, readAmount_eq_ok_iff,
        readReceiver_eq_ok_iff, counted_eq_ok_iff, check_eq_ok_iff, ChainData.ofBytes_eq_ok_iff]
      exact ⟨receiver, counted memo.bytes ++ (amount.encode ++ rest), by simp [encodeBody],
        memo.bytes, _, ⟨Nat.lt_of_le_of_lt memo.length_le (by decide), by simp [counted]⟩, memo, _,
        ⟨rfl, rfl⟩, amount, _, rfl, rfl, rfl⟩

@[simp] theorem encode_withMaxEnergy (p : Payload) :
    (p.withMaxEnergy maxEnergy).encode = p.encode := by
  cases p <;> rfl

theorem withMaxEnergy_withMaxEnergy (p : Payload) (e e' : Energy) :
    (p.withMaxEnergy e).withMaxEnergy e' = p.withMaxEnergy e' := by
  cases p <;> rfl

/-- The byte strings that are read as a payload are those that are written for one, and reading
gives the payload with the energy that was supplied. -/
theorem decodeWithEnergy_eq_ok_iff {p : Payload} :
    decodeWithEnergy bytes maxEnergy = .ok p ↔
      bytes = p.encode ∧ p.withMaxEnergy maxEnergy = p := by
  simp only [decodeWithEnergy, complete_eq_ok_iff, read, bind_eq_ok_iff, byte_eq_ok_iff]
  constructor
  · rintro ⟨tag, body, rfl, h⟩
    cases htype : TransactionType.ofTag? tag with
    | none =>
        rw [htype] at h
        exact absurd h fail_ne_ok
    | some type =>
        rw [htype] at h
        obtain ⟨rfl, henergy, rfl⟩ := eq_of_readBody h
        rw [TransactionType.ofTag?_eq_some_iff] at htype
        exact ⟨by simp [encode, htype], henergy⟩
  · rintro ⟨rfl, henergy⟩
    have htype : TransactionType.ofTag? p.type.tag = some p.type :=
      TransactionType.ofTag?_eq_some_iff.mpr rfl
    -- nothing follows the payload, so that a module may take all bytes
    have hbody : readBody maxEnergy p.type (p.encodeBody ++ [])
        = .ok (p.withMaxEnergy maxEnergy, []) :=
      readBody_encodeBody p fun _ => rfl
    rw [henergy, List.append_nil] at hbody
    refine ⟨p.type.tag, p.encodeBody, rfl, ?_⟩
    rw [htype]
    exact hbody

/-- Whatever energy is supplied, a payload is read back from its bytes with this energy. -/
theorem decodeWithEnergy_encode (p : Payload) :
    decodeWithEnergy p.encode maxEnergy = .ok (p.withMaxEnergy maxEnergy) := by
  rw [decodeWithEnergy_eq_ok_iff]
  exact ⟨(encode_withMaxEnergy p).symm, by cases p <;> rfl⟩

/-! ### Bijection -/

/-- The base cost of a contract call is its allowance. -/
theorem withMaxEnergy_baseCost (p : Payload) : p.withMaxEnergy p.baseCost = p := by
  cases p <;> rfl

/-- The names, the parameter and the data of the payload pass the checks they are made with. -/
def IsValid : Payload → Prop
  | deployModule _ => True
  | initContract _ _ name parameter _ =>
      InitName.ofText name.text = .ok name ∧ Parameter.ofBytes parameter.bytes = .ok parameter
  | updateContract _ _ name parameter _ =>
      ReceiveName.ofText name.text = .ok name ∧ Parameter.ofBytes parameter.bytes = .ok parameter
  | transfer _ _ => True
  | registerData data => ChainData.ofBytes data.bytes = .ok data
  | transferWithMemo _ _ memo => ChainData.ofBytes memo.bytes = .ok memo

theorem isValid (p : Payload) : p.IsValid := by
  cases p with
  | deployModule module => trivial
  | initContract amount module name parameter energy =>
      exact ⟨InitName.ofText_eq_ok_iff.mpr rfl, Parameter.ofBytes_eq_ok_iff.mpr rfl⟩
  | updateContract amount contract name parameter energy =>
      exact ⟨ReceiveName.ofText_eq_ok_iff.mpr rfl, Parameter.ofBytes_eq_ok_iff.mpr rfl⟩
  | transfer amount receiver => trivial
  | registerData data => exact ChainData.ofBytes_eq_ok_iff.mpr rfl
  | transferWithMemo amount receiver memo => exact ChainData.ofBytes_eq_ok_iff.mpr rfl

/-- The allowance of a contract call is all that is not written. -/
theorem encode_eq_encode_iff {p q : Payload} :
    p.encode = q.encode ↔ ∃ e, p.withMaxEnergy e = q := by
  constructor
  · intro h
    -- both payloads are read from these bytes once the energy of `q` is supplied
    have hp : decodeWithEnergy p.encode q.baseCost = .ok (p.withMaxEnergy q.baseCost) :=
      decodeWithEnergy_encode p
    have hq : decodeWithEnergy p.encode q.baseCost = .ok q :=
      decodeWithEnergy_eq_ok_iff.mpr ⟨h, q.withMaxEnergy_baseCost⟩
    rw [hp] at hq
    exact ⟨q.baseCost, Except.ok.inj hq⟩
  · rintro ⟨e, rfl⟩
    rw [encode_withMaxEnergy]

/-- Reading inverts writing in both directions, up to the energy that a contract call may use: it is
not written, and is what the reader supplies. Only valid payloads are read. -/
theorem codec_bijective :
    (∀ p : Payload, decodeWithEnergy p.encode p.baseCost = .ok p) ∧
    (∀ (p : Payload) e, decodeWithEnergy p.encode e = .ok (p.withMaxEnergy e)) ∧
    (∀ bytes e p,
      decodeWithEnergy bytes e = .ok p ↔ p.IsValid ∧ p.encode = bytes ∧ p.withMaxEnergy e = p) ∧
    ∀ p q : Payload, p.encode = q.encode ↔ ∃ e, p.withMaxEnergy e = q := by
  refine ⟨fun p => ?_, fun p e => decodeWithEnergy_encode p, fun bytes e p => ?_,
    fun p q => encode_eq_encode_iff⟩
  · rw [decodeWithEnergy_encode, withMaxEnergy_baseCost]
  · rw [decodeWithEnergy_eq_ok_iff, and_iff_right p.isValid, eq_comm (a := bytes)]

end Payload

end AccountTx
