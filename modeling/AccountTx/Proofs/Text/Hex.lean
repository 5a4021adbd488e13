import AccountTx.Bytes.Hex
import AccountTx.Proofs.Text.Utf8

/-!
Hexadecimal texts and the bytes they stand for. A text is read as bytes exactly if its lower case is
what is written for them, and it is read as some bytes exactly if all its characters are digits and
their number is even. Any other text is refused for the first of its faults.
-/

namespace AccountTx.Hex

/-- The digits in either case. -/
def digits : List Char :=
  ['0', '1', '2', '3', '4', '5', '6', '7', '8', '9', 'a', 'b', 'c', 'd', 'e', 'f',
    'A', 'B', 'C', 'D', 'E', 'F']

/-- The text consists of the digits of `n` bytes. -/
def Spells (n : Nat) (text : String) : Prop :=
  text.toList.length = 2 * n ∧ ∀ c ∈ text.toList, c ∈ digits

instance (n : Nat) (text : String) : Decidable (Spells n text) :=
  decidable_of_iff (text.toList.length = 2 * n ∧ text.toList.all (· ∈ digits) = true)
    (by simp [Spells])

/-! ### Single digits -/

/-- The value of a digit. -/
def value (c : Char) : UInt8 := (digitValue? (UInt8.ofNat c.toNat)).getD 0

/-- Characters are checked along a list, and not along all characters that there are. -/
theorem forall_mem_of_all {cs : List Char} {P : Char → Prop} [DecidablePred P]
    (h : cs.all (P ·) = true) : ∀ c ∈ cs, P c := by
  simpa using h

theorem value_lt : ∀ c ∈ digits, value c < 16 := forall_mem_of_all (by decide)

theorem isDigit_of_mem : ∀ c ∈ digits, isDigit (UInt8.ofNat c.toNat) = true :=
  forall_mem_of_all (by decide)

theorem isVisible_of_mem : ∀ c ∈ digits, Utf8.IsVisible c := forall_mem_of_all (by decide)

theorem digit_value : ∀ c ∈ digits, digit (value c) = c.toLower := forall_mem_of_all (by decide)

theorem value_digit : ∀ n < 16, value (digit (UInt8.ofNat n)) = UInt8.ofNat n := by decide

theorem digit_mem : ∀ n < 16, digit (UInt8.ofNat n) ∈ digits.take 16 := by decide

theorem mem_digits_of_isDigit :
    ∀ n < 128, isDigit (UInt8.ofNat n) = true → Char.ofNat n ∈ digits := by
  decide +kernel

theorem mem_digits_of_toLower_mem {c : Char} (h : c.toLower ∈ digits.take 16) : c ∈ digits := by
  by_cases hupper : 65 ≤ c.toNat ∧ c.toNat ≤ 90
  · have hcases : ∀ n < 91, (Char.ofNat n).toLower ∈ digits.take 16 → Char.ofNat n ∈ digits := by
      decide +kernel
    have hc := hcases c.toNat (by omega)
    rw [Char.ofNat_toNat] at hc
    exact hc h
  · have hsame : c.toLower = c := by
      delta Char.toLower
      rw [dif_neg]
      simpa [UInt32.le_iff_toNat_le] using hupper
    rw [hsame] at h
    exact List.mem_of_mem_take h

/-- The bytes of a character beyond ASCII are no digits. -/
theorem forall_isDigit_iff {c : Char} :
    (∀ b ∈ String.utf8EncodeChar c, isDigit b = true) ↔ c ∈ digits := by
  constructor
  · intro h
    by_cases hascii : c.toNat ≤ 127
    · have hcode : String.utf8EncodeChar c = [UInt8.ofNat c.toNat] := by
        simp [String.utf8EncodeChar, hascii]
      have hdigit := mem_digits_of_isDigit c.toNat (by omega)
      rw [Char.ofNat_toNat] at hdigit
      exact hdigit (h _ (by simp [hcode]))
    -- the first of several bytes is at least 192
    · have hlead : ∃ n < 64, UInt8.ofNat (n + 192) ∈ String.utf8EncodeChar c := by
        simp only [String.utf8EncodeChar]
        split
        next hle => exact absurd hle hascii
        next =>
          split
          next => exact ⟨c.val.toNat / 64 % 32, by omega, by simp⟩
          next =>
            split
            next => exact ⟨c.val.toNat / 4096 % 16 + 32, by omega, by simp [Nat.add_assoc]⟩
            next => exact ⟨c.val.toNat / 262144 % 8 + 48, by omega, by simp [Nat.add_assoc]⟩
      obtain ⟨n, hn, hmem⟩ := hlead
      have hno : ∀ n < 64, isDigit (UInt8.ofNat (n + 192)) = false := by decide
      have hyes := h _ hmem
      rw [hno n hn] at hyes
      cases hyes
  · intro hc b hb
    rw [Utf8.encodeChar_of_isVisible (isVisible_of_mem c hc), List.mem_singleton] at hb
    rw [hb]
    exact isDigit_of_mem c hc

/-! ### Texts -/

theorem forall_isDigit_encode_iff {text : String} :
    (∀ b ∈ Utf8.encode text, isDigit b = true) ↔ ∀ c ∈ text.toList, c ∈ digits := by
  simp only [Utf8.encode, List.mem_flatMap, forall_exists_index, and_imp]
  constructor
  · exact fun h c hc => forall_isDigit_iff.mp fun b hb => h b c hc hb
  · exact fun h b c hc hb => forall_isDigit_iff.mpr (h c hc) b hb

theorem encode_of_digits {cs : List Char} (h : ∀ c ∈ cs, c ∈ digits) :
    cs.flatMap String.utf8EncodeChar = cs.map fun c => UInt8.ofNat c.toNat := by
  induction cs with
  | nil => rfl
  | cons c cs ih =>
      rw [List.flatMap_cons, List.map_cons, ih fun d hd => h d (List.mem_cons_of_mem c hd),
        Utf8.encodeChar_of_isVisible (isVisible_of_mem c (h c List.mem_cons_self))]
      rfl

theorem decodeBytes_eq_ok_iff {bs bytes : Bytes} :
    decodeBytes bs = .ok bytes ↔
      bs.length % 2 = 0 ∧ (∀ b ∈ bs, isDigit b = true) ∧ pairs [] bs = bytes := by
  have hall : bs.zipIdx.find? (fun d => !isDigit d.1) = none ↔ ∀ b ∈ bs, isDigit b = true := by
    rw [List.find?_eq_none]
    constructor
    · intro h b hb
      rw [← List.zipIdx_map_fst 0 bs] at hb
      obtain ⟨d, hd, rfl⟩ := List.mem_map.mp hb
      simpa using h d hd
    · intro h d hd
      simp [h d.1 (List.fst_mem_of_mem_zipIdx hd)]
  rw [decodeBytes]
  split
  next hodd => simp [hodd]
  next heven =>
    have hmod : bs.length % 2 = 0 := by omega
    rw [← hall]
    split
    next heq => simp [heq]
    next heq => simp [heq, hmod]

theorem pairs_append : (done bs : Bytes) → pairs done bs = done.reverse ++ pairs [] bs
  | done, high :: low :: bs => by
      rw [pairs, pairs, pairs_append _ bs, pairs_append [_] bs]
      simp
  | done, [] => by simp [pairs]
  | done, [b] => by simp [pairs]

theorem encodeByte_value {high low : Char} (hhigh : high ∈ digits) (hlow : low ∈ digits) :
    encodeByte (value high * 16 + value low) = [high.toLower, low.toLower] := by
  have hsplit : ∀ m < 16, ∀ n < 16, (m * 16 + n : UInt8) / 16 = m ∧ (m * 16 + n) % 16 = n := by
    intro m hm n hn
    rw [UInt8.lt_iff_toNat_lt] at hm hn
    constructor
    all_goals
      apply UInt8.toNat_inj.mp
      simp at hm hn ⊢
      omega
  obtain ⟨hdiv, hmod⟩ := hsplit _ (value_lt high hhigh) _ (value_lt low hlow)
  rw [encodeByte, hdiv, hmod, digit_value high hhigh, digit_value low hlow]

/-- The bytes of an even number of digits are written as these digits in lower case. -/
theorem encode_pairs : (cs : List Char) → cs.length % 2 = 0 → (∀ c ∈ cs, c ∈ digits) →
    (pairs [] (cs.map fun c => UInt8.ofNat c.toNat)).flatMap encodeByte = cs.map Char.toLower
  | high :: low :: cs, heven, h => by
      have heven' : cs.length % 2 = 0 := by
        simp only [List.length_cons] at heven
        omega
      have hrest := encode_pairs cs heven' fun c hc =>
        h c (List.mem_cons_of_mem _ (List.mem_cons_of_mem _ hc))
      have hbyte := encodeByte_value (h high List.mem_cons_self)
        (h low (List.mem_cons_of_mem _ List.mem_cons_self))
      rw [value, value] at hbyte
      simp only [List.map_cons, pairs]
      rw [pairs_append]
      simp [hrest, hbyte]
  | [], _, _ => rfl
  | [_], hodd, _ => by simp at hodd

theorem toNat_nibbles (b : UInt8) : b.toNat / 16 < 16 ∧ b.toNat % 16 < 16 := by
  have hlt := b.toNat_lt
  omega

theorem encodeByte_eq (b : UInt8) :
    encodeByte b = [digit (UInt8.ofNat (b.toNat / 16)), digit (UInt8.ofNat (b.toNat % 16))] := by
  have hlt := b.toNat_lt
  have hdiv : b / 16 = UInt8.ofNat (b.toNat / 16) := UInt8.toNat_inj.mp (by simp; omega)
  have hmod : b % 16 = UInt8.ofNat (b.toNat % 16) := UInt8.toNat_inj.mp (by simp; omega)
  rw [encodeByte, hdiv, hmod]

theorem encodeByte_inj {a b : UInt8} (h : encodeByte a = encodeByte b) : a = b := by
  obtain ⟨hahigh, halow⟩ := toNat_nibbles a
  obtain ⟨hbhigh, hblow⟩ := toNat_nibbles b
  rw [encodeByte_eq, encodeByte_eq, List.cons.injEq, List.cons.injEq] at h
  have hhigh := congrArg value h.1
  have hlow := congrArg value h.2.1
  rw [value_digit _ hahigh, value_digit _ hbhigh] at hhigh
  rw [value_digit _ halow, value_digit _ hblow] at hlow
  have hdiv := congrArg UInt8.toNat hhigh
  have hmod := congrArg UInt8.toNat hlow
  apply UInt8.toNat_inj.mp
  simp at hdiv hmod
  omega

theorem flatMap_encodeByte_inj {as bs : Bytes}
    (h : as.flatMap encodeByte = bs.flatMap encodeByte) : as = bs := by
  induction as generalizing bs with
  | nil =>
      cases bs with
      | nil => rfl
      | cons b bs => simp [encodeByte] at h
  | cons a as ih =>
      cases bs with
      | nil => simp [encodeByte] at h
      | cons b bs =>
          rw [List.flatMap_cons, List.flatMap_cons] at h
          obtain ⟨hbyte, hrest⟩ := List.append_inj h rfl
          rw [encodeByte_inj hbyte, ih hrest]

@[simp] theorem length_flatMap_encodeByte (bytes : Bytes) :
    (bytes.flatMap encodeByte).length = 2 * bytes.length := by
  induction bytes with
  | nil => rfl
  | cons b bytes ih =>
      rw [List.flatMap_cons, List.length_append, ih, encodeByte, List.length_cons, List.length_cons,
        List.length_nil, List.length_cons]
      omega

/-- What is written are digits in lower case. -/
theorem mem_of_mem_flatMap_encodeByte {bytes : Bytes} {c : Char}
    (h : c ∈ bytes.flatMap encodeByte) : c ∈ digits.take 16 := by
  obtain ⟨b, -, hc⟩ := List.mem_flatMap.mp h
  obtain ⟨hhigh, hlow⟩ := toNat_nibbles b
  rw [encodeByte_eq, List.mem_cons, List.mem_singleton] at hc
  rcases hc with rfl | rfl
  · exact digit_mem _ hhigh
  · exact digit_mem _ hlow

/-- The text is what is written for the bytes, in either case. -/
def IsHexOf (text : String) (bytes : Bytes) : Prop :=
  text.toList.map Char.toLower = (encode bytes).toList

theorem toList_toLower (text : String) : text.toLower.toList = text.toList.map Char.toLower :=
  String.toList_map

theorem isHexOf_iff_toLower {text : String} {bytes : Bytes} :
    IsHexOf text bytes ↔ text.toLower = encode bytes := by
  rw [IsHexOf, ← String.toList_inj, toList_toLower]

theorem decode_eq_ok_iff {text : String} {bytes : Bytes} :
    decode text = .ok bytes ↔ IsHexOf text bytes := by
  rw [decode, decodeBytes_eq_ok_iff, forall_isDigit_encode_iff, IsHexOf, encode,
    String.toList_ofList]
  constructor
  · rintro ⟨heven, hdigits, hpairs⟩
    have hcodes := encode_of_digits hdigits
    rw [Utf8.encode, hcodes] at heven hpairs
    rw [← hpairs, encode_pairs _ (by simpa using heven) hdigits]
  · intro h
    have hdigits : ∀ c ∈ text.toList, c ∈ digits := by
      intro c hc
      have hlower : c.toLower ∈ bytes.flatMap encodeByte := h ▸ List.mem_map_of_mem hc
      exact mem_digits_of_toLower_mem (mem_of_mem_flatMap_encodeByte hlower)
    have heven : text.toList.length % 2 = 0 := by
      have hlength := congrArg List.length h
      rw [List.length_map, length_flatMap_encodeByte] at hlength
      omega
    have hcodes := encode_of_digits hdigits
    refine ⟨by rw [Utf8.encode, hcodes, List.length_map, heven], hdigits, ?_⟩
    apply flatMap_encodeByte_inj
    rw [Utf8.encode, hcodes, encode_pairs _ heven hdigits, h]

@[simp] theorem decode_encode (bytes : Bytes) : decode (encode bytes) = .ok bytes := by
  have hlower : ∀ c ∈ digits.take 16, c.toLower = c := forall_mem_of_all (by decide)
  rw [decode_eq_ok_iff, IsHexOf, encode, String.toList_ofList]
  have hmap : (bytes.flatMap encodeByte).map Char.toLower = (bytes.flatMap encodeByte).map id :=
    List.map_congr_left fun c hc => hlower c (mem_of_mem_flatMap_encodeByte hc)
  rw [hmap, List.map_id]

/-- The texts of a number of bytes. -/
theorem exists_isHexOf_iff {n : Nat} {text : String} :
    (∃ bytes : Bytes, IsHexOf text bytes ∧ bytes.length = n) ↔ Spells n text := by
  simp only [← decode_eq_ok_iff, decode, decodeBytes_eq_ok_iff, forall_isDigit_encode_iff, Spells]
  constructor
  · rintro ⟨bytes, ⟨heven, hdigits, hpairs⟩, rfl⟩
    have hcodes := encode_of_digits hdigits
    rw [Utf8.encode, hcodes] at heven hpairs
    have hlower := congrArg List.length (encode_pairs _ (by simpa using heven) hdigits)
    rw [hpairs, length_flatMap_encodeByte, List.length_map] at hlower
    exact ⟨hlower.symm, hdigits⟩
  · rintro ⟨hlength, hdigits⟩
    have hcodes := encode_of_digits hdigits
    have heven : text.toList.length % 2 = 0 := by omega
    have hlower := congrArg List.length (encode_pairs _ heven hdigits)
    rw [length_flatMap_encodeByte, List.length_map, hlength] at hlower
    refine ⟨_, ⟨?_, hdigits, rfl⟩, ?_⟩
    · rw [Utf8.encode, hcodes, List.length_map, heven]
    · rw [Utf8.encode, hcodes]
      omega

/-- The texts of byte strings have an even number of digits. -/
theorem exists_isHexOf_iff_even {text : String} :
    (∃ bytes : Bytes, IsHexOf text bytes) ↔
      text.toList.length % 2 = 0 ∧ ∀ c ∈ text.toList, c ∈ digits := by
  constructor
  · rintro ⟨bytes, h⟩
    obtain ⟨hlength, hdigits⟩ := exists_isHexOf_iff.mp ⟨bytes, h, rfl⟩
    exact ⟨by omega, hdigits⟩
  · rintro ⟨heven, hdigits⟩
    obtain ⟨bytes, h, -⟩ := exists_isHexOf_iff.mpr
      (show Spells (text.toList.length / 2) text from ⟨by omega, hdigits⟩)
    exact ⟨bytes, h⟩

/-! ### Faults -/

/-- The bytes that spell a digit. -/
def digitBytes : Bytes := digits.map fun c => UInt8.ofNat c.toNat

theorem isDigit_iff {b : UInt8} : isDigit b = true ↔ b ∈ digitBytes := by
  have hall : ∀ n < 256, isDigit (UInt8.ofNat n) = decide (UInt8.ofNat n ∈ digitBytes) := by
    decide +kernel
  have hb := hall b.toNat b.toNat_lt
  rw [UInt8.ofNat_toNat] at hb
  rw [hb, decide_eq_true_iff]

/-- What is wrong with a text, told of the bytes of its UTF-8 form: that their number is odd, or
else the first of them that spells no digit. -/
def HasFault (text : String) : HexError → Prop
  | .oddLength => (Utf8.encode text).length % 2 = 1
  | .invalidDigit byte position =>
      (Utf8.encode text).length % 2 = 0 ∧ byte ∉ digitBytes ∧
        ∃ before after, Utf8.encode text = before ++ byte :: after ∧ before.length = position ∧
          ∀ b ∈ before, b ∈ digitBytes

theorem find?_zipIdx_eq_some_iff {bs : Bytes} {byte : UInt8} {position : Nat} :
    bs.zipIdx.find? (fun d => !isDigit d.1) = some (byte, position) ↔
      byte ∉ digitBytes ∧ ∃ before after, bs = before ++ byte :: after ∧
        before.length = position ∧ ∀ b ∈ before, b ∈ digitBytes := by
  rw [List.find?_eq_some_iff_append]
  simp only [← isDigit_iff, Bool.not_eq_true, Bool.not_eq_true', Bool.not_not]
  refine and_congr_right fun _ => ?_
  constructor
  · rintro ⟨front, back, hsplit, hfront⟩
    obtain ⟨before, rest, rfl, rfl, hrest⟩ := List.zipIdx_eq_append_iff.mp hsplit
    obtain ⟨_, after, rfl, hbyte, -⟩ := List.zipIdx_eq_cons_iff.mp hrest.symm
    obtain ⟨rfl, rfl⟩ := Prod.mk.inj hbyte
    refine ⟨before, after, rfl, (Nat.zero_add _).symm, fun b hb => ?_⟩
    rw [← List.zipIdx_map_fst 0 before] at hb
    obtain ⟨d, hd, rfl⟩ := List.mem_map.mp hb
    exact hfront d hd
  · rintro ⟨before, after, rfl, rfl, hbefore⟩
    refine ⟨before.zipIdx, after.zipIdx (before.length + 1), ?_, fun d hd => ?_⟩
    · rw [List.zipIdx_append, List.zipIdx_cons, Nat.zero_add]
    · exact hbefore d.1 (List.fst_mem_of_mem_zipIdx hd)

theorem decode_eq_error_iff {text : String} {fault : HexError} :
    decode text = .error fault ↔ HasFault text fault := by
  rw [decode, decodeBytes]
  cases fault with
  | oddLength =>
      rw [HasFault]
      split
      next hodd => simp [hodd]
      next heven => split <;> simp [heven]
  | invalidDigit byte position =>
      rw [HasFault, ← find?_zipIdx_eq_some_iff]
      split
      next hodd => simp [hodd]
      next heven =>
        have hmod : (Utf8.encode text).length % 2 = 0 := by omega
        split
        next hfind => simp [hfind, hmod]
        next hfind => simp [hfind]

end AccountTx.Hex
