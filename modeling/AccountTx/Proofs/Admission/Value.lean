import AccountTx.Proofs.Admission.Checked
import AccountTx.Proofs.Ed25519.Point
import AccountTx.Proofs.Form.Binary
import AccountTx.Proofs.Form.Reading
import AccountTx.Proofs.Payload.Codec
import AccountTx.Proofs.Signing.Registry
import AccountTx.Proofs.Value.Expiry

/-!
The ways to a single value, for each type that has a rule: its constructors, the texts and documents
and bytes that it is read from, and the operations that give another value of it. All of them admit
what the check admits.
-/

namespace AccountTx

open Hex (IsHexOf)

/-! ### What an input tells -/

/-- The document is the numeral of a number. -/
def TellsNumber (j : Json) (n : UInt64) : Prop := j = .nat n.toNat

def TellsText (j : Json) (text : String) : Prop := j = .string text

/-- The document is a hexadecimal text of a byte string. -/
def TellsBytes (j : Json) (bytes : Bytes) : Prop := ∃ text, j = .string text ∧ IsHexOf text bytes

/-- The bytes of a draft come first; what follows them is left. -/
def BeginsWith {δ : Type} (front : δ → Bytes) (bytes : Bytes) (d : δ) : Prop :=
  ∃ rest, bytes = front d ++ rest

/-- What is read from the front of a byte string. -/
def Reader.front {α : Type} (read : Reader α) (bytes : Bytes) : Except DecodeError α :=
  (read bytes).map (·.1)

theorem Admits.front {α δ : Type} [Checked α δ] [AlwaysValid α] {read : Reader α}
    {written : δ → Bytes}
    (h : ∀ {bytes rest a}, read bytes = .ok (a, rest) ↔ bytes = written (Checked.draft a) ++ rest) :
    Admits read.front (BeginsWith written) :=
  .of_iff fun bytes a => by simp only [Reader.front, map_fst_eq_ok_iff, h, BeginsWith]

/-- A lawful binary form admits the bytes of what it writes. -/
theorem Admits.binary {α δ : Type} [Checked α δ] [AlwaysValid α] [BinaryForm α] [LawfulBinary α]
    {written : δ → Bytes} (h : ∀ a : α, BinaryForm.write a = written (Checked.draft a)) :
    Admits (Binary.decode : Bytes → Except BinaryError α) (BeginsWith written) :=
  .of_iff fun bytes a => by simp only [LawfulBinary.decode_eq_ok_iff, h, BeginsWith]

/-! ### Sequence numbers -/

namespace Nonce

theorem ofJson_eq_ok_iff {j : Json} {n : Nonce} : ofJson j = .ok n ↔ ofJson j = .ok n.value :=
  ofJson_checked_eq_ok_iff fun _ _ => ofNumber_eq_ok_iff

/-- The sequence number so many steps after another. -/
def after (n : Nonce) : Nat → Except ValueError Nonce
  | 0 => .ok n
  | k + 1 => do (← n.after k).next

theorem exists_value {k : Nat} (hpos : 1 ≤ k) (hlt : k < 2 ^ 64) :
    ∃ n : Nonce, n.value.toNat = k := by
  obtain ⟨w, rfl⟩ := Word.exists_eq_toNat hlt
  have hrule : Rule w := hpos
  exact ⟨⟨w, rule_iff.mp hrule⟩, rfl⟩

theorem eq_of_toNat_eq {n m : Nonce} (h : n.value.toNat = m.value.toNat) : n = m := by
  obtain ⟨v, hv⟩ := n
  obtain ⟨w, hw⟩ := m
  obtain rfl := UInt64.toNat_inj.mp h
  rfl

theorem next_eq_ok_iff {n m : Nonce} : n.next = .ok m ↔ m.value.toNat = n.value.toNat + 1 := by
  have hadd {v : UInt64} : Word.add? n.value 1 = some v ↔ v.toNat = n.value.toNat + 1 :=
    Word.add?_eq_some_iff.trans eq_comm
  unfold next
  split
  next v hv =>
    rw [Except.ok.injEq, ← hadd.mp hv]
    constructor
    · rintro rfl
      rfl
    · exact fun h => eq_of_toNat_eq h.symm
  next hnone =>
    refine iff_of_false nofun fun hm => ?_
    rw [hadd.mpr hm] at hnone
    cases hnone

/-- The last number is the only one without a successor. -/
theorem next_eq_error_iff {n : Nonce} {e : ValueError} :
    n.next = .error e ↔ n.value.toNat = 2 ^ 64 - 1 ∧ e = .nonceOverflow 18446744073709551615 := by
  cases hnext : n.next with
  | ok m =>
      have hm := next_eq_ok_iff.mp hnext
      have hlt := m.value.toNat_lt
      refine iff_of_false nofun fun h => ?_
      omega
  | error cause =>
      have hlt := n.value.toNat_lt
      have hlast : n.value.toNat = 2 ^ 64 - 1 := by
        by_contra hne
        obtain ⟨m, hm⟩ := exists_value (k := n.value.toNat + 1) (by omega) (by omega)
        rw [next_eq_ok_iff.mpr hm] at hnext
        cases hnext
      have hcause : cause = .nonceOverflow n.value := by
        unfold next at hnext
        split at hnext
        next => cases hnext
        next => exact (Except.error.inj hnext).symm
      have hvalue : n.value = 18446744073709551615 := UInt64.toNat_inj.mp hlast
      rw [and_iff_right hlast, Except.error.injEq, hcause, hvalue, eq_comm]

/-- A run of steps gives the exact sum. -/
theorem after_eq_ok_iff {n m : Nonce} {k : Nat} :
    n.after k = .ok m ↔ m.value.toNat = n.value.toNat + k := by
  induction k generalizing m with
  | zero =>
      rw [after, Except.ok.injEq, Nat.add_zero]
      constructor
      · rintro rfl
        rfl
      · exact fun h => eq_of_toNat_eq h.symm
  | succ k ih =>
      rw [after, except_bind_eq_ok_iff]
      simp only [ih, next_eq_ok_iff]
      constructor
      · rintro ⟨m', hm', hm⟩
        omega
      · intro hm
        have hlt := m.value.toNat_lt
        have hpos := rule_value n
        rw [Rule] at hpos
        obtain ⟨m', hm'⟩ := exists_value (k := n.value.toNat + k) (by omega) (by omega)
        exact ⟨m', hm', by omega⟩

/-- No run of steps gets past the last number, and nothing else stops it. -/
theorem after_eq_error_iff {n : Nonce} {k : Nat} {e : ValueError} :
    n.after k = .error e ↔
      2 ^ 64 ≤ n.value.toNat + k ∧ e = .nonceOverflow 18446744073709551615 := by
  induction k with
  | zero =>
      have hlt := n.value.toNat_lt
      refine iff_of_false nofun fun h => ?_
      omega
  | succ k ih =>
      rw [after, except_bind_eq_error_iff, ih]
      simp only [after_eq_ok_iff, next_eq_error_iff]
      constructor
      · rintro (⟨hle, rfl⟩ | ⟨m, hm, hlast, rfl⟩)
        · exact ⟨by omega, rfl⟩
        · exact ⟨by omega, rfl⟩
      · rintro ⟨hle, rfl⟩
        by_cases hbefore : 2 ^ 64 ≤ n.value.toNat + k
        · exact .inl ⟨hbefore, rfl⟩
        · obtain ⟨m, hm⟩ := exists_value (k := n.value.toNat + k) (by omega) (by omega)
          exact .inr ⟨m, hm, by omega, rfl⟩

theorem ofNumber_eq_error_iff {n : UInt64} {e : ValueError} :
    ofNumber n = .error e ↔ n = 0 ∧ e = .zeroNonce := by
  unfold ofNumber
  split
  next hzero => rw [and_iff_right hzero, Except.error.injEq, eq_comm]
  next hpos =>
    constructor
    · intro h
      cases h
    · rintro ⟨hzero, -⟩
      exact absurd hzero hpos

/-- The outcome of a step: the number that is set or the next one, or the fault if that is zero or
there is none. -/
inductive Step.Gives (a : Nonce) : Step → Except ValueError Nonce → Prop where
  | set {n : UInt64} {b : Nonce} : b.value = n → Gives a (.set n) (.ok b)
  | zero : Gives a (.set 0) (.error .zeroNonce)
  | next {b : Nonce} : b.value.toNat = a.value.toNat + 1 → Gives a .next (.ok b)
  | last : a.value.toNat = 2 ^ 64 - 1 →
      Gives a .next (.error (.nonceOverflow 18446744073709551615))

theorem Step.apply_eq_iff {a : Nonce} {s : Step} {outcome : Except ValueError Nonce} :
    s.apply a = outcome ↔ s.Gives a outcome := by
  cases s with
  | set n =>
      cases outcome with
      | ok b =>
          rw [apply, ofNumber_eq_ok_iff]
          constructor
          · exact .set
          · intro h
            cases h with
            | set hvalue => exact hvalue
      | error e =>
          rw [apply, ofNumber_eq_error_iff]
          constructor
          · rintro ⟨rfl, rfl⟩
            exact .zero
          · intro h
            cases h with
            | zero => exact ⟨rfl, rfl⟩
  | next =>
      cases outcome with
      | ok b =>
          rw [apply, next_eq_ok_iff]
          constructor
          · exact .next
          · intro h
            cases h with
            | next hvalue => exact hvalue
      | error e =>
          rw [apply, next_eq_error_iff]
          constructor
          · rintro ⟨hlast, rfl⟩
            exact .last hlast
          · intro h
            cases h with
            | last hlast => exact ⟨hlast, rfl⟩

structure EntryPoints : Prop where
  number : Admits ofNumber Eq
  document : Admits (ofJson : Json → Except FormError Nonce) TellsNumber
  binary : Admits (Binary.decode : Bytes → Except BinaryError Nonce)
    (BeginsWith fun n => Binary.ofNat 8 n.toNat)
  next : Admits next fun n m => m.toNat = n.value.toNat + 1
  steps (n : Nonce) : Admits n.after fun k m => m.toNat = n.value.toNat + k
  overflow (n : Nonce) (k : Nat) (e : ValueError) : n.after k = .error e ↔
    2 ^ 64 ≤ n.value.toNat + k ∧ e = .nonceOverflow 18446744073709551615
  run (n : Nonce) (steps : List Step) (outcomes : List (Except ValueError Nonce)) :
    n.trace steps = outcomes ↔ Stepping.Runs Step.Gives n steps outcomes
  every (n : Nonce) : Rule n.value

theorem entryPoints : EntryPoints where
  number := .of_iff fun _ _ => ofNumber_eq_ok_iff.trans eq_comm
  document := .of_iff fun _ _ => ofJson_eq_ok_iff.trans ofJson_word_eq_ok_iff
  binary := .binary fun _ => rfl
  next := .of_iff fun _ _ => next_eq_ok_iff
  steps _ := .of_iff fun _ _ => after_eq_ok_iff
  overflow _ _ _ := after_eq_error_iff
  run _ _ _ := Stepping.trace_eq_iff Step.apply_eq_iff
  every := rule_value

end Nonce

/-! ### Expiries -/

namespace Expiry

theorem ofJson_eq_ok_iff {j : Json} {e : Expiry} : ofJson j = .ok e ↔ ofJson j = .ok e.seconds :=
  ofJson_checked_eq_ok_iff fun _ _ => ofSeconds_eq_ok_iff

/-- A time of so many seconds is made exactly if the rule allows it. -/
theorem ofSeconds_ofNat_eq_ok_iff {seconds : Nat} (hlt : seconds < 2 ^ 64) {e : Expiry} :
    ofSeconds (UInt64.ofNat seconds) = .ok e ↔ e.seconds.toNat = seconds := by
  rw [ofSeconds_eq_ok_iff, ← UInt64.toNat_inj, UInt64.toNat_ofNat_of_lt' hlt]

theorem ofClock_eq_ok_iff {seconds : Int64} {e : Expiry} :
    ofClock seconds.toInt = .ok e ↔ (e.seconds.toNat : Int) = seconds.toInt := by
  have hlt := seconds.toInt_lt
  rw [ofClock]
  split
  next hneg =>
    refine iff_of_false nofun fun h => ?_
    omega
  next hpos =>
    rw [ofSeconds_ofNat_eq_ok_iff (by omega)]
    omega

theorem secondsFrom_eq_ok_iff {now : Int64} {seconds : UInt64} {e : Expiry} :
    secondsFrom now.toInt seconds = .ok e ↔
      e.seconds.toNat = now.toInt.toNat + seconds.toNat :=
  (outcome_secondsFrom now seconds).eq_ok_iff

theorem minutesFrom_eq_ok_iff {now : Int64} {minutes : UInt64} {e : Expiry} :
    minutesFrom now.toInt minutes = .ok e ↔
      e.seconds.toNat = now.toInt.toNat + 60 * minutes.toNat :=
  (outcome_minutesFrom now minutes).eq_ok_iff

/-- The clock shows a signed number of 64 bits. -/
structure EntryPoints : Prop where
  number : Admits ofSeconds Eq
  document : Admits (ofJson : Json → Except FormError Expiry) TellsNumber
  binary : Admits (Binary.decode : Bytes → Except BinaryError Expiry)
    (BeginsWith fun n => Binary.ofNat 8 n.toNat)
  clock : Admits (fun seconds : Int64 => ofClock seconds.toInt)
    fun seconds d => (d.toNat : Int) = seconds.toInt
  secondsFrom (now : Int64) : Admits (secondsFrom now.toInt)
    fun seconds d => d.toNat = now.toInt.toNat + seconds.toNat
  minutesFrom (now : Int64) : Admits (minutesFrom now.toInt)
    fun minutes d => d.toNat = now.toInt.toNat + 60 * minutes.toNat
  every (e : Expiry) : Rule e.seconds

theorem entryPoints : EntryPoints where
  number := .of_iff fun _ _ => ofSeconds_eq_ok_iff.trans eq_comm
  document := .of_iff fun _ _ => ofJson_eq_ok_iff.trans ofJson_word_eq_ok_iff
  binary := .binary fun _ => rfl
  clock := .of_iff fun _ _ => ofClock_eq_ok_iff
  secondsFrom _ := .of_iff fun _ _ => secondsFrom_eq_ok_iff
  minutesFrom _ := .of_iff fun _ _ => minutesFrom_eq_ok_iff
  every := rule_seconds

end Expiry

/-! ### Byte strings -/

namespace ChainData

theorem ofJson_eq_ok_iff {j : Json} {d : ChainData} : ofJson j = .ok d ↔ ofJson j = .ok d.bytes :=
  ofJson_checked_eq_ok_iff fun _ _ => ofBytes_eq_ok_iff

theorem ofHex_eq_ok_iff {text : String} {d : ChainData} :
    ofHex text = .ok d ↔ IsHexOf text d.bytes := by
  rw [← Hex.decode_eq_ok_iff, ofHex]
  cases Hex.decode text with
  | error fault => simp
  | ok bytes =>
      show ofBytes bytes = .ok d ↔ _
      rw [ofBytes_eq_ok_iff, Except.ok.injEq, eq_comm]

structure EntryPoints : Prop where
  bytes : Admits ofBytes Eq
  text : Admits ofHex IsHexOf
  document : Admits (ofJson : Json → Except FormError ChainData) TellsBytes
  binary : Admits (Binary.decode : Bytes → Except BinaryError ChainData)
    (BeginsWith BinaryForm.write)
  every (d : ChainData) : Rule d.bytes

theorem entryPoints : EntryPoints where
  bytes := .of_iff fun _ _ => ofBytes_eq_ok_iff.trans eq_comm
  text := .of_iff fun _ _ => ofHex_eq_ok_iff
  document := .of_iff fun _ _ => ofJson_eq_ok_iff.trans ofJson_bytes_eq_ok_iff
  binary := .binary fun _ => rfl
  every := length_le

end ChainData

namespace Parameter

theorem ofJson_eq_ok_iff {j : Json} {p : Parameter} : ofJson j = .ok p ↔ ofJson j = .ok p.bytes :=
  ofJson_checked_eq_ok_iff fun _ _ => ofBytes_eq_ok_iff

structure EntryPoints : Prop where
  bytes : Admits ofBytes Eq
  document : Admits (ofJson : Json → Except FormError Parameter) TellsBytes
  binary : Admits (Binary.decode : Bytes → Except BinaryError Parameter)
    (BeginsWith BinaryForm.write)
  wire : Admits Payload.readParameter.front (BeginsWith Payload.counted)
  every (p : Parameter) : Rule p.bytes

theorem entryPoints : EntryPoints where
  bytes := .of_iff fun _ _ => ofBytes_eq_ok_iff.trans eq_comm
  document := .of_iff fun _ _ => ofJson_eq_ok_iff.trans ofJson_bytes_eq_ok_iff
  binary := .binary fun _ => rfl
  wire := .front Payload.readParameter_eq_ok_iff
  every := length_le

end Parameter

namespace PublicKey

structure EntryPoints : Prop where
  bytes : Admits ofBytes Eq
  fixed : Admits ofFixed fun b bytes => b.toList = bytes
  text : Admits ofHex fun text bytes => IsHexOf (Text.trim text) bytes
  document : Admits (ofJson : Json → Except FormError PublicKey) TellsBytes
  binary : Admits (Binary.decode : Bytes → Except BinaryError PublicKey)
    (BeginsWith BinaryForm.write)
  derived (k : SecretKey) : Rule k.publicKey.bytes.toList

theorem rule_bytes_iff {k : PublicKey} :
    Rule k.bytes.toList ↔ Ed25519.isPoint k.bytes.toList = true :=
  and_iff_right k.bytes.length_eq

theorem ofFixed_eq_ok_iff_rule {b : FixedBytes 32} {k : PublicKey} :
    ofFixed b = .ok k ↔ b.toList = k.bytes.toList ∧ Rule k.bytes.toList := by
  rw [ofFixed_eq_ok_iff, rule_bytes_iff, ← FixedBytes.ext_iff]
  constructor
  · rintro ⟨rfl, hpoint⟩
    exact ⟨rfl, hpoint⟩
  · rintro ⟨rfl, hpoint⟩
    exact ⟨rfl, hpoint⟩

theorem ofBytes_eq_ok_iff_rule {bytes : Bytes} {k : PublicKey} :
    ofBytes bytes = .ok k ↔ bytes = k.bytes.toList ∧ Rule k.bytes.toList := by
  rw [ofBytes_eq_ok_iff, rule_bytes_iff]
  constructor
  · rintro ⟨rfl, hpoint⟩
    exact ⟨rfl, hpoint⟩
  · rintro ⟨rfl, hpoint⟩
    exact ⟨rfl, hpoint⟩

theorem decode_binary_eq_ok_iff {bytes : Bytes} {k : PublicKey} :
    Binary.decode bytes = .ok k ↔
      BeginsWith BinaryForm.write bytes k.bytes.toList ∧ Rule k.bytes.toList := by
  simp only [Binary.decode_eq_ok_iff, read_eq_ok_iff, rule_bytes_iff, exists_and_left]
  exact and_comm

theorem entryPoints : EntryPoints where
  bytes := .of_valid fun _ _ => ofBytes_eq_ok_iff_rule
  fixed := .of_valid fun _ _ => ofFixed_eq_ok_iff_rule
  text := .of_valid fun _ _ => ofHex_eq_ok_iff.trans (and_congr_right' rule_bytes_iff.symm)
  document := .of_valid fun _ _ => ofJson_key_eq_ok_iff.trans
    (and_congr ofJson_bytes_eq_ok_iff rule_bytes_iff.symm)
  binary := .of_valid fun _ _ => decode_binary_eq_ok_iff
  derived k := rule_bytes_iff.mpr (Ed25519.isPoint_publicKey k.bytes.toList)

end PublicKey

/-! ### Names of contract functions -/

namespace InitName

theorem ofJson_eq_ok_iff {j : Json} {n : InitName} : ofJson j = .ok n ↔ ofJson j = .ok n.text :=
  ofJson_checked_eq_ok_iff fun _ _ => ofText_eq_ok_iff

structure EntryPoints : Prop where
  text : Admits ofText Eq
  document : Admits (ofJson : Json → Except FormError InitName) TellsText
  binary : Admits (Binary.decode : Bytes → Except BinaryError InitName)
    (BeginsWith fun text => BinaryForm.write (Utf8.encode text))
  wire : Admits Payload.readInitName.front
    (BeginsWith fun text => Payload.counted (Utf8.encode text))
  every (n : InitName) : Rule n.text

theorem entryPoints : EntryPoints where
  text := .of_iff fun _ _ => ofText_eq_ok_iff.trans eq_comm
  document := .of_iff fun _ _ => ofJson_eq_ok_iff.trans ofJson_text_eq_ok_iff
  binary := .binary fun _ => rfl
  wire := .front Payload.readInitName_eq_ok_iff
  every := rule_text

end InitName

namespace ReceiveName

theorem ofJson_eq_ok_iff {j : Json} {n : ReceiveName} : ofJson j = .ok n ↔ ofJson j = .ok n.text :=
  ofJson_checked_eq_ok_iff fun _ _ => ofText_eq_ok_iff

structure EntryPoints : Prop where
  text : Admits ofText Eq
  document : Admits (ofJson : Json → Except FormError ReceiveName) TellsText
  binary : Admits (Binary.decode : Bytes → Except BinaryError ReceiveName)
    (BeginsWith fun text => BinaryForm.write (Utf8.encode text))
  wire : Admits Payload.readReceiveName.front
    (BeginsWith fun text => Payload.counted (Utf8.encode text))
  every (n : ReceiveName) : Rule n.text

theorem entryPoints : EntryPoints where
  text := .of_iff fun _ _ => ofText_eq_ok_iff.trans eq_comm
  document := .of_iff fun _ _ => ofJson_eq_ok_iff.trans ofJson_text_eq_ok_iff
  binary := .binary fun _ => rfl
  wire := .front Payload.readReceiveName_eq_ok_iff
  every := rule_text

end ReceiveName

/-! ### Signatures -/

namespace SignatureMap

/-- The texts and the signatures are in the same slots, each text a hexadecimal one of the signature
in its slot. -/
def AreHexOf (texts : SlotMap String) (slots : SlotMap Bytes) : Prop :=
  List.Forall₂ (fun c c' => c'.1 = c.1 ∧
    List.Forall₂ (fun k k' => k'.1 = k.1 ∧ IsHexOf k.2 k'.2) c.2.entries c'.2.entries)
    texts.entries slots.entries

theorem traverse_eq_ok_iff {ε : Type} {read : String → Except ε Bytes}
    (hread : ∀ text bytes, read text = .ok bytes ↔ IsHexOf text bytes) {texts : SlotMap String}
    {slots : SlotMap Bytes} :
    IndexMap.traverse (IndexMap.traverse read) texts = .ok slots ↔ AreHexOf texts slots := by
  simp only [IndexMap.traverse_eq_ok_iff, hread, AreHexOf]

/-- In documents and in the binary form the signatures are hexadecimal texts. -/
def IsDocumentOf (j : Json) (slots : SlotMap Bytes) : Prop :=
  ∃ texts : SlotMap String, ofJson j = .ok texts ∧ AreHexOf texts slots

def IsBinaryOf (bytes : Bytes) (slots : SlotMap Bytes) : Prop :=
  ∃ texts : SlotMap String, Binary.decode bytes = .ok texts ∧ AreHexOf texts slots

theorem ofJson_eq_ok_iff_isDocumentOf {j : Json} {s : SignatureMap} :
    ofJson j = .ok s ↔ IsDocumentOf j s.slots := by
  simp only [ofJson_eq_ok_iff, traverse_eq_ok_iff fun _ _ => hexOfText_eq_ok_iff, IsDocumentOf]

theorem decode_eq_ok_iff_isBinaryOf {bytes : Bytes} {s : SignatureMap} :
    Binary.decode bytes = .ok s ↔ IsBinaryOf bytes s.slots := by
  simp only [Binary.decode_eq_ok_iff, read_binary_eq_ok_iff, IsBinaryOf,
    traverse_eq_ok_iff fun _ _ => Hex.decode_eq_ok_iff]
  constructor
  · rintro ⟨rest, texts, htexts, hslots⟩
    exact ⟨texts, ⟨rest, htexts⟩, hslots⟩
  · rintro ⟨texts, ⟨rest, htexts⟩, hslots⟩
    exact ⟨rest, texts, htexts, hslots⟩

/-- The bytes of a map, given by what is in its slots. -/
def layout (slots : SlotMap Bytes) : Bytes :=
  UInt8.ofNat slots.size :: slots.entries.flatMap encodeCredential

structure EntryPoints : Prop where
  slots : Admits ofSlots Eq
  document : Admits (ofJson : Json → Except FormError SignatureMap) IsDocumentOf
  binary : Admits (Binary.decode : Bytes → Except BinaryError SignatureMap) IsBinaryOf
  front : Admits SignatureMap.read.front (BeginsWith layout)
  wire : Admits decode fun bytes slots => bytes = layout slots
  signed (r : Registry) : Admits r.sign
    fun digest slots => slots = SlotMap.mapValues (fun signer => signer digest) r.signers
  every (s : SignatureMap) : Rule s.slots

theorem entryPoints : EntryPoints where
  slots := .of_iff fun _ _ => ofSlots_eq_ok_iff.trans eq_comm
  document := .of_iff fun _ _ => ofJson_eq_ok_iff_isDocumentOf
  binary := .of_iff fun _ _ => decode_eq_ok_iff_isBinaryOf
  front := .front read_eq_ok_iff
  wire := .of_iff fun _ _ => decode_eq_ok_iff
  signed _ := .of_iff fun _ _ => Registry.sign_eq_ok_iff
  every := rule_slots

end SignatureMap

end AccountTx
