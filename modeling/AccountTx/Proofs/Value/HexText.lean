import AccountTx.Proofs.Admission.Value
import AccountTx.Proofs.Text.Blank

/-!
The ways from text to a value that agree. A hexadecimal text, the bytes that it stands for and the
document that holds it are read as the same value, which is shown as the text in lower case; and a
text that is no value is refused for the first of its faults, or for its length if it has none. Keys
are read so from what stands between the white space around their texts, but not in documents.
-/

namespace AccountTx

open Hex (IsHexOf HasFault Spells)

variable {ε α : Type}

/-- Values of `α` are read from hexadecimal texts: from the part of a text that `part` takes, if it
has the digits of a number of bytes that `Fits`. A part that is not hexadecimal is `malformed` by
its fault, and any other number of bytes is a `misfit`. -/
structure ReadsHex (part : String → String) (Fits : Nat → Prop) (malformed : HexError → ε)
    (misfit : Nat → ε) (ofHex : String → Except ε α) (ofBytes : Bytes → Except ε α)
    (hex : α → String) : Prop where
  accepts_iff (text : String) : (∃ a, ofHex text = .ok a) ↔ ∃ n, Fits n ∧ Spells n (part text)
  refuses_iff (text : String) (e : ε) : ofHex text = .error e ↔
    (∃ fault, HasFault (part text) fault ∧ e = malformed fault) ∨
      ∃ n, Spells n (part text) ∧ ¬ Fits n ∧ e = misfit n
  hex_eq (text : String) (a : α) : ofHex text = .ok a → hex a = (part text).toLower
  ofBytes_eq (text : String) (bytes : Bytes) : IsHexOf (part text) bytes →
    ofBytes bytes = ofHex text

/-- The strings of documents are read as the texts are. -/
structure ReadsHexForm [JsonForm α] (Fits : Nat → Prop) (malformed : HexError → ε)
    (misfit : Nat → ε) (ofHex : String → Except ε α) (ofBytes : Bytes → Except ε α)
    (hex : α → String) : Prop extends ReadsHex id Fits malformed misfit ofHex ofBytes hex where
  ofJson_iff (text : String) (a : α) : ofJson (.string text) = .ok a ↔ ofHex text = .ok a

/-! ### Values that are made of bytes -/

section

variable {part : String → String} {Fits : Nat → Prop} {malformed : HexError → ε} {misfit : Nat → ε}
  {ofHex : String → Except ε α} {ofBytes : Bytes → Except ε α} {hex : α → String}

theorem ofHex_eq_ok_iff_isHexOf {contents : α → Bytes}
    (hread : ∀ text, ofHex text = (Hex.decode (part text)).mapError malformed >>= ofBytes)
    (hok : ∀ bytes a, ofBytes bytes = .ok a ↔ contents a = bytes) {text : String} {a : α} :
    ofHex text = .ok a ↔ IsHexOf (part text) (contents a) := by
  rw [hread, except_bind_eq_ok_iff]
  simp only [mapError_eq_ok_iff, Hex.decode_eq_ok_iff, hok]
  constructor
  · rintro ⟨_, h, rfl⟩
    exact h
  · exact fun h => ⟨contents a, h, rfl⟩

theorem exists_ofBytes_iff
    (herror : ∀ bytes e, ofBytes bytes = .error e ↔ ¬ Fits bytes.length ∧ e = misfit bytes.length)
    {bytes : Bytes} : (∃ a, ofBytes bytes = .ok a) ↔ Fits bytes.length := by
  cases hbytes : ofBytes bytes with
  | ok a =>
      refine iff_of_true ⟨a, rfl⟩ (not_not.mp fun hmisfit => ?_)
      rw [(herror _ _).mpr ⟨hmisfit, rfl⟩] at hbytes
      cases hbytes
  | error e => exact iff_of_false (by simp) ((herror _ _).mp hbytes).1

theorem ofHex_eq_error_iff
    (hread : ∀ text, ofHex text = (Hex.decode (part text)).mapError malformed >>= ofBytes)
    (herror : ∀ bytes e, ofBytes bytes = .error e ↔ ¬ Fits bytes.length ∧ e = misfit bytes.length)
    {text : String} {e : ε} : ofHex text = .error e ↔
      (∃ fault, HasFault (part text) fault ∧ e = malformed fault) ∨
        ∃ n, Spells n (part text) ∧ ¬ Fits n ∧ e = misfit n := by
  rw [hread, except_bind_eq_error_iff]
  simp only [mapError_eq_error_iff, mapError_eq_ok_iff, Hex.decode_eq_error_iff,
    Hex.decode_eq_ok_iff, herror, ← Hex.exists_isHexOf_iff]
  refine or_congr (exists_congr fun fault => and_congr_right' eq_comm) ?_
  constructor
  · rintro ⟨bytes, hbytes, hmisfit, rfl⟩
    exact ⟨_, ⟨bytes, hbytes, rfl⟩, hmisfit, rfl⟩
  · rintro ⟨_, ⟨bytes, hbytes, rfl⟩, hmisfit, rfl⟩
    exact ⟨bytes, hbytes, hmisfit, rfl⟩

/-- It is enough that the text is decoded and the bytes are made a value, and to know of which bytes
a value is made and which are refused. -/
theorem ReadsHex.of_bytes (contents : α → Bytes)
    (hread : ∀ text, ofHex text = (Hex.decode (part text)).mapError malformed >>= ofBytes)
    (hok : ∀ bytes a, ofBytes bytes = .ok a ↔ contents a = bytes)
    (herror : ∀ bytes e, ofBytes bytes = .error e ↔ ¬ Fits bytes.length ∧ e = misfit bytes.length)
    (hhex : ∀ a, hex a = Hex.encode (contents a)) :
    ReadsHex part Fits malformed misfit ofHex ofBytes hex where
  accepts_iff text := by
    simp only [ofHex_eq_ok_iff_isHexOf hread hok, ← Hex.exists_isHexOf_iff]
    constructor
    · rintro ⟨a, ha⟩
      exact ⟨_, (exists_ofBytes_iff herror).mp ⟨a, (hok _ _).mpr rfl⟩, _, ha, rfl⟩
    · rintro ⟨_, hn, bytes, hbytes, rfl⟩
      obtain ⟨a, ha⟩ := (exists_ofBytes_iff herror).mpr hn
      obtain rfl := (hok _ _).mp ha
      exact ⟨a, hbytes⟩
  refuses_iff _ _ := ofHex_eq_error_iff hread herror
  hex_eq text a ha := by
    rw [hhex, Hex.isHexOf_iff_toLower.mp ((ofHex_eq_ok_iff_isHexOf hread hok).mp ha)]
  ofBytes_eq text bytes hbytes := by
    rw [hread, Hex.decode_eq_ok_iff.mpr hbytes]
    rfl

/-- For documents it is enough that they are read by the bytes that they hold. -/
theorem ReadsHexForm.of_bytes [JsonForm α] (contents : α → Bytes)
    (hread : ∀ text, ofHex text = (Hex.decode text).mapError malformed >>= ofBytes)
    (hok : ∀ bytes a, ofBytes bytes = .ok a ↔ contents a = bytes)
    (herror : ∀ bytes e, ofBytes bytes = .error e ↔ ¬ Fits bytes.length ∧ e = misfit bytes.length)
    (hhex : ∀ a, hex a = Hex.encode (contents a))
    (hform : ∀ {j : Json} {a : α}, ofJson j = .ok a ↔ ofJson j = .ok (contents a)) :
    ReadsHexForm Fits malformed misfit ofHex ofBytes hex where
  toReadsHex := .of_bytes contents hread hok herror hhex
  ofJson_iff text a := by
    rw [hform, ofJson_string_bytes_eq_ok_iff]
    exact (ofHex_eq_ok_iff_isHexOf hread hok).symm

end

/-! ### Values of a fixed length -/

section

variable {n : Nat} (what : String)

theorem FixedBytes.ofBytes_eq_error_iff {bytes : Bytes} {e : ValueError} :
    ofBytes what n bytes = .error e ↔
      ¬ bytes.length = n ∧ e = .wrongLength what n bytes.length := by
  rw [← ne_eq, ← ofList?_eq_none_iff, ofBytes]
  cases ofList? n bytes <;> simp [eq_comm]

/-- A type that is made of a number of bytes, and of nothing else. -/
theorem ReadsHexForm.of_fixed [JsonForm α] (make : FixedBytes n → α) (contents : α → FixedBytes n)
    (hmake : ∀ a b, a = make b ↔ contents a = b)
    (hform : ∀ j : Json, (ofJson j : Except FormError α) = do return make (← ofJson j)) :
    ReadsHexForm (· = n) (.invalidHex what) (.wrongLength what n)
      (fun text => (FixedBytes.ofHex what n text).map make)
      (fun bytes => (FixedBytes.ofBytes what n bytes).map make) (fun a => (contents a).hex) := by
  refine .of_bytes (fun a => (contents a).toList) (fun text => ?_) (fun bytes a => ?_)
    (fun bytes e => ?_) (fun _ => rfl) (fun {j a} => ?_)
  · rw [FixedBytes.ofHex]
    cases Hex.decode text <;> rfl
  · rw [← FixedBytes.ofBytes_eq_ok_iff what]
    cases FixedBytes.ofBytes what n bytes with
    | error e => simp [Except.map]
    | ok b => simp [Except.map, eq_comm (a := make b), eq_comm (a := b), hmake]
  · rw [← FixedBytes.ofBytes_eq_error_iff what]
    cases FixedBytes.ofBytes what n bytes <;> simp [Except.map]
  · rw [← ofJson_fixed_eq_ok_iff, hform]
    cases (ofJson j : Except FormError (FixedBytes n)) with
    | error e => simp [bind, Except.bind]
    | ok b =>
        simp [bind, Except.bind, pure, Except.pure, eq_comm (a := make b), eq_comm (a := b), hmake]

end

theorem Address.readsHex : ReadsHexForm (· = 32) (.invalidHex what) (.wrongLength what 32) ofHex
    ofBytes hex :=
  .of_fixed what mk bytes (fun ⟨_⟩ _ => by rw [mk.injEq]) fun _ => rfl

theorem ModuleRef.readsHex : ReadsHexForm (· = 32) (.invalidHex what) (.wrongLength what 32) ofHex
    ofBytes hex :=
  .of_fixed what mk bytes (fun ⟨_⟩ _ => by rw [mk.injEq]) fun _ => rfl

theorem TransactionHash.readsHex : ReadsHexForm (· = 32) (.invalidHex what) (.wrongLength what 32)
    ofHex ofBytes hex :=
  .of_fixed what mk bytes (fun ⟨_⟩ _ => by rw [mk.injEq]) fun _ => rfl

theorem ChainData.ofBytes_eq_error_iff {bytes : Bytes} {e : ValueError} :
    ofBytes bytes = .error e ↔ ¬ bytes.length ≤ 256 ∧ e = .dataTooLarge 256 bytes.length := by
  rw [ofBytes]
  split
  next hle => exact iff_of_false nofun fun h => h.1 hle
  next hgt =>
    rw [Except.error.injEq, eq_comm]
    exact (and_iff_right hgt).symm

theorem ChainData.readsHex : ReadsHexForm (· ≤ 256) (.invalidHex what) (.dataTooLarge 256) ofHex
    ofBytes hex := by
  refine .of_bytes bytes (fun text => ?_) (fun _ _ => ofBytes_eq_ok_iff)
    (fun _ _ => ofBytes_eq_error_iff) (fun _ => rfl) ofJson_eq_ok_iff
  rw [ofHex]
  cases Hex.decode text <;> rfl

/-! ### Keys -/

namespace SecretKey

theorem ofBytes_eq_ok_iff {bytes : Bytes} {k : SecretKey} :
    ofBytes bytes = .ok k ↔ k.bytes.toList = bytes := by
  obtain ⟨b⟩ := k
  rw [← FixedBytes.ofList?_eq_some_iff, ofBytes]
  cases FixedBytes.ofList? 32 bytes <;> simp

theorem ofBytes_eq_error_iff {bytes : Bytes} {e : KeyError} :
    ofBytes bytes = .error e ↔ ¬ bytes.length = 32 ∧ e = .wrongLength 32 bytes.length := by
  rw [← ne_eq, ← FixedBytes.ofList?_eq_none_iff, ofBytes]
  cases FixedBytes.ofList? 32 bytes <;> simp [eq_comm]

theorem readsHex : ReadsHex Text.trim (· = 32) (fun _ => .invalidHex) (.wrongLength 32) ofHex
    ofBytes hex := by
  refine .of_bytes (fun k => k.bytes.toList) (fun text => ?_)
    (fun _ _ => ofBytes_eq_ok_iff) (fun _ _ => ofBytes_eq_error_iff) fun _ => rfl
  rw [ofHex, keyBytes]
  cases Hex.decode (Text.trim text) with
  | error fault => rfl
  | ok bytes =>
      show _ = ofBytes bytes
      simp only [ofBytes]
      cases FixedBytes.ofList? 32 bytes <;> rfl

/-- Stated for any check: the one of points would be run on the bytes. -/
theorem ofBytes_bind (check : FixedBytes 32 → Except KeyError α) (bytes : Bytes) :
    (ofBytes bytes >>= fun k => check k.bytes) = match FixedBytes.ofList? 32 bytes with
      | some fixed => check fixed
      | none => .error (.wrongLength 32 bytes.length) := by
  rw [ofBytes]
  cases FixedBytes.ofList? 32 bytes <;> rfl

end SecretKey

namespace PublicKey

/-- Public keys are read from the texts of secret keys, if the bytes are a point of the curve; a
document may have no white space around the text. -/
structure ReadsHexPoint : Prop where
  accepts_iff (text : String) (k : PublicKey) : ofHex text = .ok k ↔
    SecretKey.ofHex text = .ok ⟨k.bytes⟩ ∧ Ed25519.isPoint k.bytes.toList = true
  refuses_iff (text : String) (e : KeyError) : ofHex text = .error e ↔
    SecretKey.ofHex text = .error e ∨ ∃ s, SecretKey.ofHex text = .ok s ∧
      Ed25519.isPoint s.bytes.toList = false ∧ e = .notAPoint
  hex_eq (text : String) (k : PublicKey) : ofHex text = .ok k → k.hex = (Text.trim text).toLower
  ofBytes_eq (text : String) (bytes : Bytes) : IsHexOf (Text.trim text) bytes →
    ofBytes bytes = ofHex text
  ofJson_iff (text : String) (k : PublicKey) : ofJson (.string text) = .ok k ↔
    Text.trim text = text ∧ ofHex text = .ok k

theorem ofHex_eq_ofFixed (text : String) :
    ofHex text = SecretKey.ofHex text >>= fun s => ofFixed s.bytes := by
  rw [ofHex, SecretKey.ofHex]
  cases keyBytes text <;> rfl

theorem ofBytes_eq_ofFixed (bytes : Bytes) :
    ofBytes bytes = SecretKey.ofBytes bytes >>= fun s => ofFixed s.bytes := by
  rw [SecretKey.ofBytes_bind]
  rfl

theorem ofFixed_eq_error_iff {b : FixedBytes 32} {e : KeyError} :
    ofFixed b = .error e ↔ Ed25519.isPoint b.toList = false ∧ e = .notAPoint := by
  unfold ofFixed
  split
  next hpoint => simp [hpoint]
  next hpoint => simp [hpoint, eq_comm]

theorem ofHex_eq_ok_iff_secretKey {text : String} {k : PublicKey} :
    ofHex text = .ok k ↔
      SecretKey.ofHex text = .ok ⟨k.bytes⟩ ∧ Ed25519.isPoint k.bytes.toList = true := by
  rw [ofHex_eq_ok_iff]
  exact and_congr_left' (SecretKey.ofHex_eq_ok_iff (k := ⟨k.bytes⟩)).symm

theorem ofJson_string_eq_ok_iff {text : String} {k : PublicKey} :
    ofJson (.string text) = .ok k ↔ Text.trim text = text ∧ ofHex text = .ok k := by
  rw [ofJson_key_eq_ok_iff, ofJson_string_bytes_eq_ok_iff, ofHex_eq_ok_iff, ← and_assoc]
  refine and_congr_left' ?_
  constructor
  · intro h
    rw [Text.trim_of_isHexOf h]
    exact ⟨rfl, h⟩
  · rintro ⟨htrim, h⟩
    rwa [htrim] at h

theorem readsHexPoint : ReadsHexPoint where
  accepts_iff _ _ := ofHex_eq_ok_iff_secretKey
  refuses_iff text e := by
    rw [ofHex_eq_ofFixed, except_bind_eq_error_iff]
    simp only [ofFixed_eq_error_iff]
  hex_eq text k hk := (Hex.isHexOf_iff_toLower.mp (ofHex_eq_ok_iff.mp hk).1).symm
  ofBytes_eq text bytes hbytes := by
    rw [ofBytes_eq_ofFixed, ofHex_eq_ofFixed, SecretKey.readsHex.ofBytes_eq text bytes hbytes]
  ofJson_iff _ _ := ofJson_string_eq_ok_iff

end PublicKey

/-! ### All types -/

structure HexTextLaws : Prop where
  address : ReadsHexForm (· = 32) (.invalidHex Address.what) (.wrongLength Address.what 32)
    Address.ofHex Address.ofBytes Address.hex
  moduleRef : ReadsHexForm (· = 32) (.invalidHex ModuleRef.what) (.wrongLength ModuleRef.what 32)
    ModuleRef.ofHex ModuleRef.ofBytes ModuleRef.hex
  transactionHash : ReadsHexForm (· = 32) (.invalidHex TransactionHash.what)
    (.wrongLength TransactionHash.what 32) TransactionHash.ofHex TransactionHash.ofBytes
    TransactionHash.hex
  chainData : ReadsHexForm (· ≤ 256) (.invalidHex ChainData.what) (.dataTooLarge 256)
    ChainData.ofHex ChainData.ofBytes ChainData.hex
  secretKey : ReadsHex Text.trim (· = 32) (fun _ => .invalidHex) (.wrongLength 32)
    SecretKey.ofHex SecretKey.ofBytes SecretKey.hex
  publicKey : PublicKey.ReadsHexPoint
  trim (text : String) : Text.Surrounds text.toList (Text.trim text).toList

theorem hex_texts_agree : HexTextLaws where
  address := Address.readsHex
  moduleRef := ModuleRef.readsHex
  transactionHash := TransactionHash.readsHex
  chainData := ChainData.readsHex
  secretKey := SecretKey.readsHex
  publicKey := PublicKey.readsHexPoint
  trim text := by
    rw [Text.trim, String.toList_ofList]
    exact Text.surrounds_trimList text.toList

/-- An odd number of bytes is reported although the first of them is no digit, and the white space
around the text of a key is not counted. -/
theorem hex_text_of_fault :
    Address.ofHex "g12" = .error (.invalidHex Address.what .oddLength) ∧
      SecretKey.ofHex " 0a " = .error (.wrongLength 32 1) := by
  have hodd : HasFault "g12" .oddLength := by
    show (Utf8.encode "g12").length % 2 = 1
    decide
  have hspells : Spells 1 (Text.trim " 0a ") := by decide
  constructor
  · exact (hex_texts_agree.address.refuses_iff _ _).mpr (.inl ⟨.oddLength, hodd, rfl⟩)
  · exact (hex_texts_agree.secretKey.refuses_iff _ _).mpr (.inr ⟨1, hspells, by decide, rfl⟩)

end AccountTx
