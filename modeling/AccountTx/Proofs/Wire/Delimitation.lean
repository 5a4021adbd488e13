import AccountTx.Proofs.Header.Codec
import AccountTx.Proofs.Payload.Codec
import AccountTx.Proofs.Signing.Codec
import AccountTx.Proofs.Wire.Stability

/-!
Where the parts of a transaction end. Headers, signature maps and payloads tell their own length, so
that one of them which stands alone is not read with bytes missing or bytes too many. Only a module
takes all bytes that there are.
-/

namespace AccountTx

open Reader

/-! ### Headers -/

theorem Header.stable_read : Stable Header.read :=
  (stable_fixed "sender" 32).bind fun _ =>
    (stable_word "sequence number").bind fun _ =>
      (stable_check _).bind fun _ =>
        (stable_word "energy").bind fun _ =>
          (stable_number "payload size" 4).bind fun _ =>
            (stable_word "expiry").bind fun _ =>
              (stable_check _).bind fun _ => stable_pure _

theorem Header.delimited (h : Header) : Delimited Header.decode "transaction header" h.encode := by
  apply Header.stable_read.delimited (a := h)
  rw [Header.read_eq_ok_iff, List.append_nil]

/-! ### Signature maps -/

namespace SignatureMap

/-- Whether an index is in order depends on those before it and on no byte behind it. -/
theorem stable_readKeys (n : Nat) (m : IndexMap Bytes) (hroom : m.size + n ≤ Limits.maxSigners)
    (hshort : ∀ e ∈ m.entries, e.2.length ≤ Limits.maxSignatureLength) :
    Stable (readKeys n m hroom hshort) := by
  induction n generalizing m with
  | zero => exact stable_pure _
  | succ n ih =>
      apply (stable_byte "key index").bind
      intro key
      apply Stable.dite
      · intro hbelow
        apply (stable_fixed "signature length" 2).bind
        intro length
        apply (stable_fixed "signature" _).bind
        intro signature
        exact ih _ _ _
      · intro _
        exact stable_fail _

theorem stable_readCredentials (n : Nat) (m : SlotMap Bytes)
    (hroom : m.size + n ≤ Limits.maxSigners) (hm : ∀ e ∈ m.entries, KeysFit e.2) :
    Stable (readCredentials n m hroom hm) := by
  induction n generalizing m with
  | zero => exact stable_pure _
  | succ n ih =>
      apply (stable_byte "credential index").bind
      intro credential
      apply Stable.dite
      · intro hbelow
        apply (stable_byte "key count").bind
        intro count
        apply (stable_readKeys _ _ _ _).bind
        intro keys
        apply (ih _ _ _).bind
        intro slots
        exact stable_pure _
      · intro _
        exact stable_fail _

theorem stable_read : Stable SignatureMap.read := by
  apply (stable_byte "credential count").bind
  intro count
  apply Stable.dite
  · intro _
    exact stable_fail _
  · intro _
    apply (stable_readCredentials _ _ _ _).bind
    intro slots
    exact stable_pure _

theorem delimited (s : SignatureMap) : Delimited SignatureMap.decode "signature map" s.encode := by
  apply stable_read.delimited (a := s)
  rw [read_eq_ok_iff, List.append_nil]

end SignatureMap

/-! ### Payloads -/

namespace Payload

variable {maxEnergy : Energy}

theorem stable_readAmount : Stable readAmount :=
  (stable_word "amount").bind fun _ => stable_pure _

theorem stable_readReceiver : Stable readReceiver :=
  (stable_fixed "receiver" 32).bind fun _ => stable_pure _

theorem stable_readContract : Stable readContract :=
  (stable_word "contract index").bind fun _ =>
    (stable_word "contract subindex").bind fun _ => stable_pure _

/-- A value is checked once all of its bytes have been read. -/
theorem stable_readChecked {α : Type} (field : String) (make : Bytes → Except ValueError α) :
    Stable (do Reader.check (make (← Reader.counted field)) : Reader α) :=
  (stable_counted field).bind fun _ => stable_check _

/-- The fields of every other payload tell where they end. -/
theorem stable_readBody {type : TransactionType} (h : type ≠ .deployModule) :
    Stable (readBody maxEnergy type) := by
  cases type
  case deployModule => exact absurd rfl h
  case initContract =>
    exact stable_readAmount.bind fun _ => (stable_fixed "module reference" 32).bind fun _ =>
      (stable_readChecked "init name" _).bind fun _ =>
        (stable_readChecked "parameter" _).bind fun _ => stable_pure _
  case update =>
    exact stable_readAmount.bind fun _ => stable_readContract.bind fun _ =>
      (stable_readChecked "receive name" _).bind fun _ =>
        (stable_readChecked "parameter" _).bind fun _ => stable_pure _
  case transfer =>
    exact stable_readReceiver.bind fun _ => stable_readAmount.bind fun _ => stable_pure _
  case registerData =>
    exact (stable_counted "data").bind fun _ => (stable_check _).bind fun _ => stable_pure _
  case transferWithMemo =>
    exact stable_readReceiver.bind fun _ => (stable_counted "memo").bind fun _ =>
      (stable_check _).bind fun _ => stable_readAmount.bind fun _ => stable_pure _
  all_goals exact stable_fail _

/-- The tag selects what is read after it. -/
theorem decodeWithEnergy_tag_cons (type : TransactionType) (bytes : Bytes) :
    decodeWithEnergy (type.tag :: bytes) maxEnergy =
      complete "payload" (readBody maxEnergy type) bytes := by
  have htype : TransactionType.ofTag? type.tag = some type :=
    TransactionType.ofTag?_eq_some_iff.mpr rfl
  have hread : read maxEnergy (type.tag :: bytes) = readBody maxEnergy type bytes := by
    simp only [read, bind, StateT.bind, byte, Except.bind, htype]
  rw [decodeWithEnergy, complete, complete, hread]

theorem delimited (p : Payload) (h : p.type ≠ .deployModule) :
    Delimited (fun bytes => decodeWithEnergy bytes maxEnergy) "payload" p.encode := by
  have hread : readBody maxEnergy p.type (p.encodeBody ++ [])
      = .ok (p.withMaxEnergy maxEnergy, []) :=
    readBody_encodeBody p fun _ => rfl
  rw [List.append_nil] at hread
  have hbody : Delimited (complete "payload" (readBody maxEnergy p.type)) "payload" p.encodeBody :=
    (stable_readBody h).delimited hread
  constructor
  · intro bytes hcut hne
    cases bytes with
    | nil => exact ⟨_, rfl, "transaction type", 1, 0, rfl, Nat.zero_lt_one⟩
    | cons tag bytes =>
        obtain ⟨rfl, hrest⟩ := List.cons_prefix_cons.mp hcut
        simp only [decodeWithEnergy_tag_cons]
        exact hbody.cut bytes hrest fun heq => hne (congrArg (p.type.tag :: ·) heq)
  · intro more hne
    have hbytes : p.encode ++ more = p.type.tag :: (p.encodeBody ++ more) := rfl
    simp only [hbytes, decodeWithEnergy_tag_cons]
    exact hbody.extended more hne

end Payload

/-- Decoding the bytes of a header, of a signature map or of a payload other than a module fails if
any number of bytes are missing at their end, for the field in which they end, and if any number of
bytes follow, for this number. -/
theorem decoders_delimited :
    (∀ p : Payload, p.type ≠ .deployModule → Delimited Payload.decode "payload" p.encode) ∧
    (∀ s : SignatureMap, Delimited SignatureMap.decode "signature map" s.encode) ∧
    ∀ h : Header, Delimited Header.decode "transaction header" h.encode :=
  ⟨fun p h => p.delimited h, SignatureMap.delimited, Header.delimited⟩

/-- A transfer with a memo of two bytes. -/
def memoTransfer : Payload :=
  .transferWithMemo ⟨1⟩ ⟨⟨List.replicate 32 5, rfl⟩⟩ ⟨[104, 105], by decide⟩

/-- The first cut is after one byte of the length of the memo. -/
theorem delimited_memoTransfer :
    memoTransfer.type ≠ .deployModule ∧
    (∃ e, Payload.decode (memoTransfer.encode.take 34) = .error e ∧ e.IsEarlyEnd) ∧
    Payload.decode (memoTransfer.encode ++ [0, 0]) = .error (.trailingBytes "payload" 2) := by
  have hmodule : memoTransfer.type ≠ .deployModule := by decide
  have hdelimited := decoders_delimited.1 memoTransfer hmodule
  refine ⟨hmodule, hdelimited.cut _ (List.take_prefix _ _) ?_, hdelimited.extended _ ?_⟩
  · decide
  · decide

end AccountTx
