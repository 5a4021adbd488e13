import AccountTx.Proofs.Transaction.Obtained
import AccountTx.Proofs.Wire.Delimitation

/-!
Block items that are cut off, and block items with bytes behind them. All that stands before the
payload tells its own length, and the header tells the length of the payload. So a block item that
is cut off ends early in one of the fields before the payload, or its payload is too short for the
header; with bytes behind it, its payload is too long. This holds for modules as well, which would
take any number of bytes.
-/

namespace AccountTx

namespace BlockItem

open Reader

variable {bytes rest : Bytes}

/-! ### Up to the payload -/

/-- All of a block item that stands before its payload. -/
def readFront : Reader (SignatureMap × Header) := do
  readVersion
  readKind
  let signatures ← SignatureMap.read
  let header ← Header.read
  return (signatures, header)

def readPayload (front : SignatureMap × Header) : Reader SignedTransaction := do
  let payloadBytes ← Reader.all
  if payloadBytes.length = front.2.payloadSize.value.toNat then
    let payload ← Payload.decodeWithEnergy payloadBytes (budget front.2 front.1.count)
    return ⟨front.2, payload, payloadBytes, front.1⟩
  else Reader.fail (.payloadSizeMismatch front.2.payloadSize.value payloadBytes.length)

theorem read_eq : read = readFront >>= readPayload := by
  simp only [read, readFront, readPayload, bind_assoc, pure_bind]

theorem stable_readOnly (field : String) (allowed : UInt8) (fault : UInt8 → DecodeError) :
    Stable (readOnly field allowed fault) := by
  apply (stable_byte field).bind
  intro b
  split
  · exact stable_fail _
  · exact stable_pure _

theorem stable_readFront : Stable readFront :=
  (stable_readOnly _ _ _).bind fun _ => (stable_readOnly _ _ _).bind fun _ =>
    SignatureMap.stable_read.bind fun _ => Header.stable_read.bind fun _ => stable_pure _

/-- What is written before a payload. -/
def encodeFront (signatures : SignatureMap) (header : Header) : Bytes :=
  [0, 0] ++ signatures.encode ++ header.encode

theorem length_encodeFront (s : SignatureMap) (h : Header) :
    (encodeFront s h).length = 2 + s.encodedSize + 60 := by
  simp only [encodeFront, List.length_append, s.length_encode, h.length_encode, List.length_cons,
    List.length_nil]

theorem readFront_encodeFront (s : SignatureMap) (h : Header) (rest : Bytes) :
    readFront (encodeFront s h ++ rest) = .ok ((s, h), rest) := by
  simp only [readFront, bind_eq_ok_iff, readVersion_eq_ok_iff, readKind_eq_ok_iff,
    SignatureMap.read_eq_ok_iff, Header.read_eq_ok_iff, pure_eq_ok_iff]
  exact ⟨(), _, by simp [encodeFront], (), _, rfl, s, _, rfl, h, _, rfl, rfl, rfl⟩

theorem decode_of_read_eq_error {e : DecodeError} (h : read bytes = .error e) :
    decode bytes = .error e := by
  rw [decode, h]
  rfl

/-! ### The payload -/

/-- Bytes behind the header are refused, whichever they are, if there are not as many as it says. -/
theorem decode_of_length_ne {s : SignatureMap} {h : Header}
    (hlength : rest.length ≠ h.payloadSize.value.toNat) :
    decode (encodeFront s h ++ rest) =
      .error (.payloadSizeMismatch h.payloadSize.value rest.length) := by
  have hpayload : readPayload (s, h) rest =
      .error (.payloadSizeMismatch h.payloadSize.value rest.length) := by
    rw [readPayload, bind_eq_error_iff]
    refine .inr ⟨rest, [], rfl, ?_⟩
    rw [if_neg hlength]
    rfl
  apply decode_of_read_eq_error
  rw [read_eq, bind_eq_error_iff]
  exact .inr ⟨(s, h), rest, readFront_encodeFront s h rest, hpayload⟩

namespace Parts

variable (x : Parts)

theorem write_eq : x.write = encodeFront x.signatures x.header ++ x.payload.encode := rfl

theorem decode_cut_front {cut : Bytes} (hcut : cut <+: x.write)
    (hshort : cut.length < 2 + x.signatures.encodedSize + 60) :
    ∃ e, decode cut = .error e ∧ e.IsEarlyEnd := by
  have hfront : readFront x.write = .ok ((x.signatures, x.header), x.payload.encode) :=
    readFront_encodeFront x.signatures x.header x.payload.encode
  have hmissing : cut.length + x.payload.encode.length < x.write.length := by
    rw [x.write_eq, List.length_append, length_encodeFront]
    omega
  obtain ⟨e, hanswer, hearly⟩ := stable_readFront.isEarlyEnd_of_cut hfront hcut hmissing
  refine ⟨e, decode_of_read_eq_error ?_, hearly⟩
  rw [read_eq, bind_eq_error_iff]
  exact .inl hanswer

theorem decode_cut_payload {cut : Bytes} (hcut : cut <+: x.write) (hne : cut ≠ x.write)
    (hlong : 2 + x.signatures.encodedSize + 60 ≤ cut.length) :
    decode cut = .error (.payloadSizeMismatch x.header.payloadSize.value
      (cut.length - (2 + x.signatures.encodedSize + 60))) := by
  rw [← length_encodeFront x.signatures x.header] at hlong ⊢
  -- the cut is in the payload, so what is before it is there
  obtain ⟨part, rfl⟩ : encodeFront x.signatures x.header <+: cut :=
    List.prefix_of_prefix_length_le (List.prefix_append _ _) hcut hlong
  have hpart : part <+: x.payload.encode := (List.prefix_append_right_inj _).mp hcut
  have hlength : part.length ≠ x.header.payloadSize.value.toNat := by
    rw [x.size_eq]
    intro heq
    exact hne (congrArg (encodeFront x.signatures x.header ++ ·) (hpart.eq_of_length heq))
  rw [decode_of_length_ne hlength, List.length_append, Nat.add_sub_cancel_left]

theorem decode_extended {more : Bytes} (hne : more ≠ []) :
    decode (x.write ++ more) = .error (.payloadSizeMismatch x.header.payloadSize.value
      (x.payload.encode.length + more.length)) := by
  have hpos : 0 < more.length := List.length_pos_iff.mpr hne
  have hlength : (x.payload.encode ++ more).length ≠ x.header.payloadSize.value.toNat := by
    rw [x.size_eq, List.length_append]
    omega
  rw [x.write_eq, List.append_assoc, decode_of_length_ne hlength, List.length_append]

end Parts

/-- Of two block items neither is the front of the other. -/
theorem eq_of_isPrefix {bytes' : Bytes} {tx tx' : SignedTransaction}
    (hdecode : decode bytes = .ok tx) (hdecode' : decode bytes' = .ok tx')
    (hfront : bytes <+: bytes') : bytes = bytes' := by
  obtain ⟨x, rfl, -⟩ := decode_eq_ok_iff.mp hdecode
  obtain ⟨more, rfl⟩ := hfront
  by_cases hmore : more = []
  · rw [hmore, List.append_nil]
  · rw [x.decode_extended hmore] at hdecode'
    cases hdecode'

end BlockItem

namespace SignedTransaction

/-- Where the payload stands in a block item. -/
def payloadStart (tx : SignedTransaction) : Nat := 2 + tx.signatures.encodedSize + 60

/-- The block item is refused if it is cut off or has bytes behind it: for a field before the
payload in which it ends, or for a payload that is not as long as the header declares. -/
structure Delimited (tx : SignedTransaction) : Prop where
  declared : tx.header.payloadSize.value.toNat = tx.payloadBytes.length
  cut_front : ∀ bytes, bytes <+: tx.toBlockItem.bytes → bytes.length < tx.payloadStart →
    ∃ e, BlockItem.decode bytes = .error e ∧ e.IsEarlyEnd
  cut_payload : ∀ bytes, bytes <+: tx.toBlockItem.bytes → bytes ≠ tx.toBlockItem.bytes →
    tx.payloadStart ≤ bytes.length →
    BlockItem.decode bytes = .error (.payloadSizeMismatch tx.header.payloadSize.value
      (bytes.length - tx.payloadStart))
  extended : ∀ more, more ≠ [] →
    BlockItem.decode (tx.toBlockItem.bytes ++ more) =
      .error (.payloadSizeMismatch tx.header.payloadSize.value
        (tx.payloadBytes.length + more.length))

theorem Obtained.delimited {tx : SignedTransaction} (h : tx.Obtained) : tx.Delimited := by
  obtain ⟨x, rfl⟩ := obtained_iff.mp h
  constructor
  · exact x.size_eq
  · rw [x.bytes_toBlockItem]
    exact fun bytes => x.decode_cut_front
  · rw [x.bytes_toBlockItem]
    exact fun bytes => x.decode_cut_payload
  · rw [x.bytes_toBlockItem]
    exact fun more => x.decode_extended

/-- The block items of transactions that were obtained in any way are refused where they are cut off
and where bytes follow them, for that reason and no other. So none that is read is the front of
another. -/
theorem blockItem_delimited :
    (∀ tx : SignedTransaction, tx.Obtained → tx.Delimited) ∧
    ∀ (bytes bytes' : Bytes) (tx tx' : SignedTransaction), BlockItem.decode bytes = .ok tx →
      BlockItem.decode bytes' = .ok tx' → bytes <+: bytes' → bytes = bytes' :=
  ⟨fun _ h => h.delimited, fun _ _ _ _ => BlockItem.eq_of_isPrefix⟩

/-- A module of eight bytes. -/
def smallModule : PreparedTransaction where
  sender := initCall.sender
  nonce := initCall.nonce
  expiry := initCall.expiry
  payload := .deployModule [0, 97, 115, 109, 1, 0, 0, 0]

/-- The first cut is within the first signature, and the second one takes half of the module away,
which would be a module still. -/
theorem delimited_smallModule :
    ∃ tx : SignedTransaction, smallModule.sign twoSigners = .ok tx ∧ tx.payloadStart = 76 ∧
      (∃ e, BlockItem.decode (tx.toBlockItem.bytes.take 8) = .error e ∧ e.IsEarlyEnd) ∧
      BlockItem.decode (tx.toBlockItem.bytes.take 81) = .error (.payloadSizeMismatch 9 5) ∧
      BlockItem.decode (tx.toBlockItem.bytes ++ [0, 0]) = .error (.payloadSizeMismatch 9 11) := by
  have hsign : smallModule.sign twoSigners = .ok
      { header := ⟨smallModule.sender, smallModule.nonce, ⟨270⟩, ⟨9⟩, smallModule.expiry⟩
        payload := smallModule.payload
        payloadBytes := smallModule.payload.encode
        signatures :=
          { slots := SlotMap.mapValues (fun signer => signer []) twoSigners.signers
            fits := SignatureMap.fault?_eq_none_iff.mp rfl } } := by
    rfl
  have hdelimited := blockItem_delimited.1 _ (.assembled hsign)
  refine ⟨_, hsign, rfl, hdelimited.cut_front _ (List.take_prefix _ _) ?_,
    hdelimited.cut_payload _ (List.take_prefix _ _) ?_ ?_, hdelimited.extended _ ?_⟩
  all_goals decide

end SignedTransaction

end AccountTx
