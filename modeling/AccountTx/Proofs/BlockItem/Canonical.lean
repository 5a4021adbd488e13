import AccountTx.Proofs.Energy.Cost
import AccountTx.Proofs.Header.Codec
import AccountTx.Proofs.Payload.Codec
import AccountTx.Proofs.Results
import AccountTx.Proofs.Signing.Codec
import AccountTx.Proofs.SlotMap.Lookup
import AccountTx.Transaction.BlockItem

/-!
Block items and the transactions in them. A byte string is read as a block item exactly if it is
what is written for a signature map, a header and a payload of the declared size, and it is read as
the transaction that consists of these.
-/

namespace AccountTx

theorem SignatureMap.toNat_ofNat_count (s : SignatureMap) :
    (UInt32.ofNat s.count).toNat = s.count :=
  SlotMap.toNat_ofNat_count s.fits.2.1 fun e he => (s.fits.2.2 e he).1

/-- The charges for the signatures and the size never overflow. -/
theorem SignatureMap.exists_overhead (s : SignatureMap) (size : UInt32) :
    ∃ overhead, Energy.cost (UInt32.ofNat s.count) .zero Limits.headerSize size = .ok overhead ∧
      overhead.value.toNat = 100 * s.count + 60 + size.toNat := by
  obtain ⟨overhead, hcost, hvalue⟩ :=
    Energy.exists_cost_zero (UInt32.ofNat s.count) Limits.headerSize size
  have hheader : Limits.headerSize.toNat = 60 := rfl
  rw [s.toNat_ofNat_count, hheader] at hvalue
  exact ⟨overhead, hcost, hvalue⟩

namespace BlockItem

open Reader

variable {bytes : Bytes} {tx : SignedTransaction}

/-- A byte that has one allowed value, such as the version or the kind. -/
def readOnly (field : String) (allowed : UInt8) (fault : UInt8 → DecodeError) : Reader Unit := do
  let b ← Reader.byte field
  if b ≠ allowed then Reader.fail (fault b)

theorem readOnly_eq_ok_iff {field : String} {allowed : UInt8} {fault : UInt8 → DecodeError}
    {rest : Bytes} {u : Unit} :
    readOnly field allowed fault bytes = .ok (u, rest) ↔ bytes = allowed :: rest := by
  simp only [readOnly, bind_eq_ok_iff, byte_eq_ok_iff]
  constructor
  · rintro ⟨b, _, rfl, h⟩
    by_cases hb : b = allowed
    · rw [if_neg (not_not_intro hb), pure_eq_ok_iff] at h
      rw [hb, h.2]
    · rw [if_pos hb] at h
      exact absurd h fail_ne_ok
  · rintro rfl
    refine ⟨allowed, rest, rfl, ?_⟩
    rw [if_neg (not_not_intro rfl), pure_eq_ok_iff]
    exact ⟨rfl, rfl⟩

theorem readVersion_eq_ok_iff {rest : Bytes} {u : Unit} :
    readVersion bytes = .ok (u, rest) ↔ bytes = 0 :: rest :=
  readOnly_eq_ok_iff

theorem readKind_eq_ok_iff {rest : Bytes} {u : Unit} :
    readKind bytes = .ok (u, rest) ↔ bytes = 0 :: rest :=
  readOnly_eq_ok_iff

/-- What a block item is made of; the header tells the length of the payload. -/
structure Parts where
  signatures : SignatureMap
  header : Header
  payload : Payload
  size_eq : header.payloadSize.value.toNat = payload.encode.length

namespace Parts

def write (x : Parts) : Bytes :=
  [0, 0] ++ x.signatures.encode ++ x.header.encode ++ x.payload.encode

/-- What the header leaves for a contract call beyond the charges for signatures and size. -/
def allowance (x : Parts) : Nat :=
  x.header.energy.value.toNat
    - (100 * x.signatures.count + 60 + x.header.payloadSize.value.toNat)

def transaction (x : Parts) : SignedTransaction where
  header := x.header
  payload := x.payload.withMaxEnergy ⟨UInt64.ofNat x.allowance⟩
  payloadBytes := x.payload.encode
  signatures := x.signatures

theorem budget_eq (x : Parts) :
    budget x.header x.signatures.count = ⟨UInt64.ofNat x.allowance⟩ := by
  obtain ⟨overhead, hcost, hvalue⟩ := x.signatures.exists_overhead x.header.payloadSize.value
  rw [budget, hcost]
  simp only [Word.sub?_getD_zero, hvalue]
  rfl

theorem bytes_toBlockItem (x : Parts) : x.transaction.toBlockItem.bytes = x.write := by
  simp [SignedTransaction.toBlockItem, SignedTransaction.encode, transaction, write,
    Limits.blockItemVersion, Limits.accountTransactionKind]

/-- What is signed is all that follows the signatures. -/
theorem drop_write (x : Parts) :
    x.write.drop (2 + x.signatures.encode.length) = x.header.encode ++ x.payload.encode := by
  have hlength : ([0, 0] ++ x.signatures.encode).length = 2 + x.signatures.encode.length := by
    rw [List.length_append]
    rfl
  rw [write, List.append_assoc, ← hlength, List.drop_left]

end Parts

theorem read_eq_ok_iff {rest : Bytes} :
    read bytes = .ok (tx, rest) ↔
      ∃ x : Parts, bytes = x.write ∧ tx = x.transaction ∧ rest = [] := by
  simp only [read, bind_eq_ok_iff, readVersion_eq_ok_iff, readKind_eq_ok_iff,
    SignatureMap.read_eq_ok_iff, Header.read_eq_ok_iff, all_eq_ok_iff]
  constructor
  · rintro ⟨_, _, rfl, _, _, rfl, s, _, rfl, h, written, rfl, _, _, ⟨rfl, rfl⟩, hread⟩
    by_cases hsize : written.length = h.payloadSize.value.toNat
    · rw [if_pos hsize] at hread
      simp only [bind_eq_ok_iff, lift_eq_ok_iff, pure_eq_ok_iff,
        Payload.decodeWithEnergy_eq_ok_iff] at hread
      obtain ⟨p, _, ⟨⟨rfl, henergy⟩, rfl⟩, rfl, rfl⟩ := hread
      -- the payload was read with the budget, and has it as its allowance already
      let x : Parts := ⟨s, h, p, hsize.symm⟩
      refine ⟨x, by simp [x, Parts.write], ?_, rfl⟩
      have hbudget : budget h s.count = ⟨UInt64.ofNat x.allowance⟩ := x.budget_eq
      rw [Parts.transaction, ← hbudget, henergy]
    · rw [if_neg hsize] at hread
      exact absurd hread fail_ne_ok
  · rintro ⟨x, rfl, rfl, rfl⟩
    refine ⟨(), _, by simp [Parts.write], (), _, rfl, x.signatures, _, rfl, x.header,
      x.payload.encode, rfl, x.payload.encode, [], ⟨rfl, rfl⟩, ?_⟩
    rw [if_pos x.size_eq.symm]
    simp only [bind_eq_ok_iff, lift_eq_ok_iff, pure_eq_ok_iff, Payload.decodeWithEnergy_encode]
    refine ⟨x.payload.withMaxEnergy (budget x.header x.signatures.count), [], ⟨rfl, rfl⟩, ?_, rfl⟩
    rw [Parts.transaction, ← x.budget_eq]

theorem decode_eq_ok_iff :
    decode bytes = .ok tx ↔ ∃ x : Parts, bytes = x.write ∧ tx = x.transaction := by
  rw [decode, map_fst_eq_ok_iff]
  simp only [read_eq_ok_iff]
  constructor
  · rintro ⟨_, x, hbytes, htx, _⟩
    exact ⟨x, hbytes, htx⟩
  · rintro ⟨x, hbytes, htx⟩
    exact ⟨[], x, hbytes, htx, rfl⟩

theorem payloadSize_of_decode (hdecode : decode bytes = .ok tx) :
    tx.header.payloadSize.value.toNat = tx.payloadBytes.length := by
  obtain ⟨x, -, rfl⟩ := decode_eq_ok_iff.mp hdecode
  exact x.size_eq

/-- Reading inverts writing in both directions: the block items that are read are the ones that are
written, and nothing of them is lost. The charges that are taken off the energy in the header do not
overflow. -/
theorem decode_canonical :
    (∀ bytes tx, decode bytes = .ok tx ↔ ∃ x : Parts, bytes = x.write ∧ tx = x.transaction) ∧
    ∀ x : Parts,
      (∃ charges, Energy.cost (UInt32.ofNat x.signatures.count) .zero Limits.headerSize
          x.header.payloadSize.value = .ok charges ∧
        charges.value.toNat = 100 * x.signatures.count + 60 + x.header.payloadSize.value.toNat) ∧
      x.transaction.toBlockItem.bytes = x.write ∧
      x.transaction.payload.encode = x.transaction.payloadBytes ∧
      x.transaction.hash.bytes = sha256 (x.write.drop 1) ∧
      x.transaction.digest = sha256 (x.write.drop (2 + x.signatures.encode.length)) := by
  refine ⟨fun bytes tx => decode_eq_ok_iff, fun x => ?_⟩
  refine ⟨x.signatures.exists_overhead x.header.payloadSize.value, x.bytes_toBlockItem,
    Payload.encode_withMaxEnergy x.payload, ?_, ?_⟩
  · rw [← x.bytes_toBlockItem]
    rfl
  · rw [x.drop_write]
    rfl

end BlockItem

end AccountTx
