import AccountTx.Proofs.Assembly.RoundTrip
import AccountTx.Proofs.BlockItem.Canonical
import AccountTx.Proofs.Form.Canonical
import AccountTx.Proofs.Form.Value

/-!
The hash that comes with a block item. An item that is framed has the hash of the transaction in its
bytes, but reading an item takes the hash as it stands in the document or in the bytes that are
read. So all items are obtained, and among those of the same bytes one has the hash that belongs to
them.
-/

namespace AccountTx.BlockItem

/-- The ways to come by a block item. -/
inductive Obtained : BlockItem → Prop where
  | framed (tx : SignedTransaction) : Obtained tx.toBlockItem
  | document {text : String} {b : BlockItem} : ofText? text = some (.ok b) → Obtained b
  | binary {wire : Bytes} {b : BlockItem} : Binary.decode wire = .ok b → Obtained b

/-- If there is a transaction in the bytes, then its hash is the one that comes with them, and it is
the digest of the bytes after the version. -/
def HashBelongs (b : BlockItem) : Prop :=
  ∀ tx, decode b.bytes = .ok tx →
    b.hash = tx.hash ∧ tx.hash.bytes = sha256 (b.bytes.drop 1)

variable {bytes : Bytes} {tx : SignedTransaction}

theorem bytes_toBlockItem_of_decode (h : decode bytes = .ok tx) : tx.toBlockItem.bytes = bytes := by
  obtain ⟨x, rfl, rfl⟩ := decode_eq_ok_iff.mp h
  exact x.bytes_toBlockItem

/-- The version stands before the bytes that are hashed. -/
theorem hash_eq_sha256 (tx : SignedTransaction) :
    tx.hash = ⟨sha256 (tx.toBlockItem.bytes.drop 1)⟩ :=
  rfl

theorem hash_eq_of_decode (h : decode bytes = .ok tx) : tx.hash = ⟨sha256 (bytes.drop 1)⟩ := by
  rw [hash_eq_sha256, bytes_toBlockItem_of_decode h]

/-- The framing of the transaction in the bytes is the only item whose hash belongs to them. -/
theorem hashBelongs_iff_of_decode {b : BlockItem} (h : decode b.bytes = .ok tx) :
    b.HashBelongs ↔ b = tx.toBlockItem := by
  constructor
  · intro hbelongs
    obtain ⟨hhash, -⟩ := hbelongs tx h
    have hbytes := bytes_toBlockItem_of_decode h
    cases b
    rw [BlockItem.mk.injEq]
    exact ⟨hbytes.symm, hhash⟩
  · intro hb tx' h'
    obtain rfl : tx = tx' := Except.ok.inj (h.symm.trans h')
    exact ⟨congrArg BlockItem.hash hb, congrArg TransactionHash.bytes (hash_eq_of_decode h)⟩

theorem hashBelongs_toBlockItem (tx : SignedTransaction) : tx.toBlockItem.HashBelongs := by
  intro tx' h
  have hhash := hash_eq_of_decode h
  exact ⟨(hash_eq_sha256 tx).trans hhash.symm, congrArg TransactionHash.bytes hhash⟩

theorem hashBelongs_iff {b : BlockItem} :
    b.HashBelongs ↔ ∀ tx, decode b.bytes = .ok tx → b = tx.toBlockItem := by
  constructor
  · exact fun hbelongs tx h => (hashBelongs_iff_of_decode h).mp hbelongs
  · exact fun hframed tx h => (hashBelongs_iff_of_decode h).mpr (hframed tx h) tx h

theorem decode_write_iff {b : BlockItem} :
    Binary.decode (BinaryForm.write b) = .ok b ↔ b.bytes.length < 2 ^ 64 := by
  have hwrite := canonical.decode_write b []
  rw [List.append_nil, and_iff_left b.hash.ofBytes_toList] at hwrite
  exact hwrite

/-- Reading an item checks nothing of it but its form, so that every item is read. The hash belongs
to the bytes of an item that is framed, and besides only of one without a transaction. -/
theorem hash_belongs_iff (b : BlockItem) :
    (b.HashBelongs ↔ ∀ tx, decode b.bytes = .ok tx → b = tx.toBlockItem) ∧
    (∀ tx : SignedTransaction, tx.toBlockItem.HashBelongs) ∧
    ofText? (toText b) = some (.ok b) ∧
    (Binary.decode (BinaryForm.write b) = .ok b ↔ b.bytes.length < 2 ^ 64) :=
  ⟨hashBelongs_iff, hashBelongs_toBlockItem, ofText?_toText b, decode_write_iff⟩

/-- A transaction that registers no data, with a signature of one byte. -/
def smallParts : Parts where
  signatures :=
    { slots := ⟨[(0, ⟨[(0, [1])], by simp⟩)], by simp⟩
      fits := SignatureMap.fault?_eq_none_iff.mp rfl }
  header := ⟨initCall.sender, initCall.nonce, ⟨163⟩, ⟨3⟩, initCall.expiry⟩
  payload := .registerData ⟨[], by decide⟩
  size_eq := rfl

/-- Two items that are read have the same bytes and different hashes, so one hash is wrong. -/
theorem not_hash_belongs : ¬ ∀ b : BlockItem, b.Obtained → b.HashBelongs := by
  intro hall
  have hdecode : decode smallParts.write = .ok smallParts.transaction :=
    decode_eq_ok_iff.mpr ⟨smallParts, rfl, rfl⟩
  have hhash (hash : TransactionHash) : hash = smallParts.transaction.hash :=
    (hall ⟨smallParts.write, hash⟩ (.document (ofText?_toText _)) _ hdecode).1
  have hequal := (hhash ⟨List.replicate 32 0, rfl⟩).trans (hhash ⟨List.replicate 32 1, rfl⟩).symm
  revert hequal
  decide

end AccountTx.BlockItem
