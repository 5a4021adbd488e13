import AccountTx.Signing.SignatureMap

/-!
The signers of an account by credential and key. A registry starts empty and grows by one slot at a
time; no slot is taken twice and no credential is without a key, so a registry has as many slots as
signers were added. Signing asks every signer for its signature of the same bytes.
-/

namespace AccountTx

/-- Turns the bytes that are signed into a signature. -/
abbrev Signer := Bytes → Bytes

namespace Registry

def KeysFit (keys : IndexMap Signer) : Prop := 0 < keys.size ∧ keys.size ≤ Limits.maxSigners

def Fits (signers : SlotMap Signer) : Prop :=
  signers.size ≤ Limits.maxSigners ∧ ∀ e ∈ signers.entries, KeysFit e.2

end Registry

structure Registry where
  signers : SlotMap Signer
  fits : Registry.Fits signers

namespace Registry

def empty : Registry := ⟨.empty, by simp [Fits]⟩

/-- The signers of a credential, none if it is not there. -/
def keysOf (r : Registry) (credential : UInt8) : IndexMap Signer :=
  (r.signers.get? credential).getD .empty

/-- There is no room for one more credential, and this one is not there. -/
def LacksRoom (r : Registry) (credential : UInt8) : Prop :=
  r.signers.contains credential = false ∧ Limits.maxSigners ≤ r.signers.size

instance (r : Registry) (credential : UInt8) : Decidable (r.LacksRoom credential) :=
  inferInstanceAs (Decidable (_ ∧ _))

theorem fits_insert (r : Registry) {credential key : UInt8} (signer : Signer)
    (hroom : ¬ r.LacksRoom credential) (hfree : (r.keysOf credential).contains key = false)
    (hkeys : (r.keysOf credential).size < Limits.maxSigners) :
    Fits (r.signers.insert credential ((r.keysOf credential).insert key signer)) := by
  constructor
  · rw [IndexMap.size_insert]
    split
    next => exact r.fits.1
    next h =>
      have hnew : r.signers.contains credential = false := by simpa using h
      exact Nat.succ_le_of_lt (Nat.lt_of_not_le fun hfull => hroom ⟨hnew, hfull⟩)
  · intro e he
    rcases IndexMap.mem_insert he with rfl | he
    · refine ⟨IndexMap.size_insert_pos _ _ _, ?_⟩
      rw [IndexMap.size_insert, if_neg (by simp [hfree])]
      exact hkeys
    · exact r.fits.2 e he

/-- The registry with one more signer. A credential without room is reported before a slot that is
taken, and that before a credential that is full. -/
def add (r : Registry) (credential key : UInt8) (signer : Signer) :
    Except SigningError Registry :=
  if hroom : r.LacksRoom credential then .error (.tooManyCredentials Limits.maxSigners)
  else if htaken : (r.keysOf credential).contains key = true then
    .error (.duplicateKey credential key)
  else if hkeys : (r.keysOf credential).size < Limits.maxSigners then
    .ok ⟨r.signers.insert credential ((r.keysOf credential).insert key signer),
      r.fits_insert signer hroom (by simpa using htaken) hkeys⟩
  else .error (.tooManyKeys credential Limits.maxSigners)

/-- The registry of one signer, for the first key of the first credential. -/
def single (signer : Signer) : Registry :=
  ⟨IndexMap.empty.insert 0 (IndexMap.empty.insert 0 signer),
    by simp [Fits, KeysFit, IndexMap.insert, IndexMap.insertEntry, IndexMap.empty, IndexMap.size,
      Limits.maxSigners]⟩

/-- The number of signatures that signing gives. -/
def count (r : Registry) : Nat := SlotMap.count r.signers

def isEmpty (r : Registry) : Bool := r.signers.entries.isEmpty

def slots (r : Registry) : List (UInt8 × UInt8) := SlotMap.slots r.signers

/-- The signatures of all signers for the same bytes. -/
def sign (r : Registry) (digest : Bytes) : Except SigningError SignatureMap :=
  if r.isEmpty then .error .noSigners
  else SignatureMap.ofSlots (SlotMap.mapValues (fun signer => signer digest) r.signers)

def describeSlot (slot : UInt8 × UInt8) : String :=
  s!"(CredentialIndex({slot.1}), KeyIndex({slot.2}))"

def describe (r : Registry) : String :=
  "TransactionSigner \x7b slots: [" ++ ", ".intercalate (r.slots.map describeSlot) ++ "] \x7d"

end Registry

/-- A registry that many hold and any of them may exchange. -/
structure SharedRegistry where
  current : Registry

namespace SharedRegistry

/-- What is in effect now; a later exchange leaves it alone. -/
def snapshot (s : SharedRegistry) : Registry := s.current

/-- Puts a registry in effect, and gives back the one before it. -/
def replace (s : SharedRegistry) (r : Registry) : Registry × SharedRegistry := (s.current, ⟨r⟩)

def describe (s : SharedRegistry) : String :=
  "SharedTransactionSigner(" ++ s.current.describe ++ ")"

end SharedRegistry

end AccountTx
