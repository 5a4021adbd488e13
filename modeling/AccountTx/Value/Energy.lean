import AccountTx.Limits
import AccountTx.Value.Word

/-!
Energy, and what a transaction is charged: the base cost of its payload, and an amount for each
signature and each byte of the header and the payload.
-/

namespace AccountTx

@[ext] structure Energy where
  value : UInt64
  deriving DecidableEq

/-- The number of bytes of a payload, as a header states it. -/
@[ext] structure PayloadSize where
  value : UInt32
  deriving DecidableEq

inductive EnergyError where
  | overflow
  deriving DecidableEq

def EnergyError.message : EnergyError → String
  | .overflow => "energy cost overflows u64"

namespace Energy

def zero : Energy := ⟨0⟩

def add? (a b : Energy) : Option Energy := (Word.add? a.value b.value).map mk

def toText (e : Energy) : String := toString e.value ++ " NRG"

/-- The allowance that a transaction of the given shape needs. -/
def cost (signatures : UInt32) (base : Energy) (headerSize payloadSize : UInt32) :
    Except EnergyError Energy :=
  let total := do
    let forSignatures ← Word.mul? Limits.energyPerSignature signatures.toUInt64
    let size ← Word.add? headerSize.toUInt64 payloadSize.toUInt64
    let forBytes ← Word.mul? size Limits.energyPerByte
    let charged ← Word.add? base.value forSignatures
    Word.add? charged forBytes
  match total with
  | some value => .ok ⟨value⟩
  | none => .error .overflow

/-- One unit for every ten bytes of a module, to the nearest; a half goes to the even neighbour. -/
def ofModuleLength (length : Nat) : Nat :=
  let quotient := length / Limits.moduleBytesPerEnergy
  let remainder := length % Limits.moduleBytesPerEnergy
  let half := Limits.moduleBytesPerEnergy / 2
  if half < remainder ∨ (remainder = half ∧ quotient % 2 = 1) then quotient + 1 else quotient

end Energy

end AccountTx
