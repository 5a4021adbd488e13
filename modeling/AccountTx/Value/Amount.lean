import AccountTx.Text.Decimal
import AccountTx.Value.Error
import AccountTx.Value.Stepping
import AccountTx.Value.Word

/-!
Amounts, counted in millionths of a CCD. Sums, differences and conversions are exact or fail.
-/

namespace AccountTx

structure Amount where
  micro : UInt64
  deriving DecidableEq

namespace Amount

def ofCcd (ccd : UInt64) : Except ValueError Amount :=
  match Word.mul? ccd Limits.microPerCcd with
  | some micro => .ok ⟨micro⟩
  | none => .error (.amountOverflow (.conversion ccd))

def add (a b : Amount) : Except ValueError Amount :=
  match Word.add? a.micro b.micro with
  | some micro => .ok ⟨micro⟩
  | none => .error (.amountOverflow (.sum a.micro b.micro))

def sub (a b : Amount) : Except ValueError Amount :=
  match Word.sub? a.micro b.micro with
  | some micro => .ok ⟨micro⟩
  | none => .error (.amountOverflow (.difference a.micro b.micro))

def encode (a : Amount) : Bytes := BigEndian.ofNat 8 a.micro.toNat

/-- Whole CCD, a point, and exactly six decimals. -/
def toText (a : Amount) : String :=
  toString (a.micro / Limits.microPerCcd) ++ "."
    ++ Text.pad 6 (a.micro % Limits.microPerCcd).toNat ++ " CCD"

/-- One step of a computation with a running amount. -/
inductive Step where
  | add (n : UInt64)
  | sub (n : UInt64)
  | ofCcd (n : UInt64)
  | ofMicro (n : UInt64)

def Step.apply (a : Amount) : Step → Except ValueError Amount
  | .add n => a.add ⟨n⟩
  | .sub n => a.sub ⟨n⟩
  | .ofCcd n => Amount.ofCcd n
  | .ofMicro n => .ok ⟨n⟩

/-- The outcome of each step; a step that fails leaves the amount as it was. -/
def trace (a : Amount) (steps : List Step) : List (Except ValueError Amount) :=
  Stepping.trace Step.apply a steps

end Amount

end AccountTx
