import AccountTx.Value.Error
import AccountTx.Value.Stepping
import AccountTx.Value.Word

/-!
The sequence numbers that order the transactions of an account. The first is one.
-/

namespace AccountTx

structure Nonce where
  value : UInt64
  ne_zero : value ≠ 0
  deriving DecidableEq

namespace Nonce

def first : Nonce := ⟨1, by decide⟩

def ofNumber (n : UInt64) : Except ValueError Nonce :=
  if h : n = 0 then .error .zeroNonce else .ok ⟨n, h⟩

/-- The sequence number of the transaction after this one. -/
def next (n : Nonce) : Except ValueError Nonce :=
  match h : Word.add? n.value 1 with
  | some m => .ok ⟨m, fun h0 => by simp [h0, Word.add?_eq_some_iff] at h⟩
  | none => .error (.nonceOverflow n.value)

inductive Step where
  | set (n : UInt64)
  | next

def Step.apply (a : Nonce) : Step → Except ValueError Nonce
  | .set n => ofNumber n
  | .next => a.next

/-- The outcome of each step; a step that fails leaves the sequence number as it was. -/
def trace (a : Nonce) (steps : List Step) : List (Except ValueError Nonce) :=
  Stepping.trace Step.apply a steps

end Nonce

end AccountTx
