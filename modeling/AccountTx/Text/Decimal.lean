/-!
Numbers as decimal texts of a least width.
-/

namespace AccountTx.Text

/-- The digits of a number, behind as many zeros as the width asks for. -/
def pad (width n : Nat) : String := String.ofList ((Nat.toDigits 10 n).leftpad width '0')

end AccountTx.Text
