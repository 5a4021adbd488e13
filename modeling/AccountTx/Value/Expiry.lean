import AccountTx.Value.Calendar
import AccountTx.Value.Error
import AccountTx.Value.Word

/-!
The time from which on a transaction can no longer be included, in seconds of the unix clock. It
never exceeds what a signed 64-bit number holds.
-/

namespace AccountTx

structure Expiry where
  seconds : UInt64
  le_max : seconds ≤ Limits.maxExpiry
  deriving DecidableEq

namespace Expiry

def ofSeconds (seconds : UInt64) : Except ValueError Expiry :=
  if h : seconds ≤ Limits.maxExpiry then .ok ⟨seconds, h⟩ else .error (.expiryOutOfRange seconds)

/-- The seconds of a clock that may stand before 1970. -/
def ofClock (seconds : Int) : Except ValueError Expiry :=
  if seconds < 0 then .error (.expiryBeforeEpoch seconds)
  else ofSeconds (UInt64.ofNat seconds.toNat)

/-- So many seconds after the reading `now` of the clock; a reading before 1970 counts as 1970. -/
def secondsFrom (now : Int) (seconds : UInt64) : Except ValueError Expiry :=
  match Word.add? (UInt64.ofNat now.toNat) seconds with
  | some total => ofSeconds total
  | none => .error (.expiryOutOfRange 18446744073709551615)

def minutesFrom (now : Int) (minutes : UInt64) : Except ValueError Expiry :=
  match Word.mul? minutes 60 with
  | some seconds => secondsFrom now seconds
  | none => .error (.expiryOutOfRange 18446744073709551615)

/-- Whether a block of the given time comes too late. -/
def isExpiredAt (e : Expiry) (blockTime : UInt64) : Bool := e.seconds ≤ blockTime

def encode (e : Expiry) : Bytes := BigEndian.ofNat 8 e.seconds.toNat

def toText (e : Expiry) : String :=
  if e.seconds.toNat ≤ Calendar.lastSecond then Calendar.timeText e.seconds.toNat
  else toString e.seconds ++ "s"

end Expiry

end AccountTx
