import AccountTx.Proofs.Value.Checked
import Mathlib.Algebra.Order.Ring.Nat

/-!
Expiries that are told by the time until them. The time is added to that of the clock without any
loss, whichever the limit that the result breaks: the greatest time of an expiry, which is that of a
signed word, or the greatest word, which the sum and before it the minutes in seconds have to fit.
-/

namespace AccountTx.Expiry

/-- What comes of an expiry at an exact time: the expiry, or an error that shows the time, and the
greatest word in its place if it is none. -/
inductive Outcome (time : Nat) : Except ValueError Expiry → Prop where
  | made {e : Expiry} : e.seconds.toNat = time → Outcome time (.ok e)
  | refused {shown : UInt64} : 2 ^ 63 ≤ time → shown.toNat = min time (2 ^ 64 - 1) →
      Outcome time (.error (.expiryOutOfRange shown))

theorem seconds_lt (e : Expiry) : e.seconds.toNat < 2 ^ 63 :=
  Nat.lt_succ_of_le (UInt64.le_iff_toNat_le.mp e.le_max)

theorem eq_of_toNat_eq {e e' : Expiry} (h : e.seconds.toNat = e'.seconds.toNat) : e = e' := by
  obtain ⟨seconds, hle⟩ := e
  obtain ⟨seconds', hle'⟩ := e'
  obtain rfl := UInt64.toNat_inj.mp h
  rfl

namespace Outcome

variable {time : Nat} {outcome : Except ValueError Expiry}

theorem eq_ok_iff (h : Outcome time outcome) {e : Expiry} :
    outcome = .ok e ↔ e.seconds.toNat = time := by
  cases h with
  | @made made hmade =>
      rw [Except.ok.injEq]
      constructor
      · rintro rfl
        exact hmade
      · intro he
        exact eq_of_toNat_eq (hmade.trans he.symm)
  | refused hlate _ =>
      refine iff_of_false nofun fun he => ?_
      have hlt := e.seconds_lt
      omega

theorem eq_error_iff (h : Outcome time outcome) {fault : ValueError} :
    outcome = .error fault ↔
      2 ^ 63 ≤ time ∧ ∃ shown : UInt64, fault = .expiryOutOfRange shown ∧
        shown.toNat = min time (2 ^ 64 - 1) := by
  cases h with
  | @made made hmade =>
      refine iff_of_false nofun fun hlate => ?_
      have hlt := made.seconds_lt
      omega
  | @refused shown hlate hshown =>
      rw [and_iff_right hlate, Except.error.injEq]
      constructor
      · rintro rfl
        exact ⟨shown, rfl, hshown⟩
      · rintro ⟨shown', rfl, hshown'⟩
        rw [UInt64.toNat_inj.mp (hshown.trans hshown'.symm)]

theorem exists_ok_iff (h : Outcome time outcome) : (∃ e, outcome = .ok e) ↔ time < 2 ^ 63 := by
  constructor
  · rintro ⟨e, he⟩
    rw [← h.eq_ok_iff.mp he]
    exact e.seconds_lt
  · intro hlt
    cases h with
    | made hmade => exact ⟨_, rfl⟩
    | refused hlate _ => exact absurd hlt (Nat.not_lt.mpr hlate)

end Outcome

theorem outcome_ofSeconds (seconds : UInt64) : Outcome seconds.toNat (ofSeconds seconds) := by
  have hlt := seconds.toNat_lt
  rw [ofSeconds]
  split
  next => exact .made rfl
  next hlarge =>
    rw [UInt64.le_iff_toNat_le] at hlarge
    have hmax : Limits.maxExpiry.toNat = 2 ^ 63 - 1 := rfl
    apply Outcome.refused <;> omega

/-- A time that is no word is shown as the greatest word. -/
theorem outcome_beyond {time : Nat} (h : UInt64.size ≤ time) :
    Outcome time (.error (.expiryOutOfRange 18446744073709551615)) := by
  have hsize : UInt64.size = 2 ^ 64 := rfl
  have hgreatest : (18446744073709551615 : UInt64).toNat = 2 ^ 64 - 1 := rfl
  apply Outcome.refused <;> omega

/-- The time that a clock shows, where all before 1970 count as 1970. -/
def clockTime (now : Int64) : Nat := now.toInt.toNat

theorem toNat_clockTime (now : Int64) : (UInt64.ofNat now.toInt.toNat).toNat = clockTime now := by
  have hlt := now.toInt_lt
  exact UInt64.toNat_ofNat_of_lt' (by show _ < 2 ^ 64; omega)

theorem outcome_secondsFrom (now : Int64) (seconds : UInt64) :
    Outcome (clockTime now + seconds.toNat) (secondsFrom now.toInt seconds) := by
  rw [← toNat_clockTime, secondsFrom]
  split
  next total htotal =>
    rw [Word.add?_eq_some_iff.mp htotal]
    exact outcome_ofSeconds total
  next hnone => exact outcome_beyond (Word.add?_eq_none_iff.mp hnone)

theorem outcome_minutesFrom (now : Int64) (minutes : UInt64) :
    Outcome (clockTime now + 60 * minutes.toNat) (minutesFrom now.toInt minutes) := by
  have hsixty : (60 : UInt64).toNat = 60 := rfl
  rw [Nat.mul_comm, ← hsixty, minutesFrom]
  split
  next seconds hseconds =>
    rw [Word.mul?_eq_some_iff.mp hseconds]
    exact outcome_secondsFrom now seconds
  -- minutes that are too many alone are too many after any reading of the clock
  next hnone =>
    have hlarge := Word.mul?_eq_none_iff.mp hnone
    exact outcome_beyond (Nat.le_trans hlarge (Nat.le_add_left _ _))

theorem isExpiredAt_eq_false_iff {e : Expiry} {time : UInt64} :
    e.isExpiredAt time = false ↔ time.toNat < e.seconds.toNat := by
  rw [isExpiredAt, decide_eq_false_iff_not, UInt64.not_le, UInt64.lt_iff_toNat_lt]

/-- What comes of an expiry so many seconds after a reading of the clock. It is never earlier than
the reading, and until it a block is in time. -/
structure After (now : Int64) (wait : Nat) (outcome : Except ValueError Expiry) : Prop where
  exists_iff : (∃ e, outcome = .ok e) ↔ clockTime now + wait ≤ 2 ^ 63 - 1
  exact_iff (e : Expiry) : outcome = .ok e ↔ e.seconds.toNat = clockTime now + wait
  error_iff (fault : ValueError) : outcome = .error fault ↔
    2 ^ 63 - 1 < clockTime now + wait ∧ ∃ shown, fault = .expiryOutOfRange shown ∧
      shown.toNat = if clockTime now + wait < 2 ^ 64 then clockTime now + wait else 2 ^ 64 - 1
  not_past (e : Expiry) : outcome = .ok e → now.toInt ≤ e.seconds.toNat
  inTime_iff (e : Expiry) (time : UInt64) : outcome = .ok e →
    (e.isExpiredAt time = false ↔ time.toNat < clockTime now + wait)

theorem Outcome.after {now : Int64} {wait : Nat} {outcome : Except ValueError Expiry}
    (h : Outcome (clockTime now + wait) outcome) : After now wait outcome where
  exists_iff := h.exists_ok_iff.trans (Nat.lt_iff_le_pred (by decide))
  exact_iff _ := h.eq_ok_iff
  error_iff fault := by
    have hshown : min (clockTime now + wait) (2 ^ 64 - 1) =
        if clockTime now + wait < 2 ^ 64 then clockTime now + wait else 2 ^ 64 - 1 := by
      split <;> omega
    rw [h.eq_error_iff, hshown]
    exact Iff.rfl
  not_past e he := by
    have hseconds := h.eq_ok_iff.mp he
    rw [clockTime] at hseconds
    omega
  inTime_iff e time he := by
    rw [isExpiredAt_eq_false_iff, h.eq_ok_iff.mp he]

/-- An expiry so many minutes or seconds from now stands at the exact time, and there is none
exactly if that time is later than the last one; the error then shows it, as far as a word can. -/
theorem relative_exact :
    (∀ (now : Int64) (minutes : UInt64),
      After now (60 * minutes.toNat) (minutesFrom now.toInt minutes)) ∧
    ∀ (now : Int64) (seconds : UInt64),
      After now seconds.toNat (secondsFrom now.toInt seconds) :=
  ⟨fun now minutes => (outcome_minutesFrom now minutes).after,
    fun now seconds => (outcome_secondsFrom now seconds).after⟩

/-- A clock that is five seconds before 1970 counts as 1970, and one that shows the last second but
one leaves room for one second and not for two. -/
theorem relative_at_limits :
    (∃ e, minutesFrom (-5 : Int64).toInt 30 = .ok e ∧ e.seconds = 1800 ∧
      (-5 : Int64).toInt ≤ e.seconds.toNat ∧ e.isExpiredAt 1799 = false) ∧
    (∃ e, secondsFrom (9223372036854775806 : Int64).toInt 1 = .ok e) ∧
    secondsFrom (9223372036854775806 : Int64).toInt 2 =
      .error (.expiryOutOfRange 9223372036854775808) ∧
    minutesFrom (0 : Int64).toInt 307445734561825861 =
      .error (.expiryOutOfRange 18446744073709551615) := by
  have hmade : minutesFrom (-5 : Int64).toInt 30 = .ok ⟨1800, by decide⟩ := rfl
  have hearly := relative_exact.1 (-5) 30
  have hlate := relative_exact.2 9223372036854775806
  refine ⟨⟨_, hmade, rfl, hearly.not_past _ hmade, ?_⟩, (hlate 1).exists_iff.mpr ?_,
    ((hlate 2).error_iff _).mpr ?_, ((relative_exact.1 0 _).error_iff _).mpr ?_⟩
  · exact (hearly.inTime_iff _ 1799 hmade).mpr (by decide)
  · decide
  · exact ⟨by decide, _, rfl, by decide⟩
  · exact ⟨by decide, _, rfl, by decide⟩

end AccountTx.Expiry
