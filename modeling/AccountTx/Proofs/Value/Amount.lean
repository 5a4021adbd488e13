import AccountTx.Command.Setting
import AccountTx.Proofs.Json.Spelling
import AccountTx.Value.Amount
import Mathlib.Algebra.Order.Ring.Int

/-!
Computations with amounts are those of the integers, as long as the results are amounts: along any
run each step gives the exact result, and fails exactly where this is none. The text of an amount
has all its digits: without the point they are its millionths, as the command line takes them, so no
other amount has the same text.
-/

namespace AccountTx.Amount

variable {a b : Amount}

/-! ### Computing -/

/-- An amount as an integer. -/
def value (a : Amount) : Int := a.micro.toNat

/-- The integers that are amounts. -/
def IsAmount (v : Int) : Prop := 0 ≤ v ∧ v ≤ 2 ^ 64 - 1

theorem isAmount_value (a : Amount) : IsAmount a.value := by
  have hlt := a.micro.toNat_lt
  simp only [IsAmount, value]
  omega

theorem exists_value_iff {v : Int} : (∃ a : Amount, a.value = v) ↔ IsAmount v := by
  constructor
  · rintro ⟨a, rfl⟩
    exact a.isAmount_value
  · rintro ⟨hpos, hle⟩
    obtain ⟨w, hw⟩ := Word.exists_eq_toNat (n := v.toNat) (by show _ < 2 ^ 64; omega)
    refine ⟨⟨w⟩, ?_⟩
    simp only [value, ← hw]
    omega

theorem value_inj (h : a.value = b.value) : a = b := by
  obtain ⟨m⟩ := a
  obtain ⟨n⟩ := b
  have hmicro : m.toNat = n.toNat := Int.ofNat.inj h
  rw [UInt64.toNat_inj.mp hmicro]

/-- The amount of a word that was computed, or else the fault of its computation. -/
def ofWord? (word? : Option UInt64) (fault : AmountFault) : Except ValueError Amount :=
  match word? with
  | some micro => .ok ⟨micro⟩
  | none => .error (.amountOverflow fault)

section

variable {word? : Option UInt64} {v : Int} {fault : AmountFault}

theorem ofWord?_eq_ok_iff (hword : ∀ w, word? = some w ↔ (w.toNat : Int) = v) :
    ofWord? word? fault = .ok b ↔ b.value = v := by
  cases word? with
  | some w =>
      have hvalue : value ⟨w⟩ = v := (hword w).mp rfl
      rw [ofWord?, Except.ok.injEq, ← hvalue]
      constructor
      · rintro rfl
        rfl
      · intro h
        exact (value_inj h).symm
  | none =>
      refine iff_of_false nofun fun h => ?_
      cases (hword b.micro).mpr h

theorem ofWord?_eq_error_iff (hword : ∀ w, word? = some w ↔ (w.toNat : Int) = v) {e : ValueError} :
    ofWord? word? fault = .error e ↔ ¬ IsAmount v ∧ e = .amountOverflow fault := by
  cases word? with
  | some w =>
      have hvalue : value ⟨w⟩ = v := (hword w).mp rfl
      refine iff_of_false nofun fun h => h.1 ?_
      rw [← hvalue]
      exact isAmount_value _
  | none =>
      have hnone : ¬ IsAmount v := by
        rw [← exists_value_iff]
        rintro ⟨c, hc⟩
        cases (hword c.micro).mpr hc
      rw [and_iff_right hnone, ofWord?, Except.error.injEq, eq_comm]

end

/-- The exact result of a step. -/
def Step.result (v : Int) : Step → Int
  | .add n => v + n.toNat
  | .sub n => v - n.toNat
  | .ofCcd n => n.toNat * 10 ^ 6
  | .ofMicro n => n.toNat

/-- The computation that is at fault where a step fails; any number of millionths is an amount. -/
def Step.fault? (a : Amount) : Step → Option AmountFault
  | .add n => some (.sum a.micro n)
  | .sub n => some (.difference a.micro n)
  | .ofCcd n => some (.conversion n)
  | .ofMicro _ => none

theorem add?_eq_some_iff_value (n w : UInt64) :
    Word.add? a.micro n = some w ↔ (w.toNat : Int) = a.value + n.toNat := by
  rw [Word.add?_eq_some_iff, value]
  omega

theorem sub?_eq_some_iff_value (n w : UInt64) :
    Word.sub? a.micro n = some w ↔ (w.toNat : Int) = a.value - n.toNat := by
  rw [Word.sub?_eq_some_iff, value]
  omega

theorem mul?_eq_some_iff_value (n w : UInt64) :
    Word.mul? n Limits.microPerCcd = some w ↔ (w.toNat : Int) = n.toNat * 10 ^ 6 := by
  have hmicro : Limits.microPerCcd.toNat = 10 ^ 6 := rfl
  rw [Word.mul?_eq_some_iff, hmicro]
  omega

theorem Step.apply_eq_ok_iff {s : Step} : s.apply a = .ok b ↔ b.value = s.result a.value := by
  cases s with
  | add n => exact ofWord?_eq_ok_iff (add?_eq_some_iff_value n)
  | sub n => exact ofWord?_eq_ok_iff (sub?_eq_some_iff_value n)
  | ofCcd n => exact ofWord?_eq_ok_iff (mul?_eq_some_iff_value n)
  | ofMicro n =>
      rw [apply, Except.ok.injEq]
      constructor
      · rintro rfl
        rfl
      · intro h
        exact value_inj h.symm

theorem Step.apply_eq_error_iff {s : Step} {e : ValueError} :
    s.apply a = .error e ↔ ¬ IsAmount (s.result a.value) ∧
      ∃ fault, s.fault? a = some fault ∧ e = .amountOverflow fault := by
  cases s with
  | add n =>
      simp only [fault?, Option.some.injEq, exists_eq_left']
      exact ofWord?_eq_error_iff (add?_eq_some_iff_value n)
  | sub n =>
      simp only [fault?, Option.some.injEq, exists_eq_left']
      exact ofWord?_eq_error_iff (sub?_eq_some_iff_value n)
  | ofCcd n =>
      simp only [fault?, Option.some.injEq, exists_eq_left']
      exact ofWord?_eq_error_iff (mul?_eq_some_iff_value n)
  | ofMicro n =>
      refine iff_of_false nofun ?_
      rintro ⟨-, fault, hfault, -⟩
      cases hfault

/-- A step fails exactly if its exact result is no amount. -/
theorem Step.exists_error_iff {s : Step} :
    (∃ e, s.apply a = .error e) ↔ ¬ IsAmount (s.result a.value) := by
  constructor
  · rintro ⟨e, he⟩
    exact (apply_eq_error_iff.mp he).1
  · intro hnone
    cases happly : s.apply a with
    | error e => exact ⟨e, rfl⟩
    | ok b =>
        have hvalue := apply_eq_ok_iff.mp happly
        exact absurd (hvalue ▸ b.isAmount_value) hnone

/-- The outcome of exact computation: the amount that is the exact result of the step, or the fault
of the computation if the exact result is no amount. -/
inductive Step.Gives (a : Amount) (s : Step) : Except ValueError Amount → Prop where
  | fits {b : Amount} : b.value = s.result a.value → Gives a s (.ok b)
  | fails {fault : AmountFault} : ¬ IsAmount (s.result a.value) → s.fault? a = some fault →
      Gives a s (.error (.amountOverflow fault))

theorem Step.apply_eq_iff {s : Step} {outcome : Except ValueError Amount} :
    s.apply a = outcome ↔ s.Gives a outcome := by
  cases outcome with
  | ok b =>
      rw [apply_eq_ok_iff]
      constructor
      · exact .fits
      · intro h
        cases h with
        | fits hvalue => exact hvalue
  | error e =>
      rw [apply_eq_error_iff]
      constructor
      · rintro ⟨hnone, fault, hfault, rfl⟩
        exact .fails hnone hfault
      · intro h
        cases h with
        | fails hnone hfault => exact ⟨hnone, _, hfault, rfl⟩

/-! ### Writing -/

/-- The text has digits without a superfluous zero before its point, six digits behind it, and then
the unit. -/
structure IsWritten (text : String) (whole decimals : List Char) : Prop where
  text_eq : text = String.ofList whole ++ "." ++ String.ofList decimals ++ " CCD"
  whole_ne_nil : whole ≠ []
  isDigit_whole : ∀ c ∈ whole, c.isDigit = true
  leading : whole.head? = some '0' → whole = ['0']
  isDigit_decimals : ∀ c ∈ decimals, c.isDigit = true
  length_decimals : decimals.length = 6

/-- A text without the unit at its end and without points. -/
def bareDigits (text : String) : String :=
  String.ofList ((text.toList.take (text.toList.length - 4)).filter (· ≠ '.'))

namespace IsWritten

variable {text : String} {whole decimals : List Char}

theorem bareDigits_eq (h : IsWritten text whole decimals) :
    bareDigits text = String.ofList (whole ++ decimals) := by
  have htext : text.toList = (whole ++ '.' :: decimals) ++ [' ', 'C', 'C', 'D'] := by
    simp [h.text_eq]
  have hcut : text.toList.take (text.toList.length - 4) = whole ++ '.' :: decimals := by
    rw [htext, List.length_append]
    exact List.take_left
  have hdigits {ds : List Char} (hds : ∀ c ∈ ds, c.isDigit = true) : ds.filter (· ≠ '.') = ds := by
    rw [List.filter_eq_self]
    intro c hc
    rw [decide_eq_true_iff]
    exact Json.Spelling.ne_of_isDigit (hds c hc) rfl
  rw [bareDigits, hcut, List.filter_append, List.filter_cons_of_neg (by decide),
    hdigits h.isDigit_whole, hdigits h.isDigit_decimals]

/-- The digits without the point are a decimal number, as it is given for so many millionths. -/
theorem natural?_bareDigits (h : IsWritten text whole decimals) :
    Command.natural? (bareDigits text) = some (Nat.ofDigitChars 10 (whole ++ decimals) 0) := by
  have hdigits : ∀ c ∈ whole ++ decimals, c.isDigit = true := by
    intro c hc
    rcases List.mem_append.mp hc with hc | hc
    · exact h.isDigit_whole c hc
    · exact h.isDigit_decimals c hc
  have hne : whole ++ decimals ≠ [] := List.append_ne_nil_of_left_ne_nil h.whole_ne_nil _
  rw [h.bareDigits_eq, Command.natural?, String.toList_ofList]
  split
  next cs hcs =>
    rw [hcs] at hdigits
    cases hdigits '+' List.mem_cons_self
  next =>
    have hempty : (whole ++ decimals).isEmpty = false := List.isEmpty_eq_false_iff.mpr hne
    have hall : (whole ++ decimals).all Char.isDigit = true := List.all_eq_true.mpr hdigits
    rw [← Json.digitsValue_eq, Command.digits?, hempty, hall]
    rfl

end IsWritten

/-- What is over whole CCD has six digits at most. -/
theorem decimals_lt (a : Amount) : (a.micro % Limits.microPerCcd).toNat < 10 ^ 6 := by
  rw [UInt64.toNat_mod]
  exact Nat.mod_lt _ (by decide)

theorem isWritten_toText (a : Amount) :
    IsWritten a.toText (Nat.toDigits 10 (a.micro / Limits.microPerCcd).toNat)
      (Text.pad 6 (a.micro % Limits.microPerCcd).toNat).toList where
  text_eq := by
    rw [toText, String.ofList_toList, ← Nat.toString_eq_ofList_toDigits]
    rfl
  whole_ne_nil := Nat.toDigits_ne_nil
  isDigit_whole := Json.isDigit_of_mem_toDigits
  leading hzero := by
    obtain ⟨c, hc⟩ := List.length_eq_one_iff.mp (Json.leading_toDigits _ hzero)
    rw [hc] at hzero ⊢
    rw [Option.some.inj hzero]
  isDigit_decimals _ hc := Text.isDigit_of_mem_pad hc
  length_decimals := Text.length_pad (by decide) a.decimals_lt

/-- The point divides the digits of the amount and changes nothing about them. -/
theorem natural?_toText (a : Amount) :
    Command.natural? (bareDigits a.toText) = some a.micro.toNat := by
  rw [a.isWritten_toText.natural?_bareDigits, Nat.ofDigitChars_append,
    Nat.ofDigitChars_ten_toDigits, Text.ofDigitChars_pad_behind (by decide) a.decimals_lt,
    UInt64.toNat_div, UInt64.toNat_mod]
  congr 1
  exact Nat.div_add_mod a.micro.toNat 1000000

theorem number64?_toText (a : Amount) : Command.number64? (bareDigits a.toText) = some a.micro := by
  have hlt : a.micro.toNat < UInt64.size := a.micro.toNat_lt
  rw [Command.number64?, a.natural?_toText, Option.bind_some, if_pos hlt, UInt64.ofNat_toNat]

theorem toText_injective : Function.Injective toText := by
  intro a b h
  have hdigits := a.natural?_toText
  rw [h, b.natural?_toText] at hdigits
  apply value_inj
  exact congrArg Int.ofNat (Option.some.inj hdigits.symm)

/-! ### Amounts -/

/-- What holds of computing with amounts and of their texts. -/
structure AmountLaws : Prop where
  numbers (v : Int) : (∃ a : Amount, a.value = v) ↔ 0 ≤ v ∧ v ≤ 2 ^ 64 - 1
  run (a : Amount) (steps : List Step) (outcomes : List (Except ValueError Amount)) :
    a.trace steps = outcomes ↔ Stepping.Runs Step.Gives a steps outcomes
  fails (a : Amount) (s : Step) :
    (∃ e, s.apply a = .error e) ↔ ¬ (0 ≤ s.result a.value ∧ s.result a.value ≤ 2 ^ 64 - 1)
  written (a : Amount) : ∃ whole decimals, IsWritten a.toText whole decimals
  read (a : Amount) : Command.natural? (bareDigits a.toText) = some a.micro.toNat
  given (a : Amount) : Command.number64? (bareDigits a.toText) = some a.micro
  distinct (a b : Amount) : a ≠ b → a.toText ≠ b.toText

/-- Any run of steps with amounts is the exact one over the integers from 0 to the greatest word,
and a step that leaves them fails and changes nothing. An amount is written with all its digits and
none in excess, so that it can be read back and tells itself from all others. -/
theorem amounts_exact : AmountLaws where
  numbers _ := exists_value_iff
  run _ _ _ := Stepping.trace_eq_iff Step.apply_eq_iff
  fails _ _ := Step.exists_error_iff
  written a := ⟨_, _, a.isWritten_toText⟩
  read := natural?_toText
  given := number64?_toText
  distinct _ _ hne h := hne (toText_injective h)

/-- Two of the four steps fail: five less seven is no amount, nor are so many CCD in millionths. -/
theorem amounts_of_four_steps :
    trace ⟨5⟩ [.sub 7, .add 1500000, .ofCcd 18446744073710, .sub 5] =
        [.error (.amountOverflow (.difference 5 7)), .ok ⟨1500005⟩,
          .error (.amountOverflow (.conversion 18446744073710)), .ok ⟨1500000⟩] ∧
      (⟨1500000⟩ : Amount) ≠ ⟨1500005⟩ ∧ toText ⟨1500000⟩ ≠ toText ⟨1500005⟩ := by
  have hne : (⟨1500000⟩ : Amount) ≠ ⟨1500005⟩ := by decide
  refine ⟨(amounts_exact.run _ _ _).mpr ?_, hne, amounts_exact.distinct _ _ hne⟩
  refine .fault (.fails ?_ rfl) (.step (.fits rfl) (.fault (.fails ?_ rfl) (.step (.fits rfl) ?_)))
  · simp only [IsAmount, Step.result, value]
    decide
  · simp only [IsAmount, Step.result]
    decide
  · exact .done

end AccountTx.Amount
