import Mathlib.Data.List.TakeDrop
import Mathlib.Data.List.TakeWhile
import AccountTx.Json.Print
import AccountTx.Proofs.Text.Decimal

/-!
What is written for strings and integers is read as these. A string is spelled character by
character, and each spelling is one part that stands for the character; an integer is spelled
without a leading zero.
-/

namespace AccountTx.Json

/-! ### Strings -/

namespace Spelling

/-- The ways to spell a character. -/
inductive Spells (c : Char) : Spelling → Prop where
  | letter {l : Char} : simpleEscape? l = some c → Spells c ['\\', l]
  | code : c.toNat < 0x20 →
      Spells c ['\\', 'u', '0', '0', hexDigit (c.toNat / 16), hexDigit (c.toNat % 16)]
  | plain : c ≠ '"' → c ≠ '\\' → 0x20 ≤ c.toNat → Spells c [c]

theorem spells_spell (c : Char) : Spells c (spell c) := by
  unfold spell
  split
  next h => exact .letter (by rw [h]; rfl)
  next hquote =>
    split
    next h => exact .letter (by rw [h]; rfl)
    next hbackslash =>
      split
      next h => exact .letter (by rw [h]; rfl)
      split
      next h => exact .letter (by rw [h]; rfl)
      split
      next h => exact .letter (by rw [h]; rfl)
      split
      next h => exact .letter (by rw [h]; rfl)
      split
      next h => exact .letter (by rw [h]; rfl)
      split
      next hcontrol => exact .code hcontrol
      next hvisible => exact .plain hquote hbackslash (Nat.le_of_not_lt hvisible)

theorem code?_hexDigit : ∀ n < 32,
    code? '0' '0' (hexDigit (n / 16)) (hexDigit (n % 16)) = some n := by
  decide

/-- A spelling of a character is one part that stands for it. -/
theorem Spells.exists_part {c : Char} {s : Spelling} (h : Spells c s) : ∃ p,
    (∀ done cs, parts done (s ++ cs) = parts (p :: done) cs) ∧
    ∀ done ps, join done (p :: ps) = join (c :: done) ps := by
  cases h with
  | letter hletter =>
      refine ⟨.char c, fun done cs => ?_, fun _ _ => rfl⟩
      unfold simpleEscape? at hletter
      split at hletter <;> cases hletter <;> rfl
  | code hcontrol =>
      refine ⟨.code c.toNat, fun done cs => ?_, fun done ps => ?_⟩
      · simp only [List.cons_append, List.nil_append]
        rw [parts, code?_hexDigit c.toNat hcontrol]
      · have hlow : c.toNat < 0xD800 ∨ 0xDFFF < c.toNat := .inl (by omega)
        rw [join.eq_def]
        simp only [if_pos hlow, Char.ofNat_toNat]
  | plain hquote hbackslash hvisible =>
      refine ⟨.char c, fun done cs => ?_, fun _ _ => rfl⟩
      have hcontrol : ¬ c.toNat < 0x20 := Nat.not_lt.mpr hvisible
      rw [List.singleton_append, parts.eq_def]
      split
      next heq => cases heq
      next heq => exact absurd (List.cons.inj heq).1 hbackslash
      next heq => exact absurd (List.cons.inj heq).1 hbackslash
      next heq => exact absurd (List.cons.inj heq).1 hbackslash
      next heq =>
        cases heq
        exact if_neg hcontrol

theorem exists_parts (cs : List Char) (done : List Part) : ∃ ps,
    parts done (cs.flatMap spell) = some (done.reverse ++ ps) ∧
    ∀ before, join before ps = some (before.reverse ++ cs) := by
  induction cs generalizing done with
  | nil => exact ⟨[], by simp [parts], fun before => by simp [join]⟩
  | cons c cs ih =>
      obtain ⟨p, hparts, hjoin⟩ := (spells_spell c).exists_part
      obtain ⟨ps, hps, hcs⟩ := ih (p :: done)
      refine ⟨p :: ps, ?_, fun before => ?_⟩
      · rw [List.flatMap_cons, hparts, hps]
        simp
      · rw [hjoin, hcs]
        simp

/-- A text as it is spelled between the quotes. -/
def ofText (text : String) : Spelling := text.toList.flatMap spell

@[simp] theorem text?_ofText (text : String) : (ofText text).text? = some text := by
  obtain ⟨ps, hparts, hjoin⟩ := exists_parts text.toList []
  rw [text?, ofText, hparts]
  simp [hjoin]

theorem ne_of_isDigit {c d : Char} (h : c.isDigit = true) (hd : d.isDigit = false) : c ≠ d := by
  rintro rfl
  rw [h] at hd
  cases hd

theorem spell_of_isDigit {c : Char} (h : c.isDigit = true) : spell c = [c] := by
  have hvisible : ¬ c.toNat < 0x20 := by
    have hle : 48 ≤ c.toNat := by
      have hrange : '0' ≤ c ∧ c ≤ '9' := by simpa [Char.isDigit, Char.le_def] using h
      exact hrange.1
    omega
  simp [spell, ne_of_isDigit h, hvisible]

theorem flatMap_spell_of_digits {cs : List Char} (h : ∀ c ∈ cs, c.isDigit = true) :
    cs.flatMap spell = cs := by
  induction cs with
  | nil => rfl
  | cons c cs ih =>
      rw [List.flatMap_cons, spell_of_isDigit (h c List.mem_cons_self),
        ih fun d hd => h d (List.mem_cons_of_mem c hd)]
      rfl

/-- Digits stand for themselves. -/
theorem text?_toString (k : UInt8) : text? (toString k).toList = some (toString k) := by
  have hdigits : ∀ c ∈ (toString k).toList, c.isDigit = true := by
    rw [toList_toString_byte]
    exact fun c hc => Nat.isDigit_of_mem_toDigits (by decide) (by decide) hc
  have hspell := text?_ofText (toString k)
  rwa [ofText, flatMap_spell_of_digits hdigits] at hspell

theorem isWellFormed_ofText (text : String) : (ofText text).isWellFormed = true := by
  obtain ⟨ps, hparts, -⟩ := exists_parts text.toList []
  rw [isWellFormed, ofText, hparts]
  rfl

end Spelling

/-! ### Integers -/

theorem head?_toDigits_ne_zero {n : Nat} (h : 0 < n) : (Nat.toDigits 10 n).head? ≠ some '0' := by
  induction n using Nat.strongRecOn with
  | ind n ih =>
      by_cases hsmall : n < 10
      · have hdigit : ∀ m < 10, 0 < m → [m.digitChar].head? ≠ some '0' := by decide
        rw [Nat.toDigits_of_lt_base hsmall]
        exact hdigit n hsmall h
      · have hfirst := ih (n / 10) (by omega) (by omega)
        rw [Nat.toDigits_of_base_le (by decide) (Nat.le_of_not_lt hsmall), List.head?_append]
        cases hdigits : Nat.toDigits 10 (n / 10) with
        | nil => exact absurd hdigits Nat.toDigits_ne_nil
        | cons c cs =>
            rw [hdigits] at hfirst
            exact hfirst

theorem isDigit_of_mem_toDigits {n : Nat} : ∀ c ∈ Nat.toDigits 10 n, c.isDigit = true :=
  fun _ hc => Nat.isDigit_of_mem_toDigits (by decide) (by decide) hc

theorem spanDigits_toDigits (n : Nat) :
    spanDigits (Nat.toDigits 10 n) = (Nat.toDigits 10 n, []) := by
  rw [spanDigits, List.span_eq_takeWhile_dropWhile,
    List.takeWhile_eq_self_iff.mpr isDigit_of_mem_toDigits,
    List.dropWhile_eq_nil_iff.mpr isDigit_of_mem_toDigits]

/-- No number but zero has a leading zero. -/
theorem leading_toDigits (n : Nat) :
    (Nat.toDigits 10 n).head? = some '0' → (Nat.toDigits 10 n).length = 1 := by
  rcases Nat.eq_zero_or_pos n with rfl | hpos
  · exact fun _ => rfl
  · exact fun hzero => absurd hzero (head?_toDigits_ne_zero hpos)

theorem numeral?_toDigits (n : Nat) : numeral? (Nat.toDigits 10 n) = some (.integer n) := by
  have hsign : (Nat.toDigits 10 n).head? ≠ some '-' := by
    intro h
    have hdigit := isDigit_of_mem_toDigits '-' (List.mem_of_head? h)
    cases hdigit
  rw [numeral?]
  simp [hsign, spanDigits_toDigits, Nat.toDigits_ne_nil, isNumberTail, isExponent,
    digitsValue_toDigits]
  exact leading_toDigits n

theorem numeral?_minus_toDigits {n : Nat} (h : 0 < n) :
    numeral? ('-' :: Nat.toDigits 10 n) = some (.integer (-n)) := by
  have hzero : Nat.toDigits 10 n ≠ ['0'] := fun heq =>
    head?_toDigits_ne_zero h (by rw [heq]; rfl)
  rw [numeral?]
  simp [hzero, spanDigits_toDigits, Nat.toDigits_ne_nil, isNumberTail, isExponent,
    digitsValue_toDigits]
  exact leading_toDigits n

theorem numeral?_toString (n : Int) : numeral? (toString n).toList = some (.integer n) := by
  cases n with
  | ofNat n =>
      have htext : (toString (Int.ofNat n)).toList = Nat.toDigits 10 n := toList_toString_nat n
      rw [htext, numeral?_toDigits]
      rfl
  | negSucc n =>
      have htext : toString (Int.negSucc n) = "-" ++ toString (n + 1) := rfl
      rw [htext, String.toList_append, toList_toString_nat]
      exact numeral?_minus_toDigits n.succ_pos

end AccountTx.Json
