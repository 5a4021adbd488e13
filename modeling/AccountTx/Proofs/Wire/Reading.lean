import AccountTx.Wire.Reader

/-!
What the readers accept. For each of them there is one equivalence: it gives a value and a rest
exactly when the input is what is written for the value, followed by the rest. A record is then
read by rewriting with the equivalences of its fields, in either direction.
-/

namespace AccountTx

namespace Reader

variable {ε α β : Type} {bytes rest : Bytes}

/-! ### Sequencing -/

theorem pure_eq_ok_iff {a b : α} :
    (pure a : StateT Bytes (Except ε) α) bytes = .ok (b, rest) ↔ b = a ∧ bytes = rest := by
  show Except.ok (a, bytes) = Except.ok (b, rest) ↔ _
  rw [Except.ok.injEq, Prod.mk.injEq, eq_comm (a := a)]

theorem bind_eq_ok_iff {read : StateT Bytes (Except ε) α} {next : α → StateT Bytes (Except ε) β}
    {b : β} :
    (read >>= next) bytes = .ok (b, rest) ↔
      ∃ a mid, read bytes = .ok (a, mid) ∧ next a mid = .ok (b, rest) := by
  show (read bytes >>= fun s => next s.1 s.2) = Except.ok (b, rest) ↔ _
  cases hread : read bytes with
  | error e => simp [bind, Except.bind]
  | ok s =>
      show next s.1 s.2 = .ok (b, rest) ↔ _
      constructor
      · exact fun h => ⟨s.1, s.2, rfl, h⟩
      · rintro ⟨a, mid, heq, h⟩
        cases heq
        exact h

theorem bind_eq_error_iff {read : StateT Bytes (Except ε) α}
    {next : α → StateT Bytes (Except ε) β} {e : ε} :
    (read >>= next) bytes = .error e ↔
      read bytes = .error e ∨ ∃ a mid, read bytes = .ok (a, mid) ∧ next a mid = .error e := by
  show (read bytes >>= fun s => next s.1 s.2) = Except.error e ↔ _
  cases hread : read bytes with
  | error e' => simp [bind, Except.bind]
  | ok s =>
      show next s.1 s.2 = .error e ↔ _
      constructor
      · exact fun h => .inr ⟨s.1, s.2, rfl, h⟩
      · rintro (heq | ⟨a, mid, heq, h⟩)
        · cases heq
        · cases heq
          exact h

theorem fail_ne_ok {e : DecodeError} {a : α} : ¬ (fail e : Reader α) bytes = .ok (a, rest) := by
  simp [fail]

theorem check_eq_ok_iff {value : Except ValueError α} {a : α} :
    check value bytes = .ok (a, rest) ↔ value = .ok a ∧ bytes = rest := by
  cases value <;> simp [check]

theorem lift_eq_ok_iff {value : Except DecodeError α} {a : α} :
    (liftM value : Reader α) bytes = .ok (a, rest) ↔ value = .ok a ∧ bytes = rest := by
  show (value >>= fun a => pure (a, bytes)) = .ok (a, rest) ↔ _
  cases value <;> simp [bind, Except.bind, pure, Except.pure]

theorem complete_eq_ok_iff {what : String} {read : Reader α} {a : α} :
    complete what read bytes = .ok a ↔ read bytes = .ok (a, []) := by
  unfold complete
  cases hread : read bytes with
  | error e => simp
  | ok s =>
      obtain ⟨b, rest⟩ := s
      cases rest <;> simp

/-- Bytes from which a value is read with any rest behind them tell where they end. -/
theorem append_inj_of_read {read : Reader α} {written : α → Bytes}
    (hread : ∀ a rest, read (written a ++ rest) = .ok (a, rest)) {a a' : α} {rest' : Bytes} :
    written a ++ rest = written a' ++ rest' ↔ a = a' ∧ rest = rest' := by
  constructor
  · intro h
    have hsame :
        Except.ok (a, rest) = (Except.ok (a', rest') : Except DecodeError (α × Bytes)) := by
      rw [← hread, ← hread, h]
    exact Prod.mk.inj (Except.ok.inj hsame)
  · rintro ⟨rfl, rfl⟩
    rfl

/-! ### Fields -/

/-- The front of the input, if there are as many bytes. -/
theorem front_eq_ok_iff {n : Nat} {e : ε} {value : FixedBytes n} :
    (if h : hasAtLeast n bytes = true then
        Except.ok (⟨bytes.take n, length_take_of_hasAtLeast h⟩, bytes.drop n)
      else .error e) = .ok (value, rest) ↔ bytes = value.toList ++ rest := by
  split
  next h =>
    constructor
    · intro heq
      rw [Except.ok.injEq, Prod.mk.injEq] at heq
      rw [← heq.1, ← heq.2, List.take_append_drop]
    · rintro rfl
      rw [Except.ok.injEq, Prod.mk.injEq]
      exact ⟨FixedBytes.ext (List.take_left' value.length_eq), List.drop_left' value.length_eq⟩
  next h =>
    have hshort : ¬ n ≤ bytes.length := mt hasAtLeast_iff.mpr h
    constructor
    · simp
    · rintro rfl
      rw [List.length_append, value.length_eq] at hshort
      omega

theorem fixed_eq_ok_iff {field : String} {n : Nat} {value : FixedBytes n} :
    fixed field n bytes = .ok (value, rest) ↔ bytes = value.toList ++ rest :=
  front_eq_ok_iff

theorem byte_eq_ok_iff {field : String} {b : UInt8} :
    byte field bytes = .ok (b, rest) ↔ bytes = b :: rest := by
  cases bytes <;> simp [byte]

theorem number_eq_ok_iff {field : String} {width n : Nat} :
    number field width bytes = .ok (n, rest) ↔
      n < Nat.pow 256 width ∧ bytes = BigEndian.ofNat width n ++ rest := by
  unfold number
  simp only [bind_eq_ok_iff, pure_eq_ok_iff, fixed_eq_ok_iff]
  constructor
  · rintro ⟨value, mid, rfl, rfl, rfl⟩
    have hlt := BigEndian.toNat_lt value.toList
    have hwritten := BigEndian.ofNat_toNat value.toList
    rw [value.length_eq] at hlt hwritten
    exact ⟨hlt, by rw [hwritten]⟩
  · rintro ⟨hlt, rfl⟩
    exact ⟨⟨BigEndian.ofNat width n, BigEndian.length_ofNat width n⟩, rest, rfl,
      (BigEndian.toNat_ofNat_of_lt hlt).symm, rfl⟩

theorem word_eq_ok_iff {field : String} {w : UInt64} :
    word field bytes = .ok (w, rest) ↔ bytes = BigEndian.ofNat 8 w.toNat ++ rest := by
  unfold word
  simp only [bind_eq_ok_iff, pure_eq_ok_iff, number_eq_ok_iff]
  constructor
  · rintro ⟨n, mid, ⟨hlt, rfl⟩, rfl, rfl⟩
    rw [UInt64.toNat_ofNat_of_lt' hlt]
  · rintro rfl
    exact ⟨w.toNat, rest, ⟨w.toNat_lt, rfl⟩, UInt64.ofNat_toNat.symm, rfl⟩

theorem counted_eq_ok_iff {field : String} {value : Bytes} :
    counted field bytes = .ok (value, rest) ↔
      value.length < 65536 ∧ bytes = BigEndian.ofNat 2 value.length ++ value ++ rest := by
  unfold counted
  simp only [bind_eq_ok_iff, pure_eq_ok_iff, number_eq_ok_iff, fixed_eq_ok_iff]
  constructor
  · rintro ⟨n, mid, ⟨hlt, rfl⟩, part, mid, rfl, rfl, rfl⟩
    rw [part.length_eq, List.append_assoc]
    exact ⟨hlt, rfl⟩
  · rintro ⟨hlt, rfl⟩
    exact ⟨value.length, value ++ rest, ⟨hlt, List.append_assoc ..⟩, ⟨value, rfl⟩, rest, rfl, rfl,
      rfl⟩

theorem all_eq_ok_iff {value : Bytes} :
    all bytes = .ok (value, rest) ↔ bytes = value ∧ rest = [] := by
  show Except.ok (bytes, []) = Except.ok (value, rest) ↔ _
  rw [Except.ok.injEq, Prod.mk.injEq, eq_comm (a := rest)]

end Reader

end AccountTx
