import AccountTx.Proofs.Wire.Reading

/-!
Readers that go through their input from the front. More bytes behind it do not change their answer,
unless the answer was that the input ends too early. So what is read as a whole is missed where it
is cut, at whichever byte, and noticed where something follows it.
-/

namespace AccountTx

/-- The bytes end within a field, which needs more of them than remain. -/
def DecodeError.IsEarlyEnd (e : DecodeError) : Prop :=
  ∃ field needed remaining, e = .unexpectedEnd field needed remaining ∧ remaining < needed

namespace Reader

variable {α β : Type}

/-- More bytes are left behind what was read, and change no error but that of an early end. -/
structure Stable (read : Reader α) : Prop where
  ok : ∀ {bytes rest : Bytes} {a : α} (more : Bytes), read bytes = .ok (a, rest) →
    read (bytes ++ more) = .ok (a, rest ++ more)
  error : ∀ {bytes : Bytes} {e : DecodeError} (more : Bytes), read bytes = .error e →
    e.IsEarlyEnd ∨ read (bytes ++ more) = .error e

/-! ### Readers of fields -/

theorem stable_pure (a : α) : Stable (pure a) where
  ok more h := by
    cases h
    rfl
  error more h := by cases h

theorem stable_fail (e : DecodeError) : Stable (fail e : Reader α) where
  ok more h := by cases h
  error more h := .inr h

theorem stable_check (value : Except ValueError α) : Stable (check value) where
  ok more h := by
    cases value <;> cases h
    rfl
  error more h := by
    cases value <;> cases h
    exact .inr rfl

theorem stable_byte (field : String) : Stable (byte field) where
  ok {bytes _ _} more h := by
    cases bytes <;> cases h
    rfl
  error {bytes _} more h := by
    cases bytes <;> cases h
    exact .inl ⟨field, 1, 0, rfl, Nat.zero_lt_one⟩

theorem stable_fixed (field : String) (n : Nat) : Stable (fixed field n) where
  ok {bytes rest value} more h := by
    rw [fixed_eq_ok_iff] at h ⊢
    rw [h, List.append_assoc]
  error {bytes e} more h := by
    unfold fixed at h
    split at h
    · cases h
    next hshort =>
      cases h
      rw [hasAtLeast_iff, Nat.not_le] at hshort
      exact .inl ⟨field, n, bytes.length, rfl, hshort⟩

/-! ### Sequencing -/

/-- One stable reader after the other is stable: if the first one asks for more bytes so do both,
and otherwise the second starts from the same rest with more bytes behind it. -/
theorem Stable.bind {read : Reader α} {next : α → Reader β} (hread : Stable read)
    (hnext : ∀ a, Stable (next a)) : Stable (read >>= next) where
  ok more h := by
    rw [bind_eq_ok_iff] at h ⊢
    obtain ⟨a, mid, hfirst, hsecond⟩ := h
    exact ⟨a, mid ++ more, hread.ok more hfirst, (hnext a).ok more hsecond⟩
  error {bytes e} more h := by
    rw [bind_eq_error_iff] at h ⊢
    rcases h with hfirst | ⟨a, mid, hfirst, hsecond⟩
    · exact (hread.error more hfirst).imp_right .inl
    · refine ((hnext a).error more hsecond).imp_right fun hsecond' => ?_
      exact .inr ⟨a, mid ++ more, hread.ok more hfirst, hsecond'⟩

theorem Stable.dite {p : Prop} [Decidable p] {read : p → Reader α} {read' : ¬ p → Reader α}
    (h : ∀ hp, Stable (read hp)) (h' : ∀ hp, Stable (read' hp)) :
    Stable (if hp : p then read hp else read' hp) := by
  split
  · exact h _
  · exact h' _

theorem stable_number (field : String) (width : Nat) : Stable (number field width) :=
  (stable_fixed field width).bind fun _ => stable_pure _

theorem stable_word (field : String) : Stable (word field) :=
  (stable_number field 8).bind fun _ => stable_pure _

theorem stable_counted (field : String) : Stable (counted field) :=
  (stable_number field 2).bind fun length =>
    (stable_fixed field length).bind fun _ => stable_pure _

/-! ### Cut and extended input -/

/-- A reader asks for more bytes where fewer are left than it took before. -/
theorem Stable.isEarlyEnd_of_cut {read : Reader α} (h : Stable read) {bytes rest cut : Bytes}
    {a : α} (hread : read bytes = .ok (a, rest)) (hcut : cut <+: bytes)
    (hshort : cut.length + rest.length < bytes.length) :
    ∃ e, read cut = .error e ∧ e.IsEarlyEnd := by
  obtain ⟨more, rfl⟩ := hcut
  cases hanswer : read cut with
  | ok answer =>
      -- with the bytes that were cut off it would have left all of them
      have hwhole := h.ok more hanswer
      rw [hread] at hwhole
      cases hwhole
      rw [List.length_append, List.length_append] at hshort
      omega
  | error e =>
      rcases h.error more hanswer with hearly | hwhole
      · exact ⟨e, rfl, hearly⟩
      · rw [hread] at hwhole
        cases hwhole

/-- The bytes are refused if some are missing at their end, because of those, and if others follow,
because of these. -/
structure Delimited (decode : Bytes → Except DecodeError α) (what : String) (written : Bytes) :
    Prop where
  cut : ∀ bytes, bytes <+: written → bytes ≠ written →
    ∃ e, decode bytes = .error e ∧ e.IsEarlyEnd
  extended : ∀ more, more ≠ [] → decode (written ++ more) = .error (.trailingBytes what more.length)

theorem Stable.delimited {read : Reader α} (h : Stable read) {what : String} {written : Bytes}
    {a : α} (hread : read written = .ok (a, [])) :
    Delimited (complete what read) what written where
  cut bytes hcut hne := by
    have hshort : bytes.length < written.length :=
      Nat.lt_of_le_of_ne hcut.length_le fun heq => hne (hcut.eq_of_length heq)
    obtain ⟨e, hanswer, hearly⟩ := h.isEarlyEnd_of_cut hread hcut hshort
    refine ⟨e, ?_, hearly⟩
    rw [complete, hanswer]
  extended more hne := by
    have hanswer : read (written ++ more) = .ok (a, more) := h.ok more hread
    obtain ⟨b, more, rfl⟩ := List.exists_cons_of_ne_nil hne
    rw [complete, hanswer]

end Reader

end AccountTx
