import AccountTx.Text.Utf8

/-!
UTF-8 and texts of visible ASCII characters. A byte string is read as such a text exactly when it is
what is written for the text: a byte outside ASCII always leads to a character that is not visible,
be it a longer one or the replacement of what is malformed.
-/

namespace AccountTx.Utf8

/-- ASCII without the control characters and the space. -/
def IsVisible (c : Char) : Prop := 0x21 ≤ c.toNat ∧ c.toNat ≤ 0x7E

instance (c : Char) : Decidable (IsVisible c) := inferInstanceAs (Decidable (_ ∧ _))

theorem encodeChar_of_isVisible {c : Char} (h : IsVisible c) :
    String.utf8EncodeChar c = [UInt8.ofNat c.toNat] := by
  have hle : c.toNat ≤ 127 := Nat.le_trans h.2 (by decide)
  simp [String.utf8EncodeChar, hle]

theorem toNat_ofNat_visible {c : Char} (h : IsVisible c) :
    (UInt8.ofNat c.toNat).toNat = c.toNat :=
  UInt8.toNat_ofNat_of_lt' (Nat.lt_of_le_of_lt h.2 (by decide))

theorem toNat_charOfNat {n : Nat} (h : n < 0x80) : (Char.ofNat n).toNat = n := by
  have hvalid : n.isValidChar := .inl (by omega)
  rw [Char.ofNat, dif_pos hvalid]
  rfl

/-- A code that is no character stands for the null character. -/
theorem not_isVisible_ofNat {n : Nat} (h : 0x7F ≤ n) : ¬ IsVisible (Char.ofNat n) := by
  intro hv
  by_cases hvalid : n.isValidChar
  · rw [Char.ofNat, dif_pos hvalid] at hv
    have hle : n ≤ 0x7E := hv.2
    omega
  · rw [Char.ofNat, dif_neg hvalid] at hv
    exact absurd hv (by decide)

/-! ### Reading byte by byte -/

theorem run_append (pending : Option Pending) (done : List Char) (bytes : Bytes) :
    run pending done bytes = done.reverse ++ run pending [] bytes := by
  induction bytes generalizing pending done with
  | nil => simp [run]
  | cons b bytes ih =>
      rw [run, run, ih, ih _ ((step pending b).1.reverse ++ [])]
      simp

theorem run_cons (pending : Option Pending) (b : UInt8) (bytes : Bytes) :
    run pending [] (b :: bytes) = (step pending b).1 ++ run (step pending b).2 [] bytes := by
  rw [run, run_append]
  simp

/-- What is read so far can only become a character beyond ASCII. -/
structure Pending.IsWide (p : Pending) : Prop where
  due_pos : 0 < p.due
  last : p.due = 1 → 2 ≤ p.bits
  next : 2 ≤ p.bits * 64 + (p.low.toNat - 0x80)

theorem start_of_ascii {b : UInt8} (h : b.toNat < 0x80) :
    start b = ([Char.ofNat b.toNat], none) := by
  have hlt : b < 0x80 := UInt8.lt_iff_toNat_lt.mpr h
  rw [start, if_pos hlt]

theorem start_of_not_ascii {b : UInt8} (h : ¬ b.toNat < 0x80) :
    start b = ([replacement], none) ∨ ∃ p, start b = ([], some p) ∧ p.IsWide := by
  have hlt : ¬ b < 0x80 := fun hb => h (UInt8.lt_iff_toNat_lt.mp hb)
  rw [start, if_neg hlt]
  split
  next h2 =>
    have hb : 0xC2 ≤ b.toNat := UInt8.le_iff_toNat_le.mp h2.1
    exact .inr ⟨_, rfl, by simp, by simp; omega, by simp; omega⟩
  next =>
    split
    next h3 =>
      have hb : 0xE0 ≤ b.toNat := UInt8.le_iff_toNat_le.mp h3.1
      refine .inr ⟨_, rfl, by simp, by simp, ?_⟩
      split
      next heq => simp
      next hne =>
        have hne' : b.toNat ≠ 0xE0 := fun heq => hne (UInt8.toNat_inj.mp heq)
        simp
        omega
    next =>
      split
      next h4 =>
        have hb : 0xF0 ≤ b.toNat := UInt8.le_iff_toNat_le.mp h4.1
        refine .inr ⟨_, rfl, by simp, by simp, ?_⟩
        split
        next heq => simp
        next hne =>
          have hne' : b.toNat ≠ 0xF0 := fun heq => hne (UInt8.toNat_inj.mp heq)
          simp
          omega
      next => exact .inl rfl

theorem exists_not_isVisible_of_pending {p : Pending} (hp : p.IsWide) (bytes : Bytes) :
    ∃ c ∈ run (some p) [] bytes, ¬ IsVisible c := by
  induction bytes generalizing p with
  | nil => exact ⟨replacement, by simp [run, finish], by decide⟩
  | cons b bytes ih =>
      rw [run_cons, step]
      split
      next hb =>
        have hlow := UInt8.le_iff_toNat_le.mp hb.1
        have hnext := hp.next
        split
        -- the last byte ends a character beyond ASCII
        next hlast =>
          have hbits := hp.last hlast
          exact ⟨Char.ofNat (p.bits * 64 + (b.toNat - 0x80)), by simp,
            not_isVisible_ofNat (by omega)⟩
        next hmore =>
          have hdue := hp.due_pos
          have hwide : Pending.IsWide
              ⟨p.due - 1, 0x80, 0xBF, p.bits * 64 + (b.toNat - 0x80)⟩ :=
            ⟨by simp; omega, fun _ => by simp; omega, by simp; omega⟩
          simpa using ih hwide
      next => exact ⟨replacement, by simp, by decide⟩

theorem exists_not_isVisible_of_not_ascii {b : UInt8} (h : ¬ b.toNat < 0x80) (bytes : Bytes) :
    ∃ c ∈ run none [] (b :: bytes), ¬ IsVisible c := by
  rw [run_cons, step]
  rcases start_of_not_ascii h with hstart | ⟨p, hstart, hp⟩
  · exact ⟨replacement, by simp [hstart], by decide⟩
  · simpa [hstart] using exists_not_isVisible_of_pending hp bytes

/-! ### Visible texts -/

theorem run_eq_iff_of_isVisible {bytes : Bytes} {cs : List Char} (hcs : ∀ c ∈ cs, IsVisible c) :
    run none [] bytes = cs ↔ bytes = cs.flatMap String.utf8EncodeChar := by
  induction bytes generalizing cs with
  | nil =>
      cases cs with
      | nil => simp [run, finish]
      | cons c cs => simp [run, finish, encodeChar_of_isVisible (hcs c List.mem_cons_self)]
  | cons b bytes ih =>
      by_cases hb : b.toNat < 0x80
      · rw [run_cons, step, start_of_ascii hb]
        cases cs with
        | nil => simp
        | cons c cs =>
            have hc := hcs c List.mem_cons_self
            have hhead : Char.ofNat b.toNat = c ↔ b = UInt8.ofNat c.toNat := by
              constructor
              · rintro rfl
                rw [toNat_charOfNat hb, UInt8.ofNat_toNat]
              · rintro rfl
                rw [toNat_ofNat_visible hc, Char.ofNat_toNat]
            have htail := ih fun c' hc' => hcs c' (List.mem_cons_of_mem _ hc')
            simp [encodeChar_of_isVisible hc, hhead, htail]
      · constructor
        · intro heq
          obtain ⟨c, hc, hnot⟩ := exists_not_isVisible_of_not_ascii hb bytes
          rw [heq] at hc
          exact absurd (hcs c hc) hnot
        · intro heq
          cases cs with
          | nil => simp at heq
          | cons c cs =>
              have hc := hcs c List.mem_cons_self
              rw [List.flatMap_cons, encodeChar_of_isVisible hc] at heq
              obtain ⟨rfl, -⟩ := List.cons.inj heq
              rw [toNat_ofNat_visible hc] at hb
              exact absurd (Nat.lt_of_le_of_lt hc.2 (by decide)) hb

/-- Only what is written for a visible text is read as that text. -/
theorem decodeLossy_eq_iff {bytes : Bytes} {text : String}
    (h : ∀ c ∈ text.toList, IsVisible c) :
    decodeLossy bytes = text ↔ bytes = encode text := by
  rw [encode, ← run_eq_iff_of_isVisible h, decodeLossy]
  constructor
  · rintro rfl
    simp
  · intro heq
    rw [heq, String.ofList_toList]

theorem decode?_encode {text : String} (h : ∀ c ∈ text.toList, IsVisible c) :
    decode? (encode text) = some text := by
  simp only [decode?, (decodeLossy_eq_iff h).mpr rfl, if_true]

theorem encode_of_decode? {bytes : Bytes} {text : String} (h : decode? bytes = some text) :
    encode text = bytes := by
  simp only [decode?] at h
  split at h
  next heq =>
    rw [← Option.some.inj h]
    exact heq
  next => cases h

end AccountTx.Utf8
