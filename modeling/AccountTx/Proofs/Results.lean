import Mathlib.Data.List.Forall2

/-!
Results that may be missing or be errors: one after another, and one for each member of a list. The
members of two lists are related one by one, so a result for a whole list exists if there is one for
each member.
-/

namespace AccountTx

theorem except_bind_eq_ok_iff {ε α β : Type} {x : Except ε α} {f : α → Except ε β} {b : β} :
    (x >>= f) = .ok b ↔ ∃ a, x = .ok a ∧ f a = .ok b := by
  cases x <;> simp [bind, Except.bind]

theorem except_bind_eq_error_iff {ε α β : Type} {x : Except ε α} {f : α → Except ε β} {e : ε} :
    (x >>= f) = .error e ↔ x = .error e ∨ ∃ a, x = .ok a ∧ f a = .error e := by
  cases x <;> simp [bind, Except.bind]

theorem mapError_eq_ok_iff {ε ε' α : Type} {f : ε → ε'} {x : Except ε α} {a : α} :
    x.mapError f = .ok a ↔ x = .ok a := by
  cases x <;> simp [Except.mapError]

theorem mapError_eq_error_iff {ε ε' α : Type} {f : ε → ε'} {x : Except ε α} {e' : ε'} :
    x.mapError f = .error e' ↔ ∃ e, x = .error e ∧ f e = e' := by
  cases x <;> simp [Except.mapError]

theorem map_fst_eq_ok_iff {ε α β : Type} {x : Except ε (α × β)} {a : α} :
    x.map (·.1) = .ok a ↔ ∃ b, x = .ok (a, b) := by
  cases x <;> simp [Except.map, Prod.ext_iff]

theorem mapM_eq_some_iff {α β : Type} {f : α → Option β} {as : List α} {bs : List β} :
    as.mapM f = some bs ↔ List.Forall₂ (fun a b => f a = some b) as bs := by
  induction as generalizing bs with
  | nil => cases bs <;> simp
  | cons a as ih =>
      rw [List.mapM_cons]
      cases bs with
      | nil => simp [Option.bind_eq_some_iff]
      | cons b bs => simp [Option.bind_eq_some_iff, ← ih]

/-- Two folds do the same if each step of the first is one of the second, for a related member. -/
theorem foldlM_eq_ok_iff {ε ε' α β σ : Type} {r : α → β → Prop} {f : σ → α → Except ε σ}
    {g : σ → β → Except ε' σ} (h : ∀ s a s', f s a = .ok s' ↔ ∃ b, r a b ∧ g s b = .ok s')
    {as : List α} {s s' : σ} :
    as.foldlM f s = .ok s' ↔ ∃ bs, List.Forall₂ r as bs ∧ bs.foldlM g s = .ok s' := by
  induction as generalizing s with
  | nil => simp [pure, Except.pure]
  | cons a as ih =>
      simp only [List.foldlM_cons, except_bind_eq_ok_iff, h, ih]
      constructor
      · rintro ⟨s₁, ⟨b, hb, hstep⟩, bs, hbs, hrest⟩
        refine ⟨b :: bs, .cons hb hbs, ?_⟩
        rw [List.foldlM_cons, except_bind_eq_ok_iff]
        exact ⟨s₁, hstep, hrest⟩
      · rintro ⟨_, hbs, hsteps⟩
        cases hbs with
        | cons hb hbs =>
            rw [List.foldlM_cons, except_bind_eq_ok_iff] at hsteps
            obtain ⟨s₁, hstep, hrest⟩ := hsteps
            exact ⟨s₁, ⟨_, hb, hstep⟩, _, hbs, hrest⟩

theorem exists_forall₂_iff {α β : Type} {r : α → β → Prop} {as : List α} :
    (∃ bs, List.Forall₂ r as bs) ↔ ∀ a ∈ as, ∃ b, r a b := by
  induction as with
  | nil => simp
  | cons a as ih =>
      rw [List.forall_mem_cons, ← ih]
      constructor
      · rintro ⟨bs, h⟩
        cases h with
        | cons hfirst hrest => exact ⟨⟨_, hfirst⟩, _, hrest⟩
      · rintro ⟨⟨b, hfirst⟩, bs, hrest⟩
        exact ⟨b :: bs, .cons hfirst hrest⟩

theorem mem_iff_of_forall₂ {α β : Type} {r : α → β → Prop} {as : List α} {bs : List β}
    (hunique : ∀ a b b', r a b → r a b' → b = b') (h : List.Forall₂ r as bs) {b : β} :
    b ∈ bs ↔ ∃ a ∈ as, r a b := by
  induction h with
  | nil => simp
  | cons hfirst _ ih =>
      rw [List.mem_cons, ih, List.exists_mem_cons_iff]
      refine or_congr_left ⟨?_, fun h => hunique _ _ _ h hfirst⟩
      rintro rfl
      exact hfirst

end AccountTx
