import AccountTx.Proofs.Text.Hex
import AccountTx.Text.Blank

/-!
White space around a text is taken off, and none of it is in hexadecimal digits.
-/

namespace AccountTx.Text

open Hex (IsHexOf)

theorem dropWhile_blanks {blanks cs : List Char} (hblanks : ∀ c ∈ blanks, isBlank c = true)
    (hcs : ∀ c ∈ cs.head?, isBlank c = false) : (blanks ++ cs).dropWhile isBlank = cs := by
  rw [List.dropWhile_append_of_pos hblanks]
  cases cs with
  | nil => rfl
  | cons c cs => rw [List.dropWhile_cons_of_neg (by simp [hcs c rfl])]

theorem trimList_append {before cs after : List Char} (hbefore : ∀ c ∈ before, isBlank c = true)
    (hcs : ∀ c ∈ cs, isBlank c = false) (hafter : ∀ c ∈ after, isBlank c = true) :
    trimList (before ++ cs ++ after) = cs := by
  cases cs with
  | nil =>
      have hall : ∀ c ∈ before ++ after, isBlank c = true :=
        List.forall_mem_append.mpr ⟨hbefore, hafter⟩
      have hnone : (before ++ after ++ []).dropWhile isBlank = [] :=
        dropWhile_blanks hall (by simp)
      rw [List.append_nil] at hnone
      rw [trimList, List.append_nil, hnone]
      rfl
  | cons c cs =>
      have hfront : (before ++ (c :: cs ++ after)).dropWhile isBlank = c :: cs ++ after :=
        dropWhile_blanks hbefore fun d hd => hcs d (by simp_all)
      have hback : (after.reverse ++ (c :: cs).reverse).dropWhile isBlank = (c :: cs).reverse :=
        dropWhile_blanks (fun d hd => hafter d (List.mem_reverse.mp hd)) fun d hd =>
          hcs d (List.mem_reverse.mp (List.mem_of_mem_head? hd))
      rw [trimList, List.append_assoc, hfront, List.reverse_append, hback, List.reverse_reverse]

theorem isBlank_of_isVisible {c : Char} (h : Utf8.IsVisible c) : isBlank c = false := by
  obtain ⟨hlow, hhigh⟩ := h
  simp [isBlank]
  omega

theorem isBlank_of_isHexOf {text : String} {bytes : Bytes} (h : IsHexOf text bytes) :
    ∀ c ∈ text.toList, isBlank c = false := by
  obtain ⟨-, hdigits⟩ := Hex.exists_isHexOf_iff_even.mp ⟨bytes, h⟩
  exact fun c hc => isBlank_of_isVisible (Hex.isVisible_of_mem c (hdigits c hc))

theorem trim_append {before text after : String} {bytes : Bytes} (h : IsHexOf text bytes)
    (hbefore : ∀ c ∈ before.toList, isBlank c = true)
    (hafter : ∀ c ∈ after.toList, isBlank c = true) : trim (before ++ text ++ after) = text := by
  rw [trim, String.toList_append, String.toList_append,
    trimList_append hbefore (isBlank_of_isHexOf h) hafter, String.ofList_toList]

theorem trim_encode {before after : String} (hbefore : ∀ c ∈ before.toList, isBlank c = true)
    (hafter : ∀ c ∈ after.toList, isBlank c = true) (bytes : Bytes) :
    trim (before ++ Hex.encode bytes ++ after) = Hex.encode bytes :=
  trim_append (Hex.decode_eq_ok_iff.mp (Hex.decode_encode bytes)) hbefore hafter

/-- A text without white space around it stays as it is. -/
theorem trim_of_isHexOf {text : String} {bytes : Bytes} (h : IsHexOf text bytes) :
    trim text = text := by
  have htrim : trim ("" ++ text ++ "") = text := trim_append h (by simp) (by simp)
  rwa [String.empty_append, String.append_empty] at htrim

/-! ### What is taken off -/

/-- The text is `inner` with white space around it, and neither end of `inner` is white space. -/
structure Surrounds (text inner : List Char) : Prop where
  blanks : ∃ before after, text = before ++ inner ++ after ∧
    (∀ c ∈ before, isBlank c = true) ∧ ∀ c ∈ after, isBlank c = true
  first : ∀ c ∈ inner.head?, isBlank c = false
  last : ∀ c ∈ inner.getLast?, isBlank c = false

theorem isBlank_of_mem_takeWhile {cs : List Char} {c : Char} (h : c ∈ cs.takeWhile isBlank) :
    isBlank c = true := by
  simpa using List.all_eq_true.mp (List.all_takeWhile (p := isBlank) (l := cs)) c h

theorem isBlank_of_mem_head?_dropWhile {cs : List Char} {c : Char}
    (h : c ∈ (cs.dropWhile isBlank).head?) : isBlank c = false := by
  have hfirst := List.head?_dropWhile_not isBlank cs
  rw [Option.mem_def.mp h] at hfirst
  exact hfirst

theorem surrounds_trimList (cs : List Char) : Surrounds cs (trimList cs) := by
  let front := cs.dropWhile isBlank
  have hfront : front = trimList cs ++ (front.reverse.takeWhile isBlank).reverse := by
    rw [trimList, ← List.reverse_append, List.takeWhile_append_dropWhile, List.reverse_reverse]
  constructor
  · refine ⟨cs.takeWhile isBlank, (front.reverse.takeWhile isBlank).reverse, ?_,
      fun c => isBlank_of_mem_takeWhile, fun c hc => ?_⟩
    · rw [List.append_assoc, ← hfront, List.takeWhile_append_dropWhile]
    · exact isBlank_of_mem_takeWhile (List.mem_reverse.mp hc)
  · intro c hc
    have hhead : c ∈ (cs.dropWhile isBlank).head? := by
      show front.head? = some c
      rw [hfront, List.head?_append, Option.mem_def.mp hc]
      rfl
    exact isBlank_of_mem_head?_dropWhile hhead
  · intro c hc
    rw [trimList, List.getLast?_reverse] at hc
    exact isBlank_of_mem_head?_dropWhile hc

end AccountTx.Text
