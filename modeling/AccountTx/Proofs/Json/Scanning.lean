import Mathlib.Data.List.Forall2
import AccountTx.Json.Token
import AccountTx.Proofs.Json.Spelling

/-!
Which tokens are read in what is written. Numbers and words end where a space, a punctuation mark or
the end of the text follows, and this is what stands after every value that is written, so the
tokens of the parts are read one after the other.
-/

namespace AccountTx.Json.Token

/-- The character is in no number and no word, and a token may begin after it. -/
def Delimits (c : Char) : Prop :=
  (∃ ts, begin? c = some (ts, .between)) ∧ isNumberChar c = false ∧ c.isAlpha = false

/-- The text ends here or goes on with a character that ends a number or a word. -/
def Delimited (cs : List Char) : Prop := ∀ c ∈ cs.head?, Delimits c

/-- From the characters these tokens are read, whatever follows behind a delimiter. -/
def Scans (cs : List Char) (ts : List Token) : Prop :=
  ∀ done rest, Delimited rest →
    scan .between done (cs ++ rest) = scan .between (ts.reverse ++ done) rest

theorem delimited_nil : Delimited [] := by simp [Delimited]

theorem delimited_cons {c : Char} (h : Delimits c) (cs : List Char) : Delimited (c :: cs) := by
  simp [Delimited, h]

/-- The punctuation marks. -/
theorem punctuation?_cases {c : Char} {t : Token} (h : punctuation? c = some t) :
    begin? c = some ([t], .between) ∧ isNumberChar c = false ∧ c.isAlpha = false := by
  unfold punctuation? at h
  split at h <;> cases h <;> exact ⟨rfl, rfl, rfl⟩

theorem delimits_of_punctuation {c : Char} {t : Token} (h : punctuation? c = some t) :
    Delimits c := by
  obtain ⟨hbegin, hchars⟩ := punctuation?_cases h
  exact ⟨⟨_, hbegin⟩, hchars⟩

theorem begin?_of_isSpace {c : Char} (h : isSpace c = true) : begin? c = some ([], .between) := by
  rw [begin?, if_pos h]

theorem delimits_of_isSpace {c : Char} (h : isSpace c = true) : Delimits c := by
  refine ⟨⟨[], begin?_of_isSpace h⟩, ?_⟩
  simp only [isSpace, Bool.or_eq_true, decide_eq_true_eq] at h
  rcases h with ((rfl | rfl) | rfl) | rfl <;> exact ⟨rfl, rfl⟩

theorem scan_punctuation {c : Char} {t : Token} (h : punctuation? c = some t) (done : List Token)
    (cs : List Char) : scan .between done (c :: cs) = scan .between (t :: done) cs := by
  rw [scan, step?, (punctuation?_cases h).1]
  rfl

theorem Scans.nil : Scans [] [] := fun _ _ _ => rfl

theorem Scans.cons {c : Char} {t : Token} {cs : List Char} {ts : List Token}
    (hc : punctuation? c = some t) (h : Scans cs ts) : Scans (c :: cs) (t :: ts) := by
  intro done rest hrest
  rw [List.cons_append, scan_punctuation hc, h _ rest hrest]
  simp

/-- Spaces before a token are passed over. -/
theorem Scans.blanks {cs : List Char} {ts : List Token} (h : Scans cs ts) (blanks : List Char)
    (hblanks : ∀ c ∈ blanks, isSpace c = true) : Scans (blanks ++ cs) ts := by
  intro done rest hrest
  induction blanks with
  | nil => exact h done rest hrest
  | cons c blanks ih =>
      have hbegin := begin?_of_isSpace (hblanks c List.mem_cons_self)
      rw [List.cons_append, List.cons_append, scan, step?, hbegin]
      exact ih fun d hd => hblanks d (List.mem_cons_of_mem c hd)

/-- The tokens of a text and of another that begins with a delimiter. -/
theorem Scans.append {c : Char} {cs cs' : List Char} {ts ts' : List Token} (h : Scans cs ts)
    (hc : Delimits c) (h' : Scans (c :: cs') ts') : Scans (cs ++ c :: cs') (ts ++ ts') := by
  intro done rest hrest
  rw [List.append_assoc, List.cons_append, h _ _ (delimited_cons hc _), ← List.cons_append,
    h' _ rest hrest]
  simp

theorem Scans.append_cons {c : Char} {t : Token} {cs cs' : List Char} {ts ts' : List Token}
    (h : Scans cs ts) (hc : punctuation? c = some t) (h' : Scans cs' ts') :
    Scans (cs ++ c :: cs') (ts ++ t :: ts') :=
  h.append (delimits_of_punctuation hc) (h'.cons hc)

theorem Scans.intercalate (blanks : List Char) (hblanks : ∀ c ∈ blanks, isSpace c = true)
    {css : List (List Char)} {tss : List (List Token)} (h : List.Forall₂ Scans css tss) :
    Scans ((',' :: blanks).intercalate css) ([Token.comma].intercalate tss) := by
  induction h with
  | nil => exact Scans.nil
  | cons hfirst hrest ih =>
      cases hrest with
      | nil => simpa using hfirst
      | cons hsecond hrest =>
          rw [List.intercalate_cons_cons, List.intercalate_cons_cons]
          have hall := hfirst.append_cons (c := ',') rfl (ih.blanks blanks hblanks)
          simpa using hall

/-! ### Numbers and words -/

/-- A number or word is finished by a delimiter, or by the end of the text. -/
theorem scan_close {mode : Mode} {t : Token} {rest : List Char} (hclose : close? mode = some [t])
    (hstep : ∀ c us, begin? c = some (us, .between) → Delimits c →
      step? mode c = some (us ++ [t], .between))
    (hrest : Delimited rest) (done : List Token) :
    scan mode done rest = scan .between (t :: done) rest := by
  cases rest with
  | nil =>
      rw [scan, scan, hclose]
      rfl
  | cons c cs =>
      have hc := hrest c rfl
      obtain ⟨us, hus⟩ := hc.1
      rw [scan, scan, hstep c us hus hc, step?, hus]
      simp

theorem scan_number {n : Numeral} {read rest : List Char} (h : numeral? read.reverse = some n)
    (hrest : Delimited rest) (done : List Token) :
    scan (.inNumber read) done rest = scan .between (.number n :: done) rest := by
  have hclose : close? (.inNumber read) = some [.number n] := by rw [close?, h]; rfl
  refine scan_close hclose (fun c us hbegin hc => ?_) hrest done
  rw [step?, hc.2.1, hclose, hbegin]
  rfl

theorem scan_word {t : Token} {rest : List Char} (read : List Char)
    (h : word? read.reverse = some t) (hrest : Delimited rest) (done : List Token) :
    scan (.inWord read) done rest = scan .between (t :: done) rest := by
  have hclose : close? (.inWord read) = some [t] := by rw [close?, h]; rfl
  refine scan_close hclose (fun c us hbegin hc => ?_) hrest done
  rw [step?, hc.2.2, hclose, hbegin]
  rfl

theorem scans_null : Scans ['n', 'u', 'l', 'l'] [.null] := fun done _ hrest =>
  scan_word ['l', 'l', 'u', 'n'] rfl hrest done

theorem scans_true : Scans ['t', 'r', 'u', 'e'] [.bool true] := fun done _ hrest =>
  scan_word ['e', 'u', 'r', 't'] rfl hrest done

theorem scans_false : Scans ['f', 'a', 'l', 's', 'e'] [.bool false] := fun done _ hrest =>
  scan_word ['e', 's', 'l', 'a', 'f'] rfl hrest done

theorem begin?_of_isDigit {c : Char} (h : c.isDigit = true) :
    begin? c = some ([], .inNumber [c]) := by
  have hspace : isSpace c = false := by simp [isSpace, Spelling.ne_of_isDigit h]
  simp [begin?, hspace, Spelling.ne_of_isDigit h, h]

theorem scan_digits {ds : List Char} (h : ∀ c ∈ ds, c.isDigit = true) (read : List Char)
    (done : List Token) (rest : List Char) :
    scan (.inNumber read) done (ds ++ rest) = scan (.inNumber (ds.reverse ++ read)) done rest := by
  induction ds generalizing read with
  | nil => rfl
  | cons c ds ih =>
      have hnumber : isNumberChar c = true := by simp [isNumberChar, h c List.mem_cons_self]
      rw [List.cons_append, scan, step?, if_pos hnumber]
      have hrest := ih (fun d hd => h d (List.mem_cons_of_mem c hd)) (c :: read)
      simpa using hrest

theorem scans_number {c : Char} {ds : List Char} {n : Numeral}
    (hbegin : begin? c = some ([], .inNumber [c])) (hds : ∀ d ∈ ds, d.isDigit = true)
    (h : numeral? (c :: ds) = some n) : Scans (c :: ds) [.number n] := by
  intro done rest hrest
  have hread : numeral? (ds.reverse ++ [c]).reverse = some n := by simpa using h
  rw [List.cons_append, scan, step?, hbegin]
  exact (scan_digits hds [c] done rest).trans (scan_number hread hrest done)

theorem scans_integer (n : Int) : Scans (toString n).toList [.number (.integer n)] := by
  have hread := numeral?_toString n
  cases n with
  | ofNat n =>
      have htext : (toString (Int.ofNat n)).toList = Nat.toDigits 10 n := toList_toString_nat n
      have hdigits := isDigit_of_mem_toDigits (n := n)
      rw [htext] at hread ⊢
      cases hds : Nat.toDigits 10 n with
      | nil => exact absurd hds Nat.toDigits_ne_nil
      | cons d ds =>
          rw [hds] at hread hdigits
          exact scans_number (begin?_of_isDigit (hdigits d List.mem_cons_self))
            (fun c hc => hdigits c (List.mem_cons_of_mem d hc)) hread
  | negSucc n =>
      have htext : (toString (Int.negSucc n)).toList = '-' :: Nat.toDigits 10 (n + 1) := by
        rw [← toList_toString_nat]
        exact String.toList_append
      rw [htext] at hread ⊢
      exact scans_number rfl isDigit_of_mem_toDigits hread

/-! ### Strings -/

open Spelling in
/-- No spelling of a character ends the string that it stands in. -/
theorem scan_spells {c : Char} {s : Spelling} (h : Spells c s) (read : List Char)
    (done : List Token) (rest : List Char) :
    scan (.inString read) done (s ++ rest) = scan (.inString (s.reverse ++ read)) done rest := by
  cases h with
  | letter hletter => rfl
  | code hcontrol =>
      have hdigit : ∀ n < 16, hexDigit n ≠ '"' ∧ hexDigit n ≠ '\\' := by decide
      obtain ⟨hhigh, hhigh'⟩ := hdigit (c.toNat / 16) (by omega)
      obtain ⟨hlow, hlow'⟩ := hdigit (c.toNat % 16) (by omega)
      simp [scan, step?, hhigh, hhigh', hlow, hlow']
  | plain hquote hbackslash _ => simp [scan, step?, hquote, hbackslash]

theorem scan_ofText (cs read : List Char) (done : List Token) (rest : List Char) :
    scan (.inString read) done (cs.flatMap spell ++ rest) =
      scan (.inString ((cs.flatMap spell).reverse ++ read)) done rest := by
  induction cs generalizing read with
  | nil => rfl
  | cons c cs ih =>
      rw [List.flatMap_cons, List.append_assoc, scan_spells (Spelling.spells_spell c), ih]
      simp

theorem scans_string (text : String) :
    Scans (spellString text).toList [.string (Spelling.ofText text)] := by
  intro done rest _
  have hwell := Spelling.isWellFormed_ofText text
  rw [Spelling.ofText] at hwell ⊢
  have hbegin : begin? '"' = some ([], .inString []) := rfl
  rw [spellString, String.toList_ofList, List.append_assoc, List.cons_append, scan, step?, hbegin]
  simp only [List.nil_append]
  rw [scan_ofText, List.singleton_append, scan, step?, if_pos rfl]
  simp [hwell]

end AccountTx.Json.Token
