import AccountTx.Json.Print
import AccountTx.Proofs.Json.RoundTrip

/-!
A document that is laid out on lines is read back as well: what the lines add to its text are spaces
between the tokens, and before a closing bracket.
-/

namespace AccountTx.Json

open Token

/-- The text of an array or object from the tokens of its lines. -/
theorem scans_block {indent opening closing : String} {c d : Char} {first last : Token}
    {lines : List String} {tss : List (List Token)}
    (hindent : ∀ c ∈ indent.toList, isSpace c = true) (hopening : opening.toList = [c])
    (hclosing : closing.toList = [d]) (hfirst : punctuation? c = some first)
    (hlast : punctuation? d = some last) (h : List.Forall₂ Scans (lines.map String.toList) tss) :
    Scans (block indent opening lines closing).toList
      (first :: ([Token.comma].intercalate tss ++ [last])) := by
  have hend : Scans [d] [last] := Scans.nil.cons hlast
  cases lines with
  | nil =>
      cases h
      have hall := hend.cons hfirst
      simpa [block, hopening, hclosing] using hall
  | cons line lines =>
      have hlines := Scans.intercalate ['\n'] (by simp [isSpace]) h
      have hspaces : ∀ c ∈ '\n' :: indent.toList, isSpace c = true :=
        List.forall_mem_cons.mpr ⟨rfl, hindent⟩
      have hclosed := hlines.append (delimits_of_isSpace rfl) (hend.blanks _ hspaces)
      have hall := (hclosed.blanks ['\n'] (by simp [isSpace])).cons hfirst
      simpa [block, hopening, hclosing, String.toList_intercalate] using hall

theorem isSpace_deeper {indent : String} (h : ∀ c ∈ indent.toList, isSpace c = true) :
    ∀ c ∈ (indent ++ "  ").toList, isSpace c = true := by
  intro c hc
  rw [String.toList_append, List.mem_append] at hc
  rcases hc with hc | hc
  · exact h c hc
  · simp at hc
    rw [hc]
    rfl

mutual

theorem scans_prettyAt : (j : Json) → IsExact j → (indent : String) →
    (∀ c ∈ indent.toList, isSpace c = true) →
    Scans (prettyAt indent j).toList (tokens (spelled j))
  | .null, _, _, _ => by
      rw [prettyAt]
      exact scans_null
  | .bool true, _, _, _ => by
      rw [prettyAt]
      exact scans_true
  | .bool false, _, _, _ => by
      rw [prettyAt]
      exact scans_false
  | .number n, ⟨i, hi⟩, _, _ => by
      subst hi
      exact scans_integer i
  | .string s, _, _, _ => scans_string s
  | .array items, h, _, hindent =>
      scans_block hindent rfl rfl rfl rfl (scans_prettyItems items h _ (isSpace_deeper hindent))
  | .object members, h, _, hindent =>
      scans_block hindent rfl rfl rfl rfl (scans_prettyMembers members h _ (isSpace_deeper hindent))

theorem scans_prettyItems : (js : List Json) → AreExact js → (indent : String) →
    (∀ c ∈ indent.toList, isSpace c = true) →
    List.Forall₂ Scans ((prettyItems indent js).map String.toList) (itemTokens (spelledItems js))
  | [], _, _, _ => .nil
  | j :: js, ⟨hj, hjs⟩, indent, hindent => by
      refine .cons ?_ (scans_prettyItems js hjs indent hindent)
      have hitem := (scans_prettyAt j hj indent hindent).blanks _ hindent
      simpa using hitem

theorem scans_prettyMembers : (js : List (String × Json)) → MembersExact js → (indent : String) →
    (∀ c ∈ indent.toList, isSpace c = true) →
    List.Forall₂ Scans ((prettyMembers indent js).map String.toList)
      (memberTokens (spelledMembers js))
  | [], _, _, _ => .nil
  | (name, j) :: js, ⟨hj, hjs⟩, indent, hindent => by
      refine .cons ?_ (scans_prettyMembers js hjs indent hindent)
      have hvalue : Scans (' ' :: (prettyAt indent j).toList) (tokens (spelled j)) :=
        (scans_prettyAt j hj indent hindent).blanks [' '] (by simp [isSpace])
      have hall := ((scans_string name).append_cons (c := ':') rfl hvalue).blanks _ hindent
      simpa using hall

end

/-- What is written for a document on lines is read as the document. -/
theorem parse_pretty {j : Json} (h : IsExact j) : parse (pretty j) = some j :=
  parse_of_scans (scans_prettyAt j h "" (by simp))

end AccountTx.Json
