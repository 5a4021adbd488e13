import AccountTx.Json.Parse
import AccountTx.Proofs.Json.Scanning

/-!
A document is read back from its text. The tokens of the text are those of the document, the stack
of open arrays and objects is left as it was found by each value, and the spellings stand for the
texts that they were made of. Numbers that are no integers are left out: the program writes none.
-/

namespace AccountTx.Json

mutual

/-- All numbers of a document are integers. -/
def IsExact : Json → Prop
  | .number n => ∃ i, n = .integer i
  | .array items => AreExact items
  | .object members => MembersExact members
  | _ => True

def AreExact : List Json → Prop
  | [] => True
  | j :: js => IsExact j ∧ AreExact js

def MembersExact : List (String × Json) → Prop
  | [] => True
  | (_, j) :: js => IsExact j ∧ MembersExact js

end

theorem membersExact_iff {members : List (String × Json)} :
    MembersExact members ↔ ∀ m ∈ members, IsExact m.2 := by
  induction members with
  | nil => simp [MembersExact]
  | cons m members ih => simp [MembersExact, ih]

mutual

/-- A document with its strings as they are spelled. -/
def spelled : Json → Document
  | .null => .null
  | .bool b => .bool b
  | .number n => .number n
  | .string s => .string (Spelling.ofText s)
  | .array items => .array (spelledItems items)
  | .object members => .object (spelledMembers members)

def spelledItems : List Json → List Document
  | [] => []
  | j :: js => spelled j :: spelledItems js

def spelledMembers : List (String × Json) → List (Spelling × Document)
  | [] => []
  | (name, j) :: js => (Spelling.ofText name, spelled j) :: spelledMembers js

end

mutual

/-- The tokens of a document as it is spelled. -/
def tokens : Document → List Token
  | .null => [.null]
  | .bool b => [.bool b]
  | .number n => [.number n]
  | .string s => [.string s]
  | .array items => .openArray :: ([Token.comma].intercalate (itemTokens items) ++ [.closeArray])
  | .object members =>
      .openObject :: ([Token.comma].intercalate (memberTokens members) ++ [.closeObject])

def itemTokens : List Document → List (List Token)
  | [] => []
  | d :: ds => tokens d :: itemTokens ds

def memberTokens : List (Spelling × Document) → List (List Token)
  | [] => []
  | (key, d) :: ds => (.string key :: .colon :: tokens d) :: memberTokens ds

end

/-! ### The tokens of a text -/

open Token

mutual

theorem scans_compact : (j : Json) → IsExact j → Scans (compact j).toList (tokens (spelled j))
  | .null, _ => scans_null
  | .bool true, _ => scans_true
  | .bool false, _ => scans_false
  | .number n, ⟨i, hi⟩ => by
      subst hi
      exact scans_integer i
  | .string s, _ => scans_string s
  | .array items, h => by
      have hitems := Scans.intercalate [] (by simp) (scans_items items h)
      have hall := (hitems.append_cons (c := ']') rfl .nil).cons (c := '[') rfl
      simpa [compact, spelled, tokens, String.toList_intercalate] using hall
  | .object members, h => by
      have hmembers := Scans.intercalate [] (by simp) (scans_members members h)
      have hall := (hmembers.append_cons (c := '\x7d') rfl .nil).cons (c := '\x7b') rfl
      simpa [compact, spelled, tokens, String.toList_intercalate] using hall

theorem scans_items : (js : List Json) → AreExact js →
    List.Forall₂ Scans ((compactItems js).map String.toList) (itemTokens (spelledItems js))
  | [], _ => .nil
  | j :: js, ⟨hj, hjs⟩ => .cons (scans_compact j hj) (scans_items js hjs)

theorem scans_members : (js : List (String × Json)) → MembersExact js →
    List.Forall₂ Scans ((compactMembers js).map String.toList) (memberTokens (spelledMembers js))
  | [], _ => .nil
  | (name, j) :: js, ⟨hj, hjs⟩ => by
      refine .cons ?_ (scans_members js hjs)
      have hall := (scans_string name).append_cons (c := ':') rfl (scans_compact j hj)
      simpa using hall

end

/-! ### The document of the tokens -/

theorem intercalate_cons (t : Token) (ts : List Token) (tss : List (List Token)) :
    [t].intercalate (ts :: tss) = ts ++ tss.flatMap (t :: ·) := by
  induction tss generalizing ts with
  | nil => simp
  | cons ts' tss ih => simp [ih]

theorem ofTokens?_firstItem (stack : List Frame) (d : Document) (ts : List Token) :
    ofTokens? stack .firstItem (tokens d ++ ts) =
      ofTokens? (.items [] :: stack) .value (tokens d ++ ts) := by
  cases d <;> rfl

mutual

/-- A value leaves the stack as it was. -/
theorem ofTokens?_tokens : (d : Document) → (stack : List Frame) → (ts : List Token) →
    ofTokens? stack .value (tokens d ++ ts) = ofTokens? stack (.next d) ts
  | .null, _, _ => rfl
  | .bool _, _, _ => rfl
  | .number _, _, _ => rfl
  | .string _, _, _ => rfl
  | .array [], _, _ => rfl
  | .array (d :: ds), stack, ts => by
      have hrest := ofTokens?_items ds [] d stack ts
      rw [tokens, itemTokens, intercalate_cons, List.cons_append, List.append_assoc,
        List.append_assoc, List.singleton_append]
      calc ofTokens? stack .firstItem (tokens d ++ _)
          = ofTokens? (.items [] :: stack) .value (tokens d ++ _) := ofTokens?_firstItem ..
        _ = ofTokens? (.items [] :: stack) (.next d) _ := ofTokens?_tokens d _ _
        _ = _ := hrest
  | .object [], _, _ => rfl
  | .object ((key, d) :: ds), stack, ts => by
      have hrest := ofTokens?_members ds [] key d stack ts
      rw [tokens, memberTokens, intercalate_cons, List.cons_append, List.append_assoc,
        List.append_assoc, List.singleton_append]
      calc ofTokens? stack (.firstKey []) (.string key :: .colon :: (tokens d ++ _))
          = ofTokens? (.members [] key :: stack) .value (tokens d ++ _) := rfl
        _ = ofTokens? (.members [] key :: stack) (.next d) _ := ofTokens?_tokens d _ _
        _ = _ := hrest

/-- The other items of an array, after an item `v`. -/
theorem ofTokens?_items : (ds done : List Document) → (v : Document) → (stack : List Frame) →
    (ts : List Token) →
    ofTokens? (.items done :: stack) (.next v)
        ((itemTokens ds).flatMap (.comma :: ·) ++ .closeArray :: ts) =
      ofTokens? stack (.next (.array (done.reverse ++ v :: ds))) ts
  | [], done, v, stack, ts => by
      rw [← List.reverse_cons]
      rfl
  | d :: ds, done, v, stack, ts => by
      have hrest := ofTokens?_items ds (v :: done) d stack ts
      rw [List.reverse_cons, List.append_assoc, List.singleton_append] at hrest
      rw [itemTokens, List.flatMap_cons, List.cons_append, List.cons_append, List.append_assoc]
      calc ofTokens? (.items done :: stack) (.next v) (.comma :: (tokens d ++ _))
          = ofTokens? (.items (v :: done) :: stack) .value (tokens d ++ _) := rfl
        _ = ofTokens? (.items (v :: done) :: stack) (.next d) _ := ofTokens?_tokens d _ _
        _ = _ := hrest

/-- The other members of an object, after a member with the value `v`. -/
theorem ofTokens?_members : (ds done : List (Spelling × Document)) → (key : Spelling) →
    (v : Document) → (stack : List Frame) → (ts : List Token) →
    ofTokens? (.members done key :: stack) (.next v)
        ((memberTokens ds).flatMap (.comma :: ·) ++ .closeObject :: ts) =
      ofTokens? stack (.next (.object (done.reverse ++ (key, v) :: ds))) ts
  | [], done, key, v, stack, ts => by
      rw [← List.reverse_cons]
      rfl
  | (key', d) :: ds, done, key, v, stack, ts => by
      have hrest := ofTokens?_members ds ((key, v) :: done) key' d stack ts
      rw [List.reverse_cons, List.append_assoc, List.singleton_append] at hrest
      rw [memberTokens, List.flatMap_cons, List.cons_append, List.cons_append, List.cons_append,
        List.cons_append, List.append_assoc]
      calc ofTokens? (.members done key :: stack) (.next v)
            (.comma :: .string key' :: .colon :: (tokens d ++ _))
          = ofTokens? (.members ((key, v) :: done) key' :: stack) .value (tokens d ++ _) := rfl
        _ = ofTokens? (.members ((key, v) :: done) key' :: stack) (.next d) _ :=
          ofTokens?_tokens d _ _
        _ = _ := hrest

end

/-! ### The texts of the spellings -/

mutual

theorem ofDocument_spelled : (j : Json) → ofDocument (spelled j) = some j
  | .null => rfl
  | .bool _ => rfl
  | .number _ => rfl
  | .string s => by rw [spelled, ofDocument, Spelling.text?_ofText]; rfl
  | .array items => by rw [spelled, ofDocument, ofItems_spelled]; rfl
  | .object members => by rw [spelled, ofDocument, ofMembers_spelled]; rfl

theorem ofItems_spelled : (js : List Json) → ofItems (spelledItems js) = some js
  | [] => rfl
  | j :: js => by rw [spelledItems, ofItems, ofDocument_spelled, ofItems_spelled]; rfl

theorem ofMembers_spelled : (js : List (String × Json)) → ofMembers (spelledMembers js) = some js
  | [] => rfl
  | (name, j) :: js => by
      rw [spelledMembers, ofMembers, Spelling.text?_ofText, ofDocument_spelled, ofMembers_spelled]
      rfl

end

/-- A text with the tokens of a document is read with the strings as they are spelled in it. -/
theorem parseDocument_of_scans {text : String} {j : Json}
    (h : Scans text.toList (tokens (spelled j))) : parseDocument text = some (spelled j) := by
  have hscan := h [] [] delimited_nil
  have hread := ofTokens?_tokens (spelled j) [] []
  rw [List.append_nil] at hscan hread
  have htokens : Token.scan .between [] text.toList = some (tokens (spelled j)) := by
    rw [hscan, List.append_nil]
    exact congrArg some (List.reverse_reverse _)
  rw [parseDocument, htokens, Option.bind_some, hread]
  rfl

theorem parse_of_scans {text : String} {j : Json} (h : Scans text.toList (tokens (spelled j))) :
    parse text = some j := by
  rw [parse, parseDocument_of_scans h, Option.bind_some, ofDocument_spelled]

/-- What is written for a document is read as the document. -/
theorem parse_compact {j : Json} (h : IsExact j) : parse (compact j) = some j :=
  parse_of_scans (scans_compact j h)

end AccountTx.Json
