import AccountTx.Form.Payload
import AccountTx.Form.Transaction
import AccountTx.Proofs.Json.Sorting

/-!
The order of the members of a document does not matter: a document is read as the same document in
the order of the names, and if it is refused, for the same reason.
-/

namespace AccountTx

open Json

/-- Types whose documents are read the same when their members are in the order of the names. -/
class OrderFree (α : Type) [JsonForm α] : Prop where
  ofJson_sorted (j : Json) : (ofJson (sorted j) : Except FormError α) = ofJson j

export OrderFree (ofJson_sorted)

/-! ### Single values -/

theorem Json.natBelow?_sorted (bound : Nat) (j : Json) :
    natBelow? bound (sorted j) = natBelow? bound j := by
  cases j <;> rfl

instance : OrderFree UInt64 where
  ofJson_sorted j := by simp only [ofJson, Json.natBelow?_sorted]

instance : OrderFree UInt32 where
  ofJson_sorted j := by simp only [ofJson, Json.natBelow?_sorted]

instance : OrderFree String where
  ofJson_sorted j := by cases j <;> rfl

/-- A type that is read in two steps, the first of which does not look at the order. -/
theorem OrderFree.ofJson_bind {α β : Type} [JsonForm β] [OrderFree β]
    (make : β → Except FormError α) (j : Json) :
    (do make (← ofJson (sorted j))) = (do make (← ofJson j)) := by
  rw [ofJson_sorted]

instance : OrderFree Bytes := ⟨OrderFree.ofJson_bind _⟩

instance {n : Nat} : OrderFree (FixedBytes n) := ⟨OrderFree.ofJson_bind _⟩

instance : OrderFree Address := ⟨OrderFree.ofJson_bind _⟩

instance : OrderFree ModuleRef := ⟨OrderFree.ofJson_bind _⟩

instance : OrderFree TransactionHash := ⟨OrderFree.ofJson_bind _⟩

instance : OrderFree ChainData := ⟨OrderFree.ofJson_bind _⟩

instance : OrderFree Parameter := ⟨OrderFree.ofJson_bind _⟩

instance : OrderFree Amount := ⟨OrderFree.ofJson_bind _⟩

instance : OrderFree Energy := ⟨OrderFree.ofJson_bind _⟩

instance : OrderFree PayloadSize := ⟨OrderFree.ofJson_bind _⟩

instance : OrderFree Nonce := ⟨OrderFree.ofJson_bind _⟩

instance : OrderFree Expiry := ⟨OrderFree.ofJson_bind _⟩

instance : OrderFree InitName := ⟨OrderFree.ofJson_bind _⟩

instance : OrderFree ReceiveName := ⟨OrderFree.ofJson_bind _⟩

/-! ### Records -/

namespace Record

variable {α β : Type} {r : Record α}

/-- All parts are read the same when their documents are sorted. -/
def OrderFree (r : Record α) : Prop :=
  ∀ find, r.parts (fun name => (find name).map sorted) = r.parts find

theorem orderFree_part [JsonForm α] [AccountTx.OrderFree α] (name : String) :
    (part name : Record α).OrderFree := by
  intro find
  simp only [part, field]
  cases find name with
  | none => rfl
  | some j => simp only [Option.map_some, ofJson_sorted]

theorem OrderFree.seq {f : Record (α → β)} (hf : f.OrderFree) (hr : r.OrderFree) :
    (f <*> r).OrderFree := by
  intro find
  simp only [Seq.seq, hf find, hr find]

theorem OrderFree.map (hr : r.OrderFree) (f : α → β) : (f <$> r).OrderFree :=
  OrderFree.seq (f := pure f) (fun _ => rfl) hr

theorem lookup_zip_map {σ τ : Type} (f : σ → τ) (name : String) (names : List String)
    (items : List σ) :
    (names.zip (items.map f)).lookup name = ((names.zip items).lookup name).map f := by
  induction names generalizing items with
  | nil => rfl
  | cons name' names ih =>
      cases items with
      | nil => rfl
      | cons item items =>
          rw [List.map_cons, List.zip_cons_cons, List.zip_cons_cons, List.lookup_cons,
            List.lookup_cons]
          cases name == name'
          · exact ih items
          · rfl

theorem OrderFree.read (hr : r.OrderFree) (j : Json) : r.read (sorted j) = r.read j := by
  cases j with
  | object members =>
      simp only [sorted, Record.read, ofMembers, member?_sorted]
      rw [hr]
  | array items =>
      simp only [sorted, Record.read, ofItems, sortedItems_eq, lookup_zip_map, List.length_map]
      rw [hr]
  | _ => rfl

end Record

open Record

instance : OrderFree ContractAddress :=
  ⟨(((orderFree_part _).map _).seq (orderFree_part _)).read⟩

instance : OrderFree Header :=
  ⟨(((((orderFree_part _).map _).seq (orderFree_part _)).seq (orderFree_part _)).seq
    (orderFree_part _) |>.seq (orderFree_part _)).read⟩

/-! ### Maps -/

namespace IndexMap

variable {α : Type} [JsonForm α] [OrderFree α]

theorem ofMembers_sorted (m : IndexMap α) (members : List (String × Json)) :
    ofMembers m (members.map fun e => (e.1, sorted e.2)) = ofMembers m members := by
  induction members generalizing m with
  | nil => rfl
  | cons e members ih => simp only [List.map_cons, ofMembers, ofJson_sorted, ih]

instance : OrderFree (IndexMap α) where
  ofJson_sorted j := by
    cases j with
    | object members =>
        let sort (ms : List (String × Json)) := ms.mergeSort fun a b => decide (a.1 ≤ b.1)
        let member (e : String × Json) := (e.1, sorted e.2)
        have hmap : sort (members.map member) = (sort members).map member :=
          (List.map_mergeSort (f := member) fun _ _ _ _ => rfl).symm
        calc ofJson (sorted (.object members))
            = ofMembers .empty (sort (sort (sortedMembers members))) := by
              simp only [sorted, ofJson, sort]
          _ = ofMembers .empty (sort (members.map member)) := by
              rw [sortedMembers_eq]
              simp only [sort, mergeSort_mergeSort, member]
          _ = ofMembers .empty (sort members) := by rw [hmap, ofMembers_sorted]
    | _ => rfl

end IndexMap

instance : OrderFree SignatureMap := ⟨OrderFree.ofJson_bind _⟩

/-! ### Kinds -/

instance : OrderFree TransactionType where
  ofJson_sorted j := by
    cases j with
    | object members =>
        match members with
        | [] => simp [sorted, sortedMembers]
        | [(name, k)] => cases k <;> simp [sorted, sortedMembers, ofJson]
        | m :: m' :: ms =>
            -- two members or more stay as many, and are no name
            have hlength : 2 ≤ ((sortedMembers (m :: m' :: ms)).mergeSort
                fun a b => decide (a.1 ≤ b.1)).length := by
              simp [List.length_mergeSort, sortedMembers]
            simp only [sorted, ofJson]
            match h : (sortedMembers (m :: m' :: ms)).mergeSort fun a b => decide (a.1 ≤ b.1) with
            | [] => simp [h] at hlength
            | [e] => simp [h] at hlength
            | (_, k) :: _ :: _ => cases k <;> rfl
    | _ => rfl

namespace Payload

theorem orderFree_record {kind : String} {record : Record Payload}
    (h : record? kind = some record) : record.OrderFree := by
  unfold record? at h
  split at h
  case h_7 => cases h
  all_goals
    cases h
    repeat' first
      | exact (orderFree_part _).map _
      | refine .seq ?_ (orderFree_part _)

instance : OrderFree Payload where
  ofJson_sorted j := by
    have hsplit : split? (sorted j) = (split? j).map fun s => (sorted s.1, sorted s.2) := by
      cases j with
      | object members => simp [split?, sorted, member?_sorted, Function.comp_def]
      | array items => cases items <;> rfl
      | _ => rfl
    simp only [ofJson, hsplit]
    cases split? j with
    | none => rfl
    | some s =>
        obtain ⟨kind, parts⟩ := s
        cases kind with
        | string kind =>
            simp only [Option.map_some, sorted]
            cases hrecord : record? kind with
            | none => rfl
            | some record => exact (orderFree_record hrecord).read parts
        | _ => rfl

end Payload

end AccountTx
