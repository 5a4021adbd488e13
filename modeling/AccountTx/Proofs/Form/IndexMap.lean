import AccountTx.Proofs.Form.Order
import AccountTx.Proofs.Form.Value
import AccountTx.Proofs.SlotMap.Repeats

/-!
Maps by index as documents. Any object whose names are indices and whose members can be read is a
map; its members may stand in any order, and where an index is repeated the last member counts. The
document of a map tells the same as that of its entries in any other order.
-/

namespace AccountTx

open Json (sorted)

/-- Types of which a document that is no value has the wrong shape. -/
class ShapeOnly (α : Type) [JsonForm α] : Prop where
  eq_shape {j : Json} {e : FormError} : (ofJson j : Except FormError α) = .error e → e = .shape

instance : ShapeOnly String where
  eq_shape {j e} h := by cases j <;> cases h <;> rfl

namespace IndexMap

variable {α β γ : Type} [JsonForm α]

/-! ### Reading -/

theorem exists_ofMembers_iff {m : IndexMap α} {members : List (String × Json)} :
    (∃ n, ofMembers m members = .ok n) ↔
      ∀ e ∈ members, (∃ k : UInt8, toString k = e.1) ∧ ∃ a : α, ofJson e.2 = .ok a := by
  induction members generalizing m with
  | nil => simp [ofMembers]
  | cons e members ih =>
      obtain ⟨name, j⟩ := e
      rw [List.forall_mem_cons, ofMembers]
      cases hname : index? name.toList with
      | none =>
          refine iff_of_false (by simp) ?_
          rintro ⟨⟨⟨k, rfl⟩, -⟩, -⟩
          rw [index?_toString] at hname
          cases hname
      | some k =>
          have hk : toString k = name :=
            String.toList_injective (index?_eq_some_iff.mp hname).symm
          simp only [except_bind_eq_ok_iff]
          constructor
          · rintro ⟨n, a, ha, hn⟩
            exact ⟨⟨⟨k, hk⟩, a, ha⟩, ih.mp ⟨n, hn⟩⟩
          · rintro ⟨⟨-, a, ha⟩, hrest⟩
            obtain ⟨n, hn⟩ := ih.mpr hrest
            exact ⟨n, a, ha, hn⟩

theorem exists_ofJson_iff {j : Json} :
    (∃ m : IndexMap α, ofJson j = .ok m) ↔ ∃ members, j = .object members ∧
      ∀ e ∈ members, (∃ k : UInt8, toString k = e.1) ∧ ∃ a : α, ofJson e.2 = .ok a := by
  cases j with
  | object members =>
      refine exists_ofMembers_iff.trans ?_
      simp [List.mem_mergeSort]
  | _ => simp [ofJson]

theorem ofMembers_eq_shape [ShapeOnly α] {m : IndexMap α} {members : List (String × Json)}
    {e : FormError} (h : ofMembers m members = .error e) : e = .shape := by
  induction members generalizing m with
  | nil => cases h
  | cons member members ih =>
      rw [ofMembers] at h
      split at h
      next k hk =>
        rcases except_bind_eq_error_iff.mp h with h | ⟨a, -, h⟩
        · exact ShapeOnly.eq_shape h
        · exact ih h
      next => cases h; rfl

instance [ShapeOnly α] : ShapeOnly (IndexMap α) where
  eq_shape {j e} h := by
    cases j with
    | object members => exact ofMembers_eq_shape h
    | _ => cases h; rfl

/-! ### Documents of entries -/

/-- The document of entries, in their order and with all repeats. -/
def document (doc : β → Json) (es : List (UInt8 × β)) : Json :=
  .object (es.map fun e => (toString e.1, doc e.2))

theorem document_inj {doc : β → Json} (hdoc : Function.Injective doc) {es es' : List (UInt8 × β)} :
    document doc es = document doc es' ↔ es = es' := by
  have hmember : Function.Injective fun e : UInt8 × β => (toString e.1, doc e.2) := by
    intro e e' h
    rw [Prod.mk.injEq] at h
    exact Prod.ext (toString_byte_inj h.1) (hdoc h.2)
  rw [document, document, JsonOf.object.injEq, hmember.list_map.eq_iff]

theorem lookup_reverse_map_toString (es : List (UInt8 × β)) (k : UInt8) :
    (es.map fun e => (toString e.1, e.2)).reverse.lookup (toString k) = es.reverse.lookup k := by
  rw [← List.map_reverse]
  induction es.reverse with
  | nil => rfl
  | cons e es ih =>
      rw [List.map_cons, List.lookup_cons, List.lookup_cons, ih]
      have hkey : (toString k == toString e.1) = (k == e.1) := by
        rw [Bool.eq_iff_iff, beq_iff_eq, beq_iff_eq]
        exact ⟨toString_byte_inj, congrArg toString⟩
      rw [hkey]

/-- The order of the names leaves the last entry of an index where it was, behind the others. -/
theorem insertAll_mergeSort (es : List (UInt8 × β)) :
    insertAll (es.mergeSort fun a b => decide (toString a.1 ≤ toString b.1)) empty =
      insertAll es empty := by
  have hsort : (es.mergeSort fun a b => decide (toString a.1 ≤ toString b.1)).map
      (fun e => (toString e.1, e.2)) =
        (es.map fun e => (toString e.1, e.2)).mergeSort fun a b => decide (a.1 ≤ b.1) :=
    List.map_mergeSort fun _ _ _ _ => rfl
  refine ext_get? fun k => ?_
  rw [get?_insertAll_empty, get?_insertAll_empty, ← lookup_reverse_map_toString, hsort,
    Json.lookup_mergeSort, lookup_reverse_map_toString]

/-- A document of entries is read as the map that they fill one after the other. -/
theorem ofJson_document {doc : β → Json} {value : β → α} (h : ∀ b, ofJson (doc b) = .ok (value b))
    (es : List (UInt8 × β)) :
    ofJson (document doc es) = .ok (insertAll (es.map fun e => (e.1, value e.2)) empty) := by
  let byName (e e' : UInt8 × β) : Bool := decide (toString e.1 ≤ toString e'.1)
  have hmembers : (es.mergeSort byName).map (fun e => (toString e.1, doc e.2)) =
      (es.map fun e => (toString e.1, doc e.2)).mergeSort fun a b => decide (a.1 ≤ b.1) :=
    List.map_mergeSort fun _ _ _ _ => rfl
  have hvalues : (es.mergeSort byName).map (fun e => (e.1, value e.2)) =
      (es.map fun e => (e.1, value e.2)).mergeSort
        fun a b => decide (toString a.1 ≤ toString b.1) :=
    List.map_mergeSort fun _ _ _ _ => rfl
  calc ofJson (document doc es)
      = ofMembers empty ((es.mergeSort byName).map fun e => (toString e.1, doc e.2)) := by
        rw [hmembers]
        rfl
    _ = .ok (insertAll (es.map fun e => (e.1, value e.2)) empty) := by
        rw [ofMembers_map h, hvalues, insertAll_mergeSort]

/-- The documents of a map are those of entries whose documents can be read. -/
theorem exists_ofJson_iff_document {doc : β → Json}
    (hdoc : ∀ j, (∃ a : α, ofJson j = .ok a) ↔ ∃ b, doc b = j) {j : Json} :
    (∃ m : IndexMap α, ofJson j = .ok m) ↔ ∃ es, document doc es = j := by
  rw [exists_ofJson_iff]
  simp only [hdoc]
  constructor
  · rintro ⟨members, rfl, hmembers⟩
    have hentry : ∀ e ∈ members, ∃ x : UInt8 × β, e = (toString x.1, doc x.2) := by
      intro e he
      obtain ⟨⟨k, hk⟩, b, hb⟩ := hmembers e he
      exact ⟨(k, b), Prod.ext hk.symm hb.symm⟩
    obtain ⟨es, hes⟩ := exists_forall₂_iff.mpr hentry
    refine ⟨es, congrArg JsonOf.object ?_⟩
    rw [← List.forall₂_eq_eq_eq, List.forall₂_map_left_iff]
    exact hes.flip.imp fun _ _ h => h.symm
  · rintro ⟨es, rfl⟩
    refine ⟨_, rfl, fun e he => ?_⟩
    obtain ⟨x, -, rfl⟩ := List.mem_map.mp he
    exact ⟨⟨x.1, rfl⟩, x.2, rfl⟩

/-! ### The order of the names -/

theorem sorted_document (doc : β → Json) (es : List (UInt8 × β)) :
    sorted (document doc es) = .object ((es.map fun e => (toString e.1, sorted (doc e.2))).mergeSort
      fun a b => decide (a.1 ≤ b.1)) := by
  rw [document, sorted, Json.sortedMembers_eq, List.map_map]
  rfl

/-- Entries in another order make the same document in the order of the names. -/
theorem sorted_document_of_perm (doc : β → Json) {es es' : List (UInt8 × β)} (h : es.Perm es')
    (hnodup : (es.map (·.1)).Nodup) : sorted (document doc es) = sorted (document doc es') := by
  rw [sorted_document, sorted_document]
  have hnames : ((es.map (·.1)).map fun k : UInt8 => toString k).Nodup :=
    hnodup.map fun _ _ => toString_byte_inj
  refine congrArg JsonOf.object (Json.mergeSort_eq_of_perm (h.map _) ?_)
  rwa [List.map_map] at hnames ⊢

/-- Sorting goes through to the documents of the values. -/
theorem sorted_document_congr {doc : β → Json} {doc' : γ → Json} {f : β → γ} {es : List (UInt8 × β)}
    (h : ∀ e ∈ es, sorted (doc e.2) = sorted (doc' (f e.2))) :
    sorted (document doc es) = sorted (document doc' (es.map fun e => (e.1, f e.2))) := by
  have hmembers : (es.map fun e => (toString e.1, sorted (doc e.2))) =
      es.map fun e => (toString e.1, sorted (doc' (f e.2))) :=
    List.map_congr_left fun e he => by rw [h e he]
  rw [sorted_document, sorted_document, List.map_map, hmembers]
  rfl

end IndexMap

/-! ### Going through a map -/

/-- The error of a result that is one. -/
def error? {ε α : Type} : Except ε α → Option ε
  | .error e => some e
  | .ok _ => none

theorem error?_eq_some_iff {ε α : Type} {x : Except ε α} {e : ε} :
    error? x = some e ↔ x = .error e := by
  cases x <;> simp [error?]

theorem error?_eq_none_iff {ε α : Type} {x : Except ε α} :
    error? x = none ↔ ∃ a, x = .ok a := by
  cases x <;> simp [error?]

namespace IndexMap

variable {ε α β γ : Type}

theorem error?_traverseEntries (f : α → Except ε β) (es : List (UInt8 × α)) :
    error? (traverseEntries f es) = es.findSome? fun e => error? (f e.2) := by
  induction es with
  | nil => rfl
  | cons e es ih =>
      rw [List.findSome?_cons, traverseEntries, ← ih]
      cases f e.2 with
      | error cause => rfl
      | ok v => cases traverseEntries f es <;> rfl

/-- Going through a map fails as the first of its values does. -/
theorem error?_traverse (f : α → Except ε β) (m : IndexMap α) :
    error? (traverse f m) = m.entries.findSome? fun e => error? (f e.2) := by
  rw [← error?_traverseEntries, traverse]
  cases traverseEntries f m.entries <;> rfl

theorem error?_traverse_traverse (f : α → Except ε β) (m : SlotMap α) :
    error? (traverse (traverse f) m) = SlotMap.search (fun _ _ v => error? (f v)) m := by
  rw [error?_traverse, SlotMap.search]
  simp only [error?_traverse]

/-- Where a function gives the values that look like its arguments, so does going through a map. -/
theorem traverse_eq_ok_iff_map {f : α → Except ε β} {g : α → γ} {h : β → γ}
    (hf : ∀ a b, f a = .ok b ↔ g a = h b) (m : IndexMap α) (n : IndexMap β) :
    traverse f m = .ok n ↔ m.map g = n.map h := by
  rw [traverse_eq_ok_iff, IndexMap.ext_iff, entries_map, entries_map, ← List.forall₂_eq_eq_eq,
    List.forall₂_map_left_iff, List.forall₂_map_right_iff]
  simp only [hf, Prod.mk.injEq, eq_comm]

end IndexMap

end AccountTx
