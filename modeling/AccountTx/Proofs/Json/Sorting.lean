import Mathlib.Data.List.Nodup
import Mathlib.Data.String.Basic
import AccountTx.Json.Print
import AccountTx.Proofs.Json.RoundTrip

/-!
Documents with their members in the order of the names. Members of the same name stay in their
order, so the one that counts is the same, and nothing is lost along a path of names.
-/

namespace AccountTx.Json

section Lookup

variable {α : Type} {name : String} {members : List (String × α)}

theorem lookup_reverse_eq :
    members.reverse.lookup name = ((members.filter fun m => name == m.1).getLast?).map (·.2) := by
  have hlookup (ms : List (String × α)) :
      ms.lookup name = (ms.find? fun m => name == m.1).map (·.2) := by
    induction ms with
    | nil => rfl
    | cons m ms ih =>
        rw [List.lookup_cons, List.find?_cons]
        cases name == m.1
        · exact ih
        · rfl
  rw [hlookup, ← List.head?_filter, List.filter_reverse, List.head?_reverse]

theorem trans_le (a b c : String × α) (hab : decide (a.1 ≤ b.1) = true)
    (hbc : decide (b.1 ≤ c.1) = true) : decide (a.1 ≤ c.1) = true :=
  decide_eq_true (le_trans (of_decide_eq_true hab) (of_decide_eq_true hbc))

theorem total_le (a b : String × α) : (decide (a.1 ≤ b.1) || decide (b.1 ≤ a.1)) = true := by
  simpa using le_total a.1 b.1

/-- Sorting by names leaves the members of one name in their order. -/
theorem filter_mergeSort :
    ((members.mergeSort fun a b => decide (a.1 ≤ b.1)).filter fun m => name == m.1) =
      members.filter fun m => name == m.1 := by
  have hsame : (members.filter fun m => name == m.1).Pairwise
      fun a b => decide (a.1 ≤ b.1) = true := by
    refine List.pairwise_iff_forall_sublist.mpr fun {a b} hab => ?_
    have ha := hab.subset List.mem_cons_self
    have hb := hab.subset (List.mem_cons_of_mem _ List.mem_cons_self)
    have hname := eq_of_beq (List.mem_filter.mp ha).2
    have hname' := eq_of_beq (List.mem_filter.mp hb).2
    simp [← hname, ← hname']
  have hsub := (List.sublist_mergeSort trans_le total_le hsame List.filter_sublist).filter
    fun m => name == m.1
  rw [List.filter_filter] at hsub
  simp only [Bool.and_self] at hsub
  exact (hsub.eq_of_length ((List.mergeSort_perm _ _).filter _).length_eq.symm).symm

theorem lookup_mergeSort :
    (members.mergeSort fun a b => decide (a.1 ≤ b.1)).reverse.lookup name =
      members.reverse.lookup name := by
  rw [lookup_reverse_eq, lookup_reverse_eq, filter_mergeSort]

theorem mergeSort_mergeSort :
    ((members.mergeSort fun a b => decide (a.1 ≤ b.1)).mergeSort fun a b => decide (a.1 ≤ b.1)) =
      members.mergeSort fun a b => decide (a.1 ≤ b.1) :=
  List.mergeSort_of_pairwise (List.pairwise_mergeSort trans_le total_le members)

/-- Members without a repeated name have one order of the names. -/
theorem mergeSort_eq_of_perm {members' : List (String × α)} (h : members.Perm members')
    (hnodup : (members.map (·.1)).Nodup) :
    (members.mergeSort fun a b => decide (a.1 ≤ b.1)) =
      members'.mergeSort fun a b => decide (a.1 ≤ b.1) := by
  have hperm := ((List.mergeSort_perm members fun a b => decide (a.1 ≤ b.1)).trans h).trans
    (List.mergeSort_perm members' fun a b => decide (a.1 ≤ b.1)).symm
  refine hperm.eq_of_pairwise (fun a b ha hb hab hba => ?_)
    (List.pairwise_mergeSort trans_le total_le members)
    (List.pairwise_mergeSort trans_le total_le members')
  have hname : a.1 = b.1 := le_antisymm (of_decide_eq_true hab) (of_decide_eq_true hba)
  exact List.inj_on_of_nodup_map hnodup (List.mem_mergeSort.mp ha)
    (h.mem_iff.mpr (List.mem_mergeSort.mp hb)) hname

end Lookup

theorem sortedMembers_eq (members : List (String × Json)) :
    sortedMembers members = members.map fun m => (m.1, sorted m.2) := by
  induction members with
  | nil => rfl
  | cons m members ih => rw [sortedMembers, ih, List.map_cons]

theorem sortedItems_eq (items : List Json) : sortedItems items = items.map sorted := by
  induction items with
  | nil => rfl
  | cons j items ih => rw [sortedItems, ih, List.map_cons]

/-- The member of a name is the same, sorted itself. -/
theorem member?_sorted (name : String) (members : List (String × Json)) :
    member? name ((sortedMembers members).mergeSort fun a b => decide (a.1 ≤ b.1)) =
      (member? name members).map sorted := by
  rw [member?, lookup_mergeSort, sortedMembers_eq, member?, lookup_reverse_eq, lookup_reverse_eq,
    List.filter_map, List.getLast?_map, Option.map_map, Option.map_map]
  rfl

mutual

theorem isExact_sorted : (j : Json) → IsExact j → IsExact (sorted j)
  | .null, h => h
  | .bool _, h => h
  | .number _, h => h
  | .string _, h => h
  | .array items, h => areExact_sorted items h
  | .object members, h => by
      apply membersExact_iff.mpr
      intro m hm
      exact membersExact_iff.mp (membersExact_sorted members h) m (List.mem_mergeSort.mp hm)

theorem areExact_sorted : (js : List Json) → AreExact js → AreExact (sortedItems js)
  | [], h => h
  | j :: js, ⟨hj, hjs⟩ => ⟨isExact_sorted j hj, areExact_sorted js hjs⟩

theorem membersExact_sorted : (js : List (String × Json)) → MembersExact js →
    MembersExact (sortedMembers js)
  | [], h => h
  | (_, j) :: js, ⟨hj, hjs⟩ => ⟨isExact_sorted j hj, membersExact_sorted js hjs⟩

end

end AccountTx.Json
