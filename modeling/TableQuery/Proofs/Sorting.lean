import TableQuery.Proofs.Value.Order

/-!
# Sorting by keys

Sorting is lawful as soon as the comparison is an order on the members of the list, and
the comparison of keys is one where no key holds a double.  What is sorted by its keys
keeps the order in which equal keys arrived.
-/

namespace TableQuery

section

variable {α : Type} {le : α → α → Bool} {l : List α}

/-- Sorting goes through the members of the list. -/
theorem mergeSort_eq_map_attach :
    l.mergeSort le =
      (l.attach.mergeSort fun a b => le a.val b.val).map Subtype.val := by
  rw [List.map_mergeSort (s := le) (fun _ _ _ _ => rfl), List.attach_map_subtype_val]

variable (trans : ∀ a ∈ l, ∀ b ∈ l, ∀ c ∈ l, le a b → le b c → le a c)
  (total : ∀ a ∈ l, ∀ b ∈ l, le a b || le b a)

include trans total

/-- A list is in order after sorting if the comparison is an order on its members. -/
theorem pairwise_mergeSort_of_mem : (l.mergeSort le).Pairwise fun a b => le a b := by
  rw [mergeSort_eq_map_attach, List.pairwise_map]
  exact List.pairwise_mergeSort
    (fun a b c => trans a.val a.property b.val b.property c.val c.property)
    (fun a b => total a.val a.property b.val b.property) l.attach

/-- A part of a list that is in order keeps its order when the list is sorted. -/
theorem sublist_mergeSort_of_mem {part : List α} (hpart : part.Sublist l)
    (hsorted : part.Pairwise fun a b => le a b) : part.Sublist (l.mergeSort le) := by
  rw [mergeSort_eq_map_attach]
  rw [← List.attach_map_subtype_val l, List.sublist_map_iff] at hpart
  obtain ⟨inner, hinner, rfl⟩ := hpart
  refine List.Sublist.map _ (List.sublist_mergeSort ?_ ?_ (List.pairwise_map.mp hsorted) hinner)
  · exact fun a b c => trans a.val a.property b.val b.property c.val c.property
  · exact fun a b => total a.val a.property b.val b.property

/-- Sorting keeps the order of members that are all equal in the comparison. -/
theorem filter_mergeSort_of_mem (p : α → Bool)
    (hequal : ∀ a ∈ l, ∀ b ∈ l, p a → p b → le a b) :
    (l.mergeSort le).filter p = l.filter p := by
  have hpart : (l.filter p).Pairwise fun a b => le a b := by
    rw [List.pairwise_filter]
    exact List.pairwise_of_forall_mem_list fun a ha b hb hpa hpb => hequal a ha b hb hpa hpb
  have hsub := (sublist_mergeSort_of_mem trans total List.filter_sublist hpart).filter p
  rw [List.filter_filter] at hsub
  simp only [Bool.and_self] at hsub
  refine (hsub.eq_of_length ?_).symm
  exact ((List.mergeSort_perm l le).filter p).length_eq.symm

end

end TableQuery
