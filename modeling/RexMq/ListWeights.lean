import Mathlib

/-!
# Weights of the places of a list

The entries of a list are the states of numbered tasks. Each state has a
weight; one task changes its state at a time, and the total changes with it.
-/

set_option autoImplicit false

namespace RexMq.ListWeights

variable {α : Type*} (f : α → ℕ)

theorem sum_set (l : List α) (i : ℕ) (a b : α) (h : l[i]? = some b) :
    ((l.set i a).map f).sum+f b = (l.map f).sum+f a := by
  induction l generalizing i with
  | nil => cases h
  | cons c l ih =>
    cases i with
    | zero =>
      cases h
      simp only [List.set_cons_zero, List.map_cons, List.sum_cons]
      omega
    | succ i =>
      have hi := ih i h
      simp only [List.set_cons_succ, List.map_cons, List.sum_cons]
      omega

theorem sum_range_getElem (l : List α) :
    ∑ i ∈ Finset.range l.length, (l[i]?.map f).getD 0 = (l.map f).sum := by
  induction l with
  | nil => rfl
  | cons a l ih =>
    rw [List.length_cons, Finset.sum_range_succ', List.map_cons, List.sum_cons]
    simp only [List.getElem?_cons_succ, List.getElem?_cons_zero]
    rw [ih]
    exact Nat.add_comm _ _

theorem length_le_sum (l : List α) (is : List ℕ) (hn : is.Nodup)
    (his : ∀ i ∈ is, ∃ a, l[i]? = some a ∧ 1 ≤ f a) : is.length ≤ (l.map f).sum := by
  rw [← sum_range_getElem, ← List.toFinset_card_of_nodup hn, Finset.card_eq_sum_ones]
  refine (Finset.sum_le_sum fun i hi => ?_).trans (Finset.sum_le_sum_of_subset fun i hi => ?_)
  · obtain ⟨a, ha, hf⟩ := his i (List.mem_toFinset.mp hi)
    rw [ha]
    exact hf
  · obtain ⟨a, ha, -⟩ := his i (List.mem_toFinset.mp hi)
    exact Finset.mem_range.mpr (List.getElem?_eq_some_iff.mp ha).1

end RexMq.ListWeights
