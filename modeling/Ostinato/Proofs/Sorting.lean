import Mathlib

/-!
# Stable sorting by a key

Sorting by a key keeps the elements with a given key in their order (`filter_mergeSort_key`), and a list that
ascends by a key is determined by the elements with each key (`eq_of_filter_key_eq`).  So the sorted list is the only
ascending one in which the elements with each key stand in their order (`mergeSort_key_eq`).
-/

namespace Ostinato

variable {α : Type} {key : α → Nat}

private theorem key_trans (a b c : α) (hab : decide (key a ≤ key b) = true) (hbc : decide (key b ≤ key c) = true) :
    decide (key a ≤ key c) = true := by
  rw [decide_eq_true_eq] at hab hbc ⊢
  exact Nat.le_trans hab hbc

private theorem key_total (a b : α) : (decide (key a ≤ key b) || decide (key b ≤ key a)) = true := by
  simpa using Nat.le_total (key a) (key b)

theorem pairwise_mergeSort_key (l : List α) :
    (l.mergeSort fun a b => key a ≤ key b).Pairwise fun a b => key a ≤ key b := by
  simpa using List.pairwise_mergeSort key_trans key_total l

/-- Elements with the same key stay in their order. -/
theorem filter_mergeSort_key (l : List α) (k : Nat) :
    (l.mergeSort fun a b => key a ≤ key b).filter (key · = k) = l.filter (key · = k) := by
  have hsame : (l.filter (key · = k)).Pairwise fun a b => decide (key a ≤ key b) = true := by
    refine List.Pairwise.imp_of_mem ?_ (List.pairwise_of_forall fun _ _ => trivial)
    intro a b ha hb _
    have hka : key a = k := by simpa using (List.mem_filter.1 ha).2
    have hkb : key b = k := by simpa using (List.mem_filter.1 hb).2
    rw [decide_eq_true_eq, hka, hkb]
  have hsublist := (List.sublist_mergeSort key_trans key_total hsame List.filter_sublist).filter (key · = k)
  rw [List.filter_filter] at hsublist
  simp only [Bool.and_self] at hsublist
  have hlength := ((List.mergeSort_perm l fun a b => key a ≤ key b).filter (key · = k)).length_eq
  exact (hsublist.eq_of_length hlength.symm).symm

/-- A list that ascends by a key is determined by its elements with each key. -/
theorem eq_of_filter_key_eq {l m : List α} (hl : l.Pairwise fun a b => key a ≤ key b)
    (hm : m.Pairwise fun a b => key a ≤ key b) (h : ∀ k, l.filter (key · = k) = m.filter (key · = k)) : l = m := by
  induction l generalizing m with
  | nil =>
    rcases m with _ | ⟨b, m⟩
    · rfl
    · have hb := h (key b)
      rw [List.filter_cons_of_pos (by simp)] at hb
      cases hb
  | cons a l ih =>
    rcases m with _ | ⟨b, m⟩
    · have ha := h (key a)
      rw [List.filter_cons_of_pos (by simp)] at ha
      cases ha
    · rw [List.pairwise_cons] at hl hm
      -- each of the two heads has the least key of its list, and its key occurs in the other list
      have hab : key a = key b := by
        have ha : a ∈ (b :: m).filter (key · = key a) := by
          rw [← h, List.filter_cons_of_pos (by simp)]
          exact List.mem_cons_self ..
        have hb : b ∈ (a :: l).filter (key · = key b) := by
          rw [h, List.filter_cons_of_pos (by simp)]
          exact List.mem_cons_self ..
        have hba : key b ≤ key a := by
          rcases List.mem_cons.1 (List.mem_filter.1 ha).1 with rfl | hmem
          · exact Nat.le_refl _
          · exact hm.1 a hmem
        have hab : key a ≤ key b := by
          rcases List.mem_cons.1 (List.mem_filter.1 hb).1 with rfl | hmem
          · exact Nat.le_refl _
          · exact hl.1 b hmem
        exact Nat.le_antisymm hab hba
      have hheads := h (key a)
      rw [List.filter_cons_of_pos (by simp), List.filter_cons_of_pos (by simp [hab])] at hheads
      obtain ⟨rfl, htails⟩ := List.cons.inj hheads
      have htail : l = m := by
        refine ih hl.2 hm.2 fun k => ?_
        by_cases hk : key a = k
        · rw [← hk]
          exact htails
        · have hk' := h k
          rwa [List.filter_cons_of_neg (by simpa using hk), List.filter_cons_of_neg (by simpa using hk)] at hk'
      rw [htail]

/-- Sorting by a key gives the one ascending list with the elements of each key in their order. -/
theorem mergeSort_key_eq {l m : List α} (hm : m.Pairwise fun a b => key a ≤ key b)
    (h : ∀ k, m.filter (key · = k) = l.filter (key · = k)) : (l.mergeSort fun a b => key a ≤ key b) = m :=
  eq_of_filter_key_eq (pairwise_mergeSort_key l) hm fun k => (filter_mergeSort_key l k).trans (h k).symm

end Ostinato
