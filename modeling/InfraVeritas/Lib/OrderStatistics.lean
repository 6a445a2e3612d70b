import Mathlib.Algebra.Order.Field.Basic
import Mathlib.Data.List.GetD
import Mathlib.Data.List.Sort
import Mathlib.Tactic.Linarith

/-!
# Order statistics of a sorted list

The entry at index `i` of a sorted list of length `n` has at most `i` smaller and at most `n - 1 - i` larger
entries. So any part of the list of more than `i` entries reaches up to it (`exists_getElem_le`), and any part
that leaves out at most `i` entries reaches down to it (`exists_le_getElem`), whatever the other entries are.
The median is thus between entries of any part of more than half the list.
-/

namespace OrderStatistics

section Sorted
variable {α : Type*} [LinearOrder α] {s part : List α}

theorem countP_lt_le (h : s.Pairwise (· ≤ ·)) {i : Nat} (hi : i < s.length) : s.countP (fun x => x < s[i]) ≤ i := by
  have hsplit : s.countP (fun x => x < s[i]) =
      (s.take i).countP (fun x => x < s[i]) + (s.drop i).countP (fun x => x < s[i]) := by
    rw [← List.countP_append, List.take_append_drop]
  have hdrop : (s.drop i).countP (fun x => x < s[i]) = 0 := by
    refine List.countP_eq_zero.2 ?_
    intro x hx
    rw [List.drop_eq_getElem_cons hi] at hx
    have hs := h.drop (i := i)
    rw [List.drop_eq_getElem_cons hi, List.pairwise_cons] at hs
    rcases List.mem_cons.1 hx with rfl | hx
    · simp
    · simpa using hs.1 x hx
  have htake := List.countP_le_length (l := s.take i) (p := fun x => x < s[i])
  rw [List.length_take] at htake
  omega

theorem countP_gt_le (h : s.Pairwise (· ≤ ·)) {i : Nat} (hi : i < s.length) :
    s.countP (fun x => s[i] < x) ≤ s.length - 1 - i := by
  have hsplit : s.countP (fun x => s[i] < x) =
      (s.take (i + 1)).countP (fun x => s[i] < x) + (s.drop (i + 1)).countP (fun x => s[i] < x) := by
    rw [← List.countP_append, List.take_append_drop]
  have htake : (s.take (i + 1)).countP (fun x => s[i] < x) = 0 := by
    refine List.countP_eq_zero.2 ?_
    intro x hx
    have hs := h.take (i := i + 1)
    rw [List.take_succ_eq_append_getElem hi] at hs hx
    rw [List.pairwise_append] at hs
    rcases List.mem_append.1 hx with hx | hx
    · simpa using hs.2.2 x hx s[i] (List.mem_singleton_self _)
    · simp [List.mem_singleton.1 hx]
  have hdrop := List.countP_le_length (l := s.drop (i + 1)) (p := fun x => s[i] < x)
  rw [List.length_drop] at hdrop
  omega

/-- The entries up to a bound are the first ones. -/
theorem getElem_le_iff (h : s.Pairwise (· ≤ ·)) {i : Nat} (hi : i < s.length) (d : α) :
    s[i] ≤ d ↔ i < s.countP (fun x => x ≤ d) := by
  induction s generalizing i with
  | nil => cases hi
  | cons x s ih =>
    rw [List.pairwise_cons] at h
    by_cases hx : x ≤ d
    · rw [List.countP_cons_of_pos (by simpa using hx)]
      cases i with
      | zero => simp [hx]
      | succ i => rw [List.getElem_cons_succ, ih h.2 (Nat.lt_of_succ_lt_succ hi), Nat.succ_lt_succ_iff]
    · have hnone : s.countP (fun x => x ≤ d) = 0 :=
        List.countP_eq_zero.2 fun y hy => by simpa using (not_le.1 hx).trans_le (h.1 y hy)
      rw [List.countP_cons_of_neg (by simpa using hx), hnone]
      cases i with
      | zero => simpa using hx
      | succ i =>
        have hle := h.1 _ (List.getElem_mem (Nat.lt_of_succ_lt_succ hi))
        simpa using (not_le.1 hx).trans_le hle

/-- A part that leaves out at most `i` entries has one that is at most the entry at `i`. -/
theorem exists_le_getElem (h : s.Pairwise (· ≤ ·)) (hpart : part.Subperm s) {i : Nat} (hi : i < s.length)
    (hlen : s.length ≤ part.length + i) : ∃ x ∈ part, x ≤ s[i] := by
  by_contra hne
  have hall : ∀ x ∈ part, s[i] < x := fun x hx => not_le.1 fun hle => hne ⟨x, hx, hle⟩
  have hcount : part.countP (fun x => s[i] < x) = part.length :=
    List.countP_eq_length.2 fun x hx => decide_eq_true (hall x hx)
  have hle := hpart.countP_le fun x => s[i] < x
  have hgt := countP_gt_le h hi
  omega

/-- A part of more than `i` entries has one that is at least the entry at `i`. -/
theorem exists_getElem_le (h : s.Pairwise (· ≤ ·)) (hpart : part.Subperm s) {i : Nat} (hi : i < s.length)
    (hlen : i < part.length) : ∃ x ∈ part, s[i] ≤ x := by
  by_contra hne
  have hall : ∀ x ∈ part, x < s[i] := fun x hx => not_le.1 fun hle => hne ⟨x, hx, hle⟩
  have hcount : part.countP (fun x => x < s[i]) = part.length :=
    List.countP_eq_length.2 fun x hx => decide_eq_true (hall x hx)
  have hle := hpart.countP_le fun x => x < s[i]
  have hlt := countP_lt_le h hi
  omega

end Sorted

section Sorting
variable {α : Type*} [LinearOrder α] {xs ys : List α}

def sort (xs : List α) : List α := xs.mergeSort fun a b => a ≤ b

theorem sort_perm (xs : List α) : (sort xs).Perm xs := List.mergeSort_perm _ _

@[simp] theorem length_sort (xs : List α) : (sort xs).length = xs.length := (sort_perm xs).length_eq

theorem pairwise_sort (xs : List α) : (sort xs).Pairwise (· ≤ ·) := by
  have h : (sort xs).Pairwise fun a b => decide (a ≤ b) = true := List.pairwise_mergeSort
    (fun a b c hab hbc => decide_eq_true ((of_decide_eq_true hab).trans (of_decide_eq_true hbc)))
    (fun a b => by simpa using le_total a b) xs
  exact h.imp of_decide_eq_true

theorem sort_eq_self (h : xs.Pairwise (· ≤ ·)) : sort xs = xs :=
  (sort_perm xs).eq_of_pairwise (fun _ _ _ _ hab hba => le_antisymm hab hba) (pairwise_sort xs) h

theorem sort_eq_of_perm (h : xs.Perm ys) : sort xs = sort ys :=
  (((sort_perm xs).trans h).trans (sort_perm ys).symm).eq_of_pairwise
    (fun _ _ _ _ hab hba => le_antisymm hab hba) (pairwise_sort xs) (pairwise_sort ys)

end Sorting

section Median
variable {K : Type*} [Field K] [LinearOrder K] {xs ys part : List K}

/-- The mean of the two middle entries of the sorted list, which are one if the length is odd. -/
def median (xs : List K) : K :=
  ((sort xs).getD ((xs.length - 1) / 2) 0 + (sort xs).getD (xs.length / 2) 0) / ((2 : Nat) : K)

theorem median_perm (h : xs.Perm ys) : median xs = median ys := by
  rw [median, median, sort_eq_of_perm h, h.length_eq]

theorem median_eq (hi : (xs.length - 1) / 2 < (sort xs).length) (hj : xs.length / 2 < (sort xs).length) :
    median xs = ((sort xs)[(xs.length - 1) / 2] + (sort xs)[xs.length / 2]) / ((2 : Nat) : K) ∧
      (sort xs)[(xs.length - 1) / 2] ≤ (sort xs)[xs.length / 2] := by
  rw [median, List.getD_eq_getElem _ _ hi, List.getD_eq_getElem _ _ hj]
  refine ⟨rfl, ?_⟩
  rcases (show (xs.length - 1) / 2 ≤ xs.length / 2 by omega).eq_or_lt with heq | hlt
  · simp only [heq, le_refl]
  · exact List.pairwise_iff_getElem.1 (pairwise_sort xs) _ _ hi hj hlt

variable [IsStrictOrderedRing K]

/-- A part of more than half the list has an entry that is at most the median. -/
theorem exists_le_median (hpart : part.Subperm xs) (h : xs.length < 2 * part.length) : ∃ x ∈ part, x ≤ median xs := by
  have hp := hpart.length_le
  have hi : (xs.length - 1) / 2 < (sort xs).length := by rw [length_sort]; omega
  have hj : xs.length / 2 < (sort xs).length := by rw [length_sort]; omega
  obtain ⟨x, hx, hle⟩ := exists_le_getElem (pairwise_sort xs) (hpart.trans (sort_perm xs).symm.subperm) hi
    (by rw [length_sort]; omega)
  obtain ⟨hmed, hmid⟩ := median_eq hi hj
  rw [Nat.cast_ofNat] at hmed
  exact ⟨x, hx, by linarith⟩

/-- A part of more than half the list has an entry that is at least the median. -/
theorem exists_median_le (hpart : part.Subperm xs) (h : xs.length < 2 * part.length) : ∃ x ∈ part, median xs ≤ x := by
  have hp := hpart.length_le
  have hi : (xs.length - 1) / 2 < (sort xs).length := by rw [length_sort]; omega
  have hj : xs.length / 2 < (sort xs).length := by rw [length_sort]; omega
  obtain ⟨x, hx, hle⟩ := exists_getElem_le (pairwise_sort xs) (hpart.trans (sort_perm xs).symm.subperm) hj (by omega)
  obtain ⟨hmed, hmid⟩ := median_eq hi hj
  rw [Nat.cast_ofNat] at hmed
  exact ⟨x, hx, by linarith⟩

end Median
end OrderStatistics
