import Mathlib.Algebra.Order.BigOperators.Group.List
import Mathlib.Algebra.Order.Field.Basic
import Mathlib.Tactic.FieldSimp
import Mathlib.Tactic.LinearCombination
import Mathlib.Tactic.Linarith
import Mathlib.Tactic.Positivity
import Mathlib.Tactic.Ring

/-!
# Mean and squared deviations of a list

`mean` and the sum of the squared deviations from it (`sumSq`), over any division ring. Both ignore the order of the
list and a common shift moves only the mean. The squared deviations of two groups taken together are those
within the groups and a term for the distance of their means (`sumSq_append`); they vanish exactly for
constant lists (`sumSq_pos_iff`).
-/

namespace Dispersion

section DivisionRing
variable {K : Type*} [DivisionRing K]

def mean (xs : List K) : K := xs.sum / xs.length

def sumSq (xs : List K) : K := (xs.map fun x => (x - mean xs) ^ 2).sum

theorem mean_perm {xs ys : List K} (h : xs.Perm ys) : mean xs = mean ys := by
  rw [mean, mean, h.sum_eq, h.length_eq]

theorem sumSq_perm {xs ys : List K} (h : xs.Perm ys) : sumSq xs = sumSq ys := by
  rw [sumSq, sumSq, mean_perm h]
  exact (h.map _).sum_eq

end DivisionRing

section Field
variable {K : Type*} [Field K]

theorem sum_map_sq_sub (xs : List K) (c : K) :
    (xs.map fun x => (x - c) ^ 2).sum = (xs.map fun x => x ^ 2).sum - 2 * c * xs.sum + xs.length * c ^ 2 := by
  induction xs with
  | nil => simp
  | cons x xs ih =>
    simp only [List.map_cons, List.sum_cons, ih, List.length_cons, Nat.cast_add, Nat.cast_one]
    ring

variable [CharZero K] {xs ys : List K}

theorem length_ne_zero (h : xs ≠ []) : (xs.length : K) ≠ 0 := Nat.cast_ne_zero.2 (mt List.length_eq_zero_iff.1 h)

theorem sumSq_eq (h : xs ≠ []) : sumSq xs = (xs.map fun x => x ^ 2).sum - xs.sum ^ 2 / xs.length := by
  have hn := length_ne_zero h
  rw [sumSq, sum_map_sq_sub, mean]
  field_simp
  ring

theorem mean_map_add (h : xs ≠ []) (c : K) : mean (xs.map (· + c)) = mean xs + c := by
  have hn := length_ne_zero h
  have hsum : (xs.map (· + c)).sum = xs.sum + xs.length * c := by
    rw [List.sum_map_add, List.map_id', List.map_const', List.sum_replicate, nsmul_eq_mul]
  rw [mean, mean, hsum, List.length_map]
  field_simp

theorem sumSq_map_add (h : xs ≠ []) (c : K) : sumSq (xs.map (· + c)) = sumSq xs := by
  rw [sumSq, sumSq, mean_map_add h, List.map_map]
  congr 1
  refine List.map_congr_left ?_
  intro x _
  rw [Function.comp_apply]
  ring

/-- The squared deviations of two groups: within each, and between their means. -/
theorem sumSq_append (hx : xs ≠ []) (hy : ys ≠ []) :
    sumSq (xs ++ ys) = sumSq xs + sumSq ys +
      xs.length * ys.length / (xs.length + ys.length) * (mean xs - mean ys) ^ 2 := by
  have hm := length_ne_zero hx
  have hn := length_ne_zero hy
  have hmn : (xs.length + ys.length : K) ≠ 0 := by
    rw [← Nat.cast_add]
    exact Nat.cast_ne_zero.2 fun h => hm (by rw [(Nat.add_eq_zero_iff.1 h).1, Nat.cast_zero])
  rw [sumSq_eq (List.append_ne_nil_of_left_ne_nil hx ys), sumSq_eq hx, sumSq_eq hy, mean, mean, List.map_append,
    List.sum_append, List.sum_append, List.length_append, Nat.cast_add]
  field_simp
  ring

end Field

section Ordered
variable {K : Type*} [Field K] [LinearOrder K] [IsStrictOrderedRing K] {xs : List K}

theorem sumSq_nonneg (xs : List K) : 0 ≤ sumSq xs := by
  refine List.sum_nonneg ?_
  intro y hy
  obtain ⟨x, -, rfl⟩ := List.mem_map.1 hy
  exact sq_nonneg _

theorem abs_sum_le {M : K} (h : ∀ x ∈ xs, |x| ≤ M) : |xs.sum| ≤ xs.length * M := by
  induction xs with
  | nil => simp
  | cons x xs ih =>
    have hx := h x List.mem_cons_self
    have hxs := ih fun y hy => h y (List.mem_cons_of_mem x hy)
    rw [List.sum_cons, List.length_cons]
    push_cast
    linarith [abs_add_le x xs.sum]

theorem abs_mean_le {M : K} (hne : xs ≠ []) (h : ∀ x ∈ xs, |x| ≤ M) : |mean xs| ≤ M := by
  have hpos : (0 : K) < xs.length := Nat.cast_pos.2 (List.length_pos_iff.2 hne)
  rw [mean, abs_div, abs_of_pos hpos, div_le_iff₀ hpos, mul_comm]
  exact abs_sum_le h

theorem mean_eq_of_forall {c : K} (hne : xs ≠ []) (h : ∀ x ∈ xs, x = c) : mean xs = c := by
  have hn : (xs.length : K) ≠ 0 := length_ne_zero hne
  have hsum : xs.sum = xs.length * c := by
    rw [List.sum_eq_card_nsmul xs c h, nsmul_eq_mul]
  rw [mean, hsum]
  field_simp

theorem sumSq_eq_zero_iff : sumSq xs = 0 ↔ ∀ x ∈ xs, ∀ y ∈ xs, x = y := by
  constructor
  · intro h
    have hmean (x : K) (hx : x ∈ xs) : x = mean xs := by
      have hsq : (x - mean xs) ^ 2 = 0 := by
        refine le_antisymm ?_ (sq_nonneg _)
        have hle := List.single_le_sum (l := xs.map fun x => (x - mean xs) ^ 2) (fun y hy => by
          obtain ⟨z, -, rfl⟩ := List.mem_map.1 hy
          exact sq_nonneg _) _ (List.mem_map.2 ⟨x, hx, rfl⟩)
        rw [sumSq] at h
        exact h ▸ hle
      exact sub_eq_zero.1 (pow_eq_zero_iff two_ne_zero |>.1 hsq)
    intro x hx y hy
    rw [hmean x hx, hmean y hy]
  · intro h
    rcases xs with _ | ⟨c, xs⟩
    · rfl
    · have hall : ∀ x ∈ c :: xs, x = c := fun x hx => h x hx c List.mem_cons_self
      have hm := mean_eq_of_forall (List.cons_ne_nil c xs) hall
      refine List.sum_eq_zero ?_
      intro y hy
      obtain ⟨x, hx, rfl⟩ := List.mem_map.1 hy
      rw [hm, hall x hx, sub_self, zero_pow two_ne_zero]

theorem sumSq_pos_iff : 0 < sumSq xs ↔ ∃ x ∈ xs, ∃ y ∈ xs, x ≠ y := by
  rw [(sumSq_nonneg xs).lt_iff_ne, ne_comm, ne_eq, sumSq_eq_zero_iff]
  simp only [not_forall, exists_prop, ne_eq]

end Ordered
end Dispersion
