import InfraVeritas.Lib.Multilinear
import Mathlib.Algebra.Polynomial.Expand
import Mathlib.Algebra.Polynomial.Roots

/-!
# Folding a polynomial

A polynomial that has a table as its coefficients is folded as the table is: `B` is the fold of `A` at `u` if
`2 X B(X²) = X (1 - u) (A(X) + A(-X)) + u (A(X) - A(-X))`. A chain of folds that ends in a constant ends in the multilinear
extension of the first table (`eq_mle_of_folds`), and a chain with another constant breaks this equation at all but few
points (`eq_mle_or_card_le`).
-/

namespace Folding
open Polynomial Multilinear

variable {K : Type*} [Field K] {u : K} {A B : K[X]}

/-- 0 if `B` is the fold of `A` at `u`. -/
noncomputable def defect (u : K) (A B : K[X]) : K[X] :=
  C (1 - u) * (X * (A + A.comp (-X))) + C u * (A - A.comp (-X)) - C ((2 : Nat) : K) * (X * expand K 2 B)

theorem eval_defect (u : K) (A B : K[X]) (x : K) : (defect u A B).eval x =
    (1 - u) * (x * (A.eval x + A.eval (-x))) + u * (A.eval x - A.eval (-x)) - 2 * (x * B.eval (x ^ 2)) := by
  simp [defect, expand_eval]

theorem coeff_comp_neg (A : K[X]) (j : Nat) : (A.comp (-X)).coeff j = (-1) ^ j * A.coeff j := by
  have hneg : (-X : K[X]) = C (-1) * X := by simp
  rw [hneg, comp_C_mul_X_coeff, mul_comm]

/-- The odd coefficients of the equation. -/
theorem coeff_defect (u : K) (A B : K[X]) (j : Nat) :
    (defect u A B).coeff (2 * j + 1) = 2 * (fold u A.coeff j - B.coeff j) := by
  have hodd : (-1 : K) ^ (2 * j + 1) = -1 := by simp [pow_succ, pow_mul]
  have heven : (-1 : K) ^ (2 * j) = 1 := by simp [pow_mul]
  rw [defect, coeff_sub, coeff_add, coeff_C_mul, coeff_C_mul, coeff_C_mul, coeff_X_mul, coeff_X_mul, coeff_add, coeff_sub,
    coeff_comp_neg, coeff_comp_neg, hodd, heven, mul_comm 2 j, coeff_expand_mul two_pos, fold, mul_comm j 2]
  ring

/-- Its even coefficients say nothing. -/
theorem coeff_defect_even (u : K) (A B : K[X]) (j : Nat) : (defect u A B).coeff (2 * j) = 0 := by
  have heven : (-1 : K) ^ (2 * j) = 1 := by simp [pow_mul]
  have hsub : (A - A.comp (-X)).coeff (2 * j) = 0 := by rw [coeff_sub, coeff_comp_neg, heven, one_mul, sub_self]
  have hadd : (X * (A + A.comp (-X))).coeff (2 * j) = 0 := by
    cases j with
    | zero => exact coeff_X_mul_zero _
    | succ j =>
      have hodd : (-1 : K) ^ (2 * j + 1) = -1 := by simp [pow_succ, pow_mul]
      have hsucc : 2 * (j + 1) = 2 * j + 1 + 1 := rfl
      rw [hsucc, coeff_X_mul, coeff_add, coeff_comp_neg, hodd]
      ring
  have hexpand : (X * expand K 2 B).coeff (2 * j) = 0 := by
    cases j with
    | zero => exact coeff_X_mul_zero _
    | succ j =>
      have hsucc : 2 * (j + 1) = 2 * j + 1 + 1 := rfl
      rw [hsucc, coeff_X_mul, coeff_expand two_pos, if_neg (by omega)]
  rw [defect, coeff_sub, coeff_add, coeff_C_mul, coeff_C_mul, coeff_C_mul, hsub, hadd, hexpand]
  ring

theorem defect_eq_zero_iff (h2 : (2 : K) ≠ 0) : defect u A B = 0 ↔ B.coeff = fold u A.coeff := by
  constructor
  · intro h
    funext j
    have hj := coeff_defect u A B j
    rw [h, coeff_zero, eq_comm, mul_eq_zero, or_iff_right h2, sub_eq_zero] at hj
    exact hj.symm
  · intro h
    ext j
    rcases Nat.even_or_odd' j with ⟨k, rfl | rfl⟩
    · rw [coeff_defect_even, coeff_zero]
    · rw [coeff_defect, h, sub_self, mul_zero, coeff_zero]

theorem natDegree_defect_le {D : Nat} (hA : A.natDegree ≤ D) (hB : B.natDegree ≤ D) :
    (defect u A B).natDegree ≤ 2 * D + 1 := by
  have hneg : (A.comp (-X)).natDegree ≤ D := by
    refine natDegree_comp_le.trans ?_
    rw [natDegree_neg, natDegree_X, mul_one]
    exact hA
  have hX (q : K[X]) {d : Nat} (hq : q.natDegree ≤ d) : (X * q).natDegree ≤ 1 + d :=
    natDegree_mul_le.trans (Nat.add_le_add natDegree_X_le hq)
  have hexpand : (expand K 2 B).natDegree ≤ 2 * D := by
    rw [natDegree_expand]
    omega
  have hsum := (natDegree_C_mul_le (1 - u) _).trans (hX _ ((natDegree_add_le A (A.comp (-X))).trans (max_le hA hneg)))
  have hdiff := (natDegree_C_mul_le u _).trans ((natDegree_sub_le A (A.comp (-X))).trans (max_le hA hneg))
  have hlast := (natDegree_C_mul_le ((2 : Nat) : K) _).trans (hX _ hexpand)
  refine (natDegree_sub_le _ _).trans (max_le ((natDegree_add_le _ _).trans (max_le ?_ ?_)) ?_)
  · omega
  · omega
  · omega

/-! ### Chains -/

variable {A : Nat → K[X]} {us : List K}

/-- The constant at the end of a chain of folds. -/
theorem eq_mle_of_folds (h2 : (2 : K) ≠ 0) (h : ∀ (i : Nat) (hi : i < us.length), defect us[i] (A i) (A (i + 1)) = 0) :
    (A us.length).coeff 0 = mle us (A 0).coeff := by
  induction us generalizing A with
  | nil => rfl
  | cons u us ih =>
    have hfirst : (A 1).coeff = fold u (A 0).coeff := (defect_eq_zero_iff h2).1 (h 0 (Nat.succ_pos _))
    rw [mle, ← hfirst]
    refine ih (A := fun i => A (i + 1)) ?_
    intro i hi
    exact h (i + 1) (Nat.succ_lt_succ hi)

/-- With `c` added to the first equation over `X`, where the first polynomial has a pole. -/
theorem eq_mle_or_card_le (h2 : (2 : K) ≠ 0) {n D : Nat} (hlen : us.length = n + 1) (hdegree : ∀ i, (A i).natDegree ≤ D)
    (c : K) : (c = 0 ∧ (A us.length).coeff 0 = mle us (A 0).coeff) ∨
    ∃ B : Finset K, B.card ≤ (2 * D + 2) * 2 ^ n ∧ ∀ x ∉ B, ∃ (i : Nat) (hi : i < us.length),
      x * (defect us[i] (A i) (A (i + 1))).eval (x ^ 2 ^ i) + (if i = 0 then c else 0) ≠ 0 := by
  classical
  let q (i : Nat) (hi : i < us.length) : K[X] :=
    X * expand K (2 ^ i) (defect us[i] (A i) (A (i + 1))) + C (if i = 0 then c else 0)
  by_cases h : ∀ (i : Nat) (hi : i < us.length), q i hi = 0
  · have hconst (i : Nat) (hi : i < us.length) : (if i = 0 then c else 0) = 0 := by
      have hcoeff := congrArg (coeff · 0) (h i hi)
      simpa [q] using hcoeff
    refine .inl ⟨hconst 0 (by omega), eq_mle_of_folds h2 ?_⟩
    intro i hi
    have hzero : X * expand K (2 ^ i) (defect us[i] (A i) (A (i + 1))) = 0 := by
      have hq := h i hi
      simp only [q] at hq
      rwa [hconst i hi, C_0, add_zero] at hq
    exact (expand_eq_zero (Nat.two_pow_pos i)).1 ((mul_eq_zero.1 hzero).resolve_left X_ne_zero)
  · push Not at h
    obtain ⟨i, hi, hne⟩ := h
    have hdefect := natDegree_defect_le (u := us[i]) (hdegree i) (hdegree (i + 1))
    have hpow : 2 ^ i ≤ 2 ^ n := Nat.pow_le_pow_right two_pos (by omega)
    have hcard : (q i hi).natDegree ≤ (2 * D + 2) * 2 ^ n := by
      rw [natDegree_add_C]
      have hmul := natDegree_mul_le (p := X) (q := expand K (2 ^ i) (defect us[i] (A i) (A (i + 1))))
      rw [natDegree_expand, natDegree_X] at hmul
      have hpos : 0 < 2 ^ i := Nat.two_pow_pos i
      calc (X * expand K (2 ^ i) (defect us[i] (A i) (A (i + 1)))).natDegree
          ≤ 1 + (defect us[i] (A i) (A (i + 1))).natDegree * 2 ^ i := hmul
        _ ≤ 2 ^ i + (2 * D + 1) * 2 ^ i := Nat.add_le_add hpos (Nat.mul_le_mul_right _ hdefect)
        _ = (2 * D + 2) * 2 ^ i := by ring
        _ ≤ (2 * D + 2) * 2 ^ n := Nat.mul_le_mul_left _ hpow
    refine .inr ⟨(q i hi).roots.toFinset, ((Multiset.toFinset_card_le _).trans (card_roots' _)).trans hcard, ?_⟩
    intro x hx
    refine ⟨i, hi, ?_⟩
    intro heval
    refine hx (Multiset.mem_toFinset.2 ((mem_roots hne).2 ?_))
    simp only [q, IsRoot, eval_add, eval_mul, eval_X, eval_C, expand_eval]
    exact heval

/-- A batch of values, not all 0, is 0 for few batching challenges. -/
theorem exists_sum_ne_zero {N : Nat} {c : Fin (N + 1) → K} {i : Fin (N + 1)} (hi : c i ≠ 0) :
    ∃ R : Finset K, R.card ≤ N ∧ ∀ x ∉ R, ∑ i, c i * x ^ i.val ≠ 0 := by
  classical
  let p : K[X] := ∑ i, C (c i) * X ^ i.val
  have hcoeff : p.coeff i = c i := by
    simp only [p, finsetSum_coeff, coeff_C_mul_X_pow]
    rw [Finset.sum_eq_single_of_mem i (Finset.mem_univ i), if_pos rfl]
    intro k _ hne
    exact if_neg fun h => hne (Fin.ext h.symm)
  have hp : p ≠ 0 := by
    intro h
    rw [h, coeff_zero] at hcoeff
    exact hi hcoeff.symm
  have hdegree : p.natDegree ≤ N := natDegree_sum_le_of_forall_le _ _ fun k _ =>
    (natDegree_C_mul_X_pow_le _ _).trans (Nat.le_of_lt_succ k.isLt)
  refine ⟨p.roots.toFinset, ((Multiset.toFinset_card_le _).trans (card_roots' p)).trans hdegree, ?_⟩
  intro x hx hzero
  refine hx (Multiset.mem_toFinset.2 ((mem_roots hp).2 ?_))
  simpa [p, IsRoot, eval_finsetSum] using hzero

end Folding
