import Mathlib.Algebra.Polynomial.Roots
import Mathlib.Algebra.Polynomial.Div
import Mathlib.RingTheory.RootsOfUnity.PrimitiveRoots
import Mathlib.Tactic.FieldSimp
import Mathlib.Tactic.LinearCombination

/-!
# Sums over a subgroup of roots of unity

`g` is a primitive root of order `N`. `basis g N i` is the polynomial that is 1 at `g ^ i` and 0 at the other powers, and
`extend g N c` takes the values `c` there. The sum of the products of two polynomials over all powers but the last is
checked through a polynomial `S` of partial sums, by the single identity

  `L₀ S + (X - g⁻¹) (S(gX) - S - A F) + Lₗ (S - e) = (X ^ N - 1) Q`.

At the power 1 the first two terms are one equation for two conditions, so the identity gives the sum up to a multiple of
`S(1)` (`sum_of_identity`), and some `S` and `Q` satisfy it for any `e` (`exists_identity`).
-/

namespace SmallSubgroup
open Polynomial

variable {K : Type*} [Field K] {g : K} {N : Nat}

/-! ### The basis -/

noncomputable def basis (g : K) (N i : Nat) : K[X] := C (N : K)⁻¹ * ∑ k ∈ Finset.range N, (C (g⁻¹ ^ i) * X) ^ k

/-- Away from its own power, where the quotient has no value. -/
theorem eval_basis_of_ne (hg : g ^ N = 1) {i : Nat} {x : K} (hx : g⁻¹ ^ i * x ≠ 1) :
    (basis g N i).eval x = (x ^ N - 1) * (N : K)⁻¹ * (g⁻¹ ^ i * x - 1)⁻¹ := by
  have hgeom := mul_geom_sum (g⁻¹ ^ i * x) N
  have hpow : (g⁻¹ ^ i * x) ^ N = x ^ N := by
    rw [mul_pow, ← pow_mul, mul_comm i N, pow_mul, inv_pow, hg, inv_one, one_pow, one_mul]
  have hsub := sub_ne_zero.2 hx
  rw [hpow] at hgeom
  rw [basis, eval_mul, eval_C, eval_finsetSum, ← hgeom]
  simp only [eval_pow, eval_mul, eval_C, eval_X]
  rw [mul_comm (g⁻¹ ^ i * x - 1), mul_assoc, mul_assoc, mul_left_comm (g⁻¹ ^ i * x - 1), mul_inv_cancel₀ hsub, mul_one,
    mul_comm]

theorem eval_basis_pow (hg : IsPrimitiveRoot g N) (hN : (N : K) ≠ 0) {i j : Nat} (hi : i < N) (hj : j < N) :
    (basis g N i).eval (g ^ j) = if i = j then 1 else 0 := by
  have hg0 : g ≠ 0 := hg.ne_zero (by omega)
  split
  · next h =>
    subst h
    have hone : g⁻¹ ^ i * g ^ i = 1 := by rw [← mul_pow, inv_mul_cancel₀ hg0, one_pow]
    rw [basis, eval_mul, eval_C, eval_finsetSum]
    simp only [eval_pow, eval_mul, eval_C, eval_X, hone, one_pow, Finset.sum_const, Finset.card_range, nsmul_eq_mul, mul_one]
    exact inv_mul_cancel₀ hN
  · next h =>
    have hne : g⁻¹ ^ i * g ^ j ≠ 1 := by
      intro heq
      refine h (hg.pow_inj hi hj ?_)
      rw [inv_pow, inv_mul_eq_one₀ (pow_ne_zero _ hg0)] at heq
      exact heq
    rw [eval_basis_of_ne hg.pow_eq_one hne, ← pow_mul, mul_comm j N, pow_mul, hg.pow_eq_one, one_pow, sub_self, zero_mul,
      zero_mul]

/-- The polynomial with the given values at the powers. -/
noncomputable def extend (g : K) (N : Nat) (c : Nat → K) : K[X] := ∑ i ∈ Finset.range N, C (c i) * basis g N i

theorem eval_extend_pow (hg : IsPrimitiveRoot g N) (hN : (N : K) ≠ 0) (c : Nat → K) {j : Nat} (hj : j < N) :
    (extend g N c).eval (g ^ j) = c j := by
  rw [extend, eval_finsetSum, Finset.sum_eq_single_of_mem j (Finset.mem_range.2 hj)]
  · rw [eval_mul, eval_C, eval_basis_pow hg hN hj hj, if_pos rfl, mul_one]
  · intro i hi hne
    rw [eval_mul, eval_basis_pow hg hN (Finset.mem_range.1 hi) hj, if_neg hne, mul_zero]

theorem natDegree_basis_le (g : K) (N i : Nat) : (basis g N i).natDegree ≤ N - 1 := by
  refine (natDegree_C_mul_le _ _).trans (natDegree_sum_le_of_forall_le _ _ ?_)
  intro k hk
  have hlt := Finset.mem_range.1 hk
  rw [mul_pow, ← C_pow]
  exact (natDegree_C_mul_X_pow_le _ _).trans (by omega)

theorem natDegree_extend_le (g : K) (N : Nat) (c : Nat → K) : (extend g N c).natDegree ≤ N - 1 := by
  refine natDegree_sum_le_of_forall_le _ _ ?_
  intro i _
  exact (natDegree_C_mul_le _ _).trans (natDegree_basis_le g N i)

/-! ### The identity -/

/-- The left side without the quotient. -/
noncomputable def defect (g : K) (N : Nat) (S A F : K[X]) (e : K) : K[X] :=
  basis g N 0 * S + (X - C g⁻¹) * (S.comp (C g * X) - S - A * F) + basis g N (N - 1) * (S - C e)

theorem natDegree_defect_le (hN : 0 < N) {S A F : K[X]} {D : Nat} (hS : S.natDegree ≤ D) (hA : A.natDegree ≤ D)
    (hF : F.natDegree ≤ N - 1) (e : K) : (defect g N S A F e).natDegree ≤ D + N := by
  have hfirst := natDegree_basis_le g N 0
  have hlast := natDegree_basis_le g N (N - 1)
  have hshift : (S.comp (C g * X)).natDegree ≤ D := by
    refine natDegree_comp_le.trans ?_
    exact (Nat.mul_le_mul_left _ ((natDegree_C_mul_le g X).trans natDegree_X_le)).trans (by rwa [mul_one])
  have hproduct : (A * F).natDegree ≤ D + (N - 1) := natDegree_mul_le.trans (Nat.add_le_add hA hF)
  have hstep : (S.comp (C g * X) - S - A * F).natDegree ≤ D + (N - 1) := by
    refine (natDegree_sub_le _ _).trans (max_le ((natDegree_sub_le _ _).trans (max_le ?_ ?_)) hproduct)
    · omega
    · omega
  refine (natDegree_add_le _ _).trans (max_le ((natDegree_add_le _ _).trans (max_le ?_ ?_)) ?_)
  · exact natDegree_mul_le.trans (by omega)
  · have hlinear : (X - C g⁻¹).natDegree = 1 := natDegree_X_sub_C _
    exact natDegree_mul_le.trans (by omega)
  · have hconst : (S - C e).natDegree ≤ D := by rwa [natDegree_sub_C]
    exact natDegree_mul_le.trans (by omega)

/-- What the identity says at the powers: the partial sums, with the first step off by a multiple of the start. -/
theorem eval_defect_pow (hg : IsPrimitiveRoot g N) (hN : (N : K) ≠ 0) (h2 : 2 ≤ N) (S A F : K[X]) (e : K) {j : Nat}
    (hj : j < N) : (defect g N S A F e).eval (g ^ j) =
      (if j = 0 then S.eval 1 else 0) +
        (g ^ j - g⁻¹) * (S.eval (g ^ (j + 1)) - S.eval (g ^ j) - A.eval (g ^ j) * F.eval (g ^ j)) +
      if j = N - 1 then S.eval (g ^ j) - e else 0 := by
  rw [defect]
  simp only [eval_add, eval_mul, eval_sub, eval_X, eval_C, eval_comp, eval_basis_pow hg hN (by omega : 0 < N) hj,
    eval_basis_pow hg hN (by omega : N - 1 < N) hj, ← pow_succ', ite_mul, one_mul, zero_mul]
  congr 1
  · congr 1
    rcases eq_or_ne j 0 with rfl | hne
    · simp
    · rw [if_neg hne.symm, if_neg hne]
  · rcases eq_or_ne j (N - 1) with heq | hne
    · rw [if_pos heq.symm, if_pos heq]
    · rw [if_neg hne.symm, if_neg hne]

/-- A polynomial that vanishes at the powers is a multiple of `X ^ N - 1`. -/
theorem exists_quotient (hg : IsPrimitiveRoot g N) (hN : 0 < N) {p : K[X]} (h : ∀ j < N, p.eval (g ^ j) = 0) :
    ∃ q, p = (X ^ N - 1) * q := by
  have hmonic : (X ^ N - C (1 : K)).Monic := monic_X_pow_sub_C 1 hN.ne'
  have hdiv := modByMonic_add_div p (X ^ N - C (1 : K))
  have hinj : Function.Injective fun j : Fin N => g ^ j.val := fun i j hij => Fin.ext (hg.pow_inj i.isLt j.isLt hij)
  have hrem : p %ₘ (X ^ N - C (1 : K)) = 0 := by
    refine eq_zero_of_natDegree_lt_card_of_eval_eq_zero _ hinj ?_ ?_
    · intro j
      have heval := congrArg (eval (g ^ j.val)) hdiv
      rw [eval_add, eval_mul, h j j.isLt, eval_sub, eval_pow, eval_X, eval_C, ← pow_mul, mul_comm j.val, pow_mul,
        hg.pow_eq_one, one_pow, sub_self, zero_mul, add_zero] at heval
      exact heval
    · have hlt := natDegree_modByMonic_lt p hmonic (by
        intro hone
        have hdeg := congrArg natDegree hone
        rw [natDegree_X_pow_sub_C, natDegree_one] at hdeg
        omega)
      rw [natDegree_X_pow_sub_C] at hlt
      rwa [Fintype.card_fin]
  rw [hrem, zero_add] at hdiv
  exact ⟨_, hdiv.symm⟩

theorem natDegree_quotient (hN : 0 < N) {p q : K[X]} (h : p = (X ^ N - 1) * q) : q.natDegree ≤ p.natDegree - N := by
  have hmonic : (X ^ N - C (1 : K)).Monic := monic_X_pow_sub_C 1 hN.ne'
  rcases eq_or_ne q 0 with rfl | hq
  · simp
  · rw [h, ← C_1, hmonic.natDegree_mul' hq, natDegree_X_pow_sub_C, Nat.add_sub_cancel_left]

theorem pow_sub_one_mul (hg : IsPrimitiveRoot g N) (hN : 0 < N) : g ^ (N - 1) = g⁻¹ := by
  refine eq_inv_of_mul_eq_one_left ?_
  rw [← pow_succ, Nat.sub_add_cancel hN, hg.pow_eq_one]

/-- The sum is `e` up to a multiple of the value at the start. -/
theorem sum_of_identity (hg : IsPrimitiveRoot g N) (hN : (N : K) ≠ 0) (h2 : 2 ≤ N) {S A F Q : K[X]} {e : K}
    (h : defect g N S A F e = (X ^ N - 1) * Q) :
    (g - 1) * (∑ j ∈ Finset.range (N - 1), A.eval (g ^ j) * F.eval (g ^ j) - e) = S.eval 1 := by
  have hg0 : g ≠ 0 := hg.ne_zero (by omega)
  have hzero {j : Nat} (hj : j < N) : (if j = 0 then S.eval 1 else 0) +
      (g ^ j - g⁻¹) * (S.eval (g ^ (j + 1)) - S.eval (g ^ j) - A.eval (g ^ j) * F.eval (g ^ j)) +
      (if j = N - 1 then S.eval (g ^ j) - e else 0) = 0 := by
    rw [← eval_defect_pow hg hN h2 S A F e hj, h, eval_mul, eval_sub, eval_pow, eval_X, eval_one, ← pow_mul, mul_comm j,
      pow_mul, hg.pow_eq_one, one_pow, sub_self, zero_mul]
  -- every power behind the first has the sum up to it, off by the same
  have hpartial (j : Nat) (hj : j + 1 < N) : (g - 1) * (∑ i ∈ Finset.range (j + 1), A.eval (g ^ i) * F.eval (g ^ i) -
      S.eval (g ^ (j + 1))) = S.eval 1 := by
    induction j with
    | zero =>
      have hfirst := hzero (by omega : 0 < N)
      rw [if_pos rfl, if_neg (by omega), pow_zero, add_zero] at hfirst
      rw [Finset.sum_range_one, pow_zero]
      have hmul : g * (1 - g⁻¹) = g - 1 := by rw [mul_sub, mul_inv_cancel₀ hg0, mul_one]
      linear_combination (-g) * hfirst + (S.eval (g ^ (0 + 1)) - S.eval 1 - A.eval 1 * F.eval 1) * hmul
    | succ j ih =>
      have hstep := hzero (by omega : j + 1 < N)
      have hne : g ^ (j + 1) - g⁻¹ ≠ 0 := by
        rw [← pow_sub_one_mul hg (by omega), sub_ne_zero]
        intro heq
        have := hg.pow_inj (by omega) (by omega) heq
        omega
      rw [if_neg (Nat.succ_ne_zero j), if_neg (by omega), zero_add, add_zero, mul_eq_zero, or_iff_right hne] at hstep
      rw [Finset.sum_range_succ]
      linear_combination ih (by omega) - (g - 1) * hstep
  obtain ⟨m, rfl⟩ := Nat.exists_eq_add_of_le' h2
  have hlast := hzero (by omega : m + 1 < m + 2)
  have hinv := pow_sub_one_mul hg (by omega)
  have hend : m + 2 - 1 = m + 1 := rfl
  rw [hend] at hinv hlast ⊢
  rw [if_neg (Nat.succ_ne_zero m), if_pos rfl, hinv, sub_self, zero_mul, add_zero, zero_add, sub_eq_zero] at hlast
  rw [← hpartial m (by omega), ← hlast, hinv]

/-- Otherwise the identity holds at few points. -/
theorem sum_or_card_le (hg : IsPrimitiveRoot g N) (hN : (N : K) ≠ 0) (h2 : 2 ≤ N) {S A F Q : K[X]} (e : K) {D : Nat}
    (hS : S.natDegree ≤ D) (hA : A.natDegree ≤ D) (hF : F.natDegree ≤ N - 1) (hQ : Q.natDegree ≤ D) :
    (g - 1) * (∑ j ∈ Finset.range (N - 1), A.eval (g ^ j) * F.eval (g ^ j) - e) = S.eval 1 ∨
    ∃ B : Finset K, B.card ≤ D + N ∧ ∀ x ∉ B, (defect g N S A F e).eval x ≠ ((X ^ N - 1) * Q).eval x := by
  classical
  let p := defect g N S A F e - (X ^ N - 1) * Q
  have hdegree : p.natDegree ≤ D + N := by
    have hX : (X ^ N - 1 : K[X]).natDegree = N := by rw [← C_1, natDegree_X_pow_sub_C]
    have hmul := natDegree_mul_le (p := X ^ N - 1) (q := Q)
    exact (natDegree_sub_le _ _).trans (max_le (natDegree_defect_le (by omega) hS hA hF e) (by omega))
  by_cases hp : p = 0
  · exact .inl (sum_of_identity hg hN h2 (sub_eq_zero.1 hp))
  · refine .inr ⟨p.roots.toFinset, ((Multiset.toFinset_card_le _).trans (card_roots' p)).trans hdegree, ?_⟩
    intro x hx heq
    rw [← sub_eq_zero, ← eval_sub] at heq
    exact hx (Multiset.mem_toFinset.2 ((mem_roots hp).2 heq))

/-- Some partial sums pass for any value. -/
theorem exists_identity (hg : IsPrimitiveRoot g N) (hN : (N : K) ≠ 0) (h2 : 2 ≤ N) (A : K[X]) {F : K[X]}
    (hF : F.natDegree ≤ N - 1) (e : K) : ∃ S Q : K[X], S.natDegree ≤ N - 1 ∧ Q.natDegree ≤ max (N - 1) A.natDegree ∧
      defect g N S A F e = (X ^ N - 1) * Q := by
  let total := ∑ j ∈ Finset.range (N - 1), A.eval (g ^ j) * F.eval (g ^ j)
  let s : Nat → K := fun j =>
    if j = 0 then (g - 1) * (total - e) else ∑ i ∈ Finset.range j, A.eval (g ^ i) * F.eval (g ^ i) - (total - e)
  have hg0 : g ≠ 0 := hg.ne_zero (by omega)
  suffices hzero : ∀ j < N, (defect g N (extend g N s) A F e).eval (g ^ j) = 0 by
    obtain ⟨q, hq⟩ := exists_quotient hg (by omega) hzero
    have hS := natDegree_extend_le g N s
    have hdegree : (defect g N (extend g N s) A F e).natDegree ≤ max (N - 1) A.natDegree + N :=
      natDegree_defect_le (by omega) (hS.trans (le_max_left ..)) (le_max_right ..) hF e
    exact ⟨extend g N s, q, hS, (natDegree_quotient (by omega) hq).trans (Nat.sub_le_of_le_add hdegree), hq⟩
  intro j hj
  have hstart : (extend g N s).eval 1 = (g - 1) * (total - e) := by
    have heval := eval_extend_pow hg hN s (by omega : 0 < N)
    rw [pow_zero] at heval
    exact heval.trans (if_pos rfl)
  have hlater {i : Nat} (hi : i < N) (hne : i ≠ 0) : (extend g N s).eval (g ^ i) =
      ∑ k ∈ Finset.range i, A.eval (g ^ k) * F.eval (g ^ k) - (total - e) := by
    rw [eval_extend_pow hg hN s hi]
    exact if_neg hne
  rw [eval_defect_pow hg hN h2 _ A F e hj]
  rcases eq_or_ne j 0 with rfl | hne
  · have hmul : g * (1 - g⁻¹) = g - 1 := by rw [mul_sub, mul_inv_cancel₀ hg0, mul_one]
    rw [if_pos rfl, if_neg (by omega), pow_zero, hstart, hlater (by omega) (Nat.succ_ne_zero 0), Finset.sum_range_one,
      pow_zero]
    linear_combination -(total - e) * hmul
  · rw [if_neg hne, zero_add]
    rcases eq_or_ne j (N - 1) with rfl | hlast
    · rw [if_pos rfl, hlater hj hne, pow_sub_one_mul hg (by omega), sub_self, zero_mul, zero_add]
      exact sub_eq_zero.2 (sub_sub_cancel total e)
    · rw [if_neg hlast, add_zero, hlater hj hne, hlater (by omega) (Nat.succ_ne_zero j), Finset.sum_range_succ]
      ring

end SmallSubgroup
