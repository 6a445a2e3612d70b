import InfraVeritas.Lib.Sumcheck
import Mathlib.Algebra.BigOperators.Group.Finset.Basic

/-!
# Multilinear extensions of tables

`mle us f` is the value at `us` of the polynomial, linear in every coordinate, that takes the entries of the table `f` at
the corners of the cube; the first coordinate is the lowest bit of the row (`mle_corner`). It folds the table once for each
coordinate: neighbouring rows `2j` and `2j + 1` become the row `j`.
-/

namespace Multilinear
open Polynomial Sumcheck

variable {K : Type*} [Field K]

/-- One step of the fold. -/
def fold (u : K) (f : Nat → K) : Nat → K := fun j => (1 - u) * f (2 * j) + u * f (2 * j + 1)

def mle : List K → (Nat → K) → K
  | [], f => f 0
  | u :: us, f => mle us (fold u f)

theorem mle_combine (a b : K) (us : List K) (f g : Nat → K) :
    mle us (fun j => a * f j + b * g j) = a * mle us f + b * mle us g := by
  induction us generalizing f g with
  | nil => rfl
  | cons u us ih =>
    have hfold : fold u (fun j => a * f j + b * g j) = fun j => a * fold u f j + b * fold u g j := by
      funext j
      simp only [fold]
      ring
    rw [mle, hfold, ih, mle, mle]

theorem degreeLE_mle (n : Nat) (f : Nat → K) : DegreeLE 1 n fun us => mle us f := by
  intro pre suf hlen
  clear hlen
  induction pre generalizing f with
  | nil =>
    refine ⟨(1 - X) * C (mle suf fun j => f (2 * j)) + X * C (mle suf fun j => f (2 * j + 1)), ?_, ?_⟩
    · compute_degree
    · intro x
      show _ = mle suf (fun j => (1 - x) * f (2 * j) + x * f (2 * j + 1))
      rw [mle_combine]
      simp only [eval_add, eval_mul, eval_sub, eval_one, eval_X, eval_C]
  | cons u pre ih => exact ih (fold u f)

/-! ### The corners -/

/-- The corner of a row: its bits, the lowest first. -/
def corner (K : Type*) [Field K] : Nat → Nat → List K
  | 0, _ => []
  | n + 1, j => (if j % 2 = 0 then 0 else 1) :: corner K n (j / 2)

theorem mle_corner {n j : Nat} (f : Nat → K) (h : j < 2 ^ n) : mle (corner K n j) f = f j := by
  induction n generalizing j f with
  | zero =>
    obtain rfl : j = 0 := by simpa using h
    rfl
  | succ n ih =>
    rw [corner, mle, ih _ (by omega)]
    rcases Nat.mod_two_eq_zero_or_one j with hj | hj
    · have h2 : 2 * (j / 2) = j := by omega
      simp [fold, hj, h2]
    · have h2 : 2 * (j / 2) + 1 = j := by omega
      simp [fold, hj, h2]

theorem sum_range_two_mul {A : Type*} [AddCommMonoid A] (F : Nat → A) (m : Nat) :
    ∑ j ∈ Finset.range (2 * m), F j = ∑ j ∈ Finset.range m, (F (2 * j) + F (2 * j + 1)) := by
  induction m with
  | zero => rfl
  | succ m ih =>
    rw [Nat.mul_succ, Finset.sum_range_succ, Finset.sum_range_succ, ih, Finset.sum_range_succ, add_assoc]

/-- The sum over the corners is the sum over the rows. -/
theorem cubeSum_eq_sum_corner (n : Nat) (G : List K → K) : cubeSum n G = ∑ j ∈ Finset.range (2 ^ n), G (corner K n j) := by
  induction n generalizing G with
  | zero => simp [corner]
  | succ n ih =>
    rw [cubeSum_succ, ih, ih, pow_succ', sum_range_two_mul, ← Finset.sum_add_distrib]
    refine Finset.sum_congr rfl ?_
    intro j _
    have heven : 2 * j / 2 = j := by omega
    have hodd : (2 * j + 1) / 2 = j := by omega
    have hmod : (2 * j + 1) % 2 = 1 := by omega
    simp [corner, heven, hodd, hmod]

end Multilinear
