import Mathlib.Algebra.Polynomial.Roots
import Mathlib.Tactic.LinearCombination

/-!
# Multisets compared by grand products

A multiset of labelled values `(v, l)` has the fingerprint `∏ (v + β l + γ)`. Equal multisets have equal fingerprints; for
different ones, all but a few `β` keep the sums `v + β l` apart, and for each of these all but a few `γ` keep the products
apart (`exists_challenges`). A running product that every row carries on to the next compares the products of all rows
(`prod_eq_of_running`).
-/

namespace GrandProduct
open Polynomial

variable {K : Type*} [Field K]

def fingerprint (β γ : K) (A : Multiset (K × K)) : K := (A.map fun a => a.1 + β * a.2 + γ).prod

theorem fingerprint_add (β γ : K) (A B : Multiset (K × K)) :
    fingerprint β γ (A + B) = fingerprint β γ A * fingerprint β γ B := by
  rw [fingerprint, Multiset.map_add, Multiset.prod_add]
  rfl

/-- The fingerprint as a polynomial in `γ`. -/
noncomputable def inGamma (β : K) (A : Multiset (K × K)) : K[X] :=
  (A.map fun a => X - C (-(a.1 + β * a.2))).prod

theorem eval_inGamma (β γ : K) (A : Multiset (K × K)) : (inGamma β A).eval γ = fingerprint β γ A := by
  rw [inGamma, eval_multiset_prod, Multiset.map_map, fingerprint]
  refine congrArg Multiset.prod (Multiset.map_congr rfl ?_)
  intro a _
  simp only [Function.comp_apply, eval_sub, eval_X, eval_C]
  ring

theorem inGamma_eq (β : K) (A : Multiset (K × K)) :
    inGamma β A = ((A.map fun a => -(a.1 + β * a.2)).map fun r => X - C r).prod := by
  rw [inGamma, Multiset.map_map]
  rfl

theorem natDegree_inGamma (β : K) (A : Multiset (K × K)) : (inGamma β A).natDegree = Multiset.card A := by
  rw [inGamma_eq, natDegree_multiset_prod_X_sub_C_eq_card, Multiset.card_map]

/-- Equal polynomials have equal sums. -/
theorem map_eq_of_inGamma_eq {β : K} {A B : Multiset (K × K)} (h : inGamma β A = inGamma β B) :
    A.map (fun a => -(a.1 + β * a.2)) = B.map fun a => -(a.1 + β * a.2) := by
  have hroots := congrArg roots h
  rwa [inGamma_eq, inGamma_eq, roots_multiset_prod_X_sub_C, roots_multiset_prod_X_sub_C] at hroots

section
variable [DecidableEq K]

/-- The `β` at which two of the labelled values have the same sum. -/
def clashes (S : Finset (K × K)) : Finset K :=
  (S ×ˢ S).image fun p => (p.2.1 - p.1.1) / (p.1.2 - p.2.2)

theorem card_clashes_le (S : Finset (K × K)) : (clashes S).card ≤ S.card ^ 2 := by
  rw [sq, ← Finset.card_product]
  exact Finset.card_image_le

theorem injOn_of_notMem_clashes {S : Finset (K × K)} {β : K} (hβ : β ∉ clashes S) :
    Set.InjOn (fun a : K × K => -(a.1 + β * a.2)) S := by
  intro a ha b hb hab
  have hsum : a.1 + β * a.2 = b.1 + β * b.2 := neg_injective hab
  by_cases hl : a.2 = b.2
  · rw [hl] at hsum
    exact Prod.ext (add_right_cancel hsum) hl
  · refine absurd (Finset.mem_image.2 ⟨(a, b), Finset.mem_product.2 ⟨ha, hb⟩, ?_⟩) hβ
    rw [div_eq_iff (sub_ne_zero.2 hl), mul_sub]
    linear_combination -hsum

theorem inGamma_ne {A B : Multiset (K × K)} {β : K} (hne : A ≠ B) (hβ : β ∉ clashes (A + B).toFinset) :
    inGamma β A ≠ inGamma β B := by
  intro heq
  have hinj := injOn_of_notMem_clashes hβ
  refine hne ?_
  have hback {C : Multiset (K × K)} (hC : C ≤ A + B) : (C.map fun a => -(a.1 + β * a.2)).map
      (Function.invFunOn (fun a : K × K => -(a.1 + β * a.2)) (A + B).toFinset) = C := by
    rw [Multiset.map_map]
    refine (Multiset.map_congr rfl ?_).trans (Multiset.map_id C)
    intro a ha
    exact hinj.leftInvOn_invFunOn (Multiset.mem_toFinset.2 (Multiset.mem_of_le hC ha))
  rw [← hback (Multiset.le_add_right A B), map_eq_of_inGamma_eq heq, hback (Multiset.le_add_left B A)]

/-- All but a few challenges tell different multisets apart. -/
theorem exists_challenges {A B : Multiset (K × K)} (hne : A ≠ B) :
    ∃ bad : Finset K, bad.card ≤ (Multiset.card A + Multiset.card B) ^ 2 ∧ ∀ β ∉ bad, ∃ bad' : Finset K,
      bad'.card ≤ max (Multiset.card A) (Multiset.card B) ∧ ∀ γ ∉ bad', fingerprint β γ A ≠ fingerprint β γ B := by
  refine ⟨clashes (A + B).toFinset, ?_, ?_⟩
  · refine (card_clashes_le _).trans (Nat.pow_le_pow_left ?_ 2)
    rw [← Multiset.card_add]
    exact Multiset.toFinset_card_le _
  · intro β hβ
    have hsub : inGamma β A - inGamma β B ≠ 0 := sub_ne_zero.2 (inGamma_ne hne hβ)
    refine ⟨(inGamma β A - inGamma β B).roots.toFinset, ?_, ?_⟩
    · calc (inGamma β A - inGamma β B).roots.toFinset.card
          ≤ Multiset.card (inGamma β A - inGamma β B).roots := Multiset.toFinset_card_le _
        _ ≤ (inGamma β A - inGamma β B).natDegree := card_roots' _
        _ ≤ max (inGamma β A).natDegree (inGamma β B).natDegree := natDegree_sub_le _ _
        _ = max (Multiset.card A) (Multiset.card B) := by rw [natDegree_inGamma, natDegree_inGamma]
    · intro γ hγ heq
      refine hγ ?_
      rw [Multiset.mem_toFinset, mem_roots hsub, IsRoot.def, eval_sub, eval_inGamma, eval_inGamma, heq, sub_self]

end

/-! ### Running products -/

theorem running {z N D : Nat → K} {k : Nat} (h0 : z 0 = 1) (h : ∀ j < k, z (j + 1) * D j = z j * N j) :
    z k * ∏ j ∈ Finset.range k, D j = ∏ j ∈ Finset.range k, N j := by
  induction k with
  | zero => simp [h0]
  | succ k ih =>
    rw [Finset.prod_range_succ, Finset.prod_range_succ, ← ih fun j hj => h j (Nat.lt_succ_of_lt hj)]
    linear_combination (∏ j ∈ Finset.range k, D j) * h k (Nat.lt_succ_self k)

/-- The last row compares the running product with `δ`. -/
theorem prod_eq_of_running {z N D : Nat → K} {last : Nat} {δ : K} (h0 : z 0 = 1)
    (h : ∀ j < last, z (j + 1) * D j = z j * N j) (hlast : δ * D last = z last * N last) :
    ∏ j ∈ Finset.range (last + 1), N j = δ * ∏ j ∈ Finset.range (last + 1), D j := by
  rw [Finset.prod_range_succ, Finset.prod_range_succ, ← running h0 h]
  linear_combination -(∏ j ∈ Finset.range last, D j) * hlast

end GrandProduct
