import Mathlib.Algebra.Polynomial.Degree.Operations
import Mathlib.Algebra.Polynomial.Eval.Degree

/-!
# Arithmetic that respects a relation

A function written with `+`, `-`, `*` and numerals only can be run on machine words, on field elements, on polynomials
and on degree bounds. One lemma, that it takes related arguments to related values for every relation that the operations
respect (`Respects`), then says that the words denote the field elements, that evaluating the polynomials gives the field
elements, and that the degrees are bounded.
-/

namespace Parametric
open Polynomial

section
variable {K L : Type*} [Add K] [Sub K] [Mul K] [NatCast K] [Add L] [Sub L] [Mul L] [NatCast L]

/-- Related arguments have related sums, differences and products, and numerals are related. -/
structure Respects (R : K → L → Prop) : Prop where
  add {a b : K} {a' b' : L} : R a a' → R b b' → R (a + b) (a' + b')
  sub {a b : K} {a' b' : L} : R a a' → R b b' → R (a - b) (a' - b')
  mul {a b : K} {a' b' : L} : R a a' → R b b' → R (a * b) (a' * b')
  natCast (n : Nat) : R n n

end

/-- Two vectors related entry by entry. -/
structure Pointwise {K L : Type*} {n : Nat} (R : K → L → Prop) (v : Vector K n) (w : Vector L n) : Prop where
  getElem (i : Nat) (hi : i < n) : R v[i] w[i]

namespace Pointwise
variable {K L : Type*} {n : Nat} {R : K → L → Prop} {v : Vector K n} {w : Vector L n}

theorem set (hvw : Pointwise R v w) {a : K} {b : L} (hab : R a b) {i : Nat} (hi : i < n) :
    Pointwise R (v.set i a hi) (w.set i b hi) where
  getElem j hj := by
    rw [Vector.getElem_set, Vector.getElem_set]
    split
    · exact hab
    · exact hvw.getElem j hj

/-- `v[i] += a` -/
theorem accumulate [Add K] [Add L] (hadd : ∀ {a b : K} {a' b' : L}, R a a' → R b b' → R (a + b) (a' + b'))
    (hvw : Pointwise R v w) {a : K} {b : L} (hab : R a b) {i : Nat} (hi : i < n) :
    Pointwise R (v.set i (v[i] + a) hi) (w.set i (w[i] + b) hi) :=
  hvw.set (hadd (hvw.getElem i hi) hab) hi

theorem replicate {a : K} {b : L} (hab : R a b) : Pointwise R (Vector.replicate n a) (Vector.replicate n b) where
  getElem i hi := by
    rw [Vector.getElem_replicate, Vector.getElem_replicate]
    exact hab

end Pointwise

/-! ### Evaluation -/

theorem respects_ringHom {A B : Type*} [Ring A] [Ring B] (f : A →+* B) : Respects fun a b => f a = b where
  add ha hb := by rw [map_add, ha, hb]
  sub ha hb := by rw [map_sub, ha, hb]
  mul ha hb := by rw [map_mul, ha, hb]
  natCast n := map_natCast f n

/-! ### Degrees -/

/-- A bound on the degree of a polynomial, with the operations on bounds. -/
structure DegreeBound where
  bound : Nat
deriving DecidableEq

namespace DegreeBound

instance : Add DegreeBound := ⟨fun d e => ⟨max d.bound e.bound⟩⟩
instance : Sub DegreeBound := ⟨fun d e => ⟨max d.bound e.bound⟩⟩
instance : Mul DegreeBound := ⟨fun d e => ⟨d.bound + e.bound⟩⟩
instance : NatCast DegreeBound := ⟨fun _ => ⟨0⟩⟩

end DegreeBound

theorem respects_natDegree {A : Type*} [CommRing A] : Respects fun (p : A[X]) (d : DegreeBound) => p.natDegree ≤ d.bound where
  add ha hb := (natDegree_add_le _ _).trans (max_le_max ha hb)
  sub ha hb := (natDegree_sub_le _ _).trans (max_le_max ha hb)
  mul ha hb := natDegree_mul_le.trans (Nat.add_le_add ha hb)
  natCast n := (natDegree_natCast n).le

/-! ### Zeros -/

/-- Whether a value is known to be zero, with the operations on that knowledge. -/
structure Vanishing where
  zero : Bool
deriving DecidableEq

namespace Vanishing

instance : Add Vanishing := ⟨fun a b => ⟨a.zero && b.zero⟩⟩
instance : Sub Vanishing := ⟨fun a b => ⟨a.zero && b.zero⟩⟩
instance : Mul Vanishing := ⟨fun a b => ⟨a.zero || b.zero⟩⟩
instance : NatCast Vanishing := ⟨fun n => ⟨n == 0⟩⟩

theorem add_zero (a b : Vanishing) : (a + b).zero = (a.zero && b.zero) := rfl
theorem sub_zero (a b : Vanishing) : (a - b).zero = (a.zero && b.zero) := rfl
theorem mul_zero (a b : Vanishing) : (a * b).zero = (a.zero || b.zero) := rfl

end Vanishing

theorem respects_zero {A : Type*} [CommRing A] : Respects fun (a : A) (v : Vanishing) => v.zero = true → a = 0 where
  add ha hb h := by
    rw [Vanishing.add_zero, Bool.and_eq_true] at h
    rw [ha h.1, hb h.2, add_zero]
  sub ha hb h := by
    rw [Vanishing.sub_zero, Bool.and_eq_true] at h
    rw [ha h.1, hb h.2, sub_zero]
  mul ha hb h := by
    rw [Vanishing.mul_zero, Bool.or_eq_true] at h
    rcases h with h | h
    · rw [ha h, zero_mul]
    · rw [hb h, mul_zero]
  natCast n h := by
    obtain rfl : n = 0 := eq_of_beq h
    exact Nat.cast_zero

end Parametric
