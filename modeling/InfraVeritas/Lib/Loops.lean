import Mathlib.Algebra.BigOperators.Fin
import Mathlib.Data.Vector.Basic

/-!
# Loops

`Vector.ofFnM` is the loop that fills an array: with exceptions it succeeds if every step does. A loop that accumulates,
over all indices, computes a sum or a product.
-/

namespace Loops

variable {ε α : Type} {n : Nat}

theorem get_eq (v : Vector α n) (i : Fin n) : v.get i = getElem v i.val i.isLt := rfl

theorem forall_push {V : Fin (n + 1) → α → Prop} {v : Vector α n} {a : α} :
    (∀ i, V i ((v.push a).get i)) ↔ (∀ i : Fin n, V i.castSucc (v.get i)) ∧ V (Fin.last n) a := by
  rw [Fin.forall_fin_succ']
  simp [get_eq]

theorem ofFnM_eq_ok {r : Fin n → Except ε α} {v : Vector α n} : Vector.ofFnM r = .ok v ↔ ∀ i, r i = .ok (v.get i) := by
  induction n with
  | zero =>
    obtain rfl := v.eq_empty
    rw [Vector.ofFnM_zero]
    exact ⟨fun _ => nofun, fun _ => rfl⟩
  | succ n ih =>
    obtain ⟨v, a, rfl⟩ : ∃ w a, v = Vector.push w a := Vector.exists_push
    rw [forall_push (V := fun i x => r i = .ok x), ← ih, Vector.ofFnM_succ]
    rcases Vector.ofFnM (fun i : Fin n => r i.castSucc) with e | v'
    · constructor
      · nofun
      · rintro ⟨⟨⟩, -⟩
    · rcases r (Fin.last n) with e | a'
      · constructor
        · nofun
        · rintro ⟨-, ⟨⟩⟩
      · constructor
        · intro h
          obtain ⟨rfl, rfl⟩ := Vector.push_eq_push.1 (Except.ok.inj h).symm
          exact ⟨rfl, rfl⟩
        · rintro ⟨⟨⟩, ⟨⟩⟩
          rfl

theorem exists_ofFnM_eq_ok {r : Fin n → Except ε α} : (∃ v, Vector.ofFnM r = .ok v) ↔ ∀ i, ∃ a, r i = .ok a := by
  constructor
  · rintro ⟨v, hv⟩ i
    exact ⟨v.get i, ofFnM_eq_ok.1 hv i⟩
  · intro h
    choose f hf using h
    refine ⟨Vector.ofFn f, ofFnM_eq_ok.2 ?_⟩
    intro i
    rw [hf, get_eq, Vector.getElem_ofFn]

section
variable {β : Type*} [AddCommMonoid β]

/-- `for (…) acc += f(i)`, seen through a map `g` under which the accumulator's addition is one. -/
theorem foldl_add {ι A : Type*} (g : A → β) (f : ι → β) (step : A → ι → A) (h : ∀ a i, g (step a i) = g a + f i) (is : List ι)
    (a : A) : g (is.foldl step a) = g a + (is.map f).sum := by
  induction is generalizing a with
  | nil => simp
  | cons i is ih => rw [List.foldl_cons, ih, h, List.map_cons, List.sum_cons, add_assoc]

theorem foldl_finRange_add {A : Type*} (g : A → β) (f : Fin n → β) (step : A → Fin n → A)
    (h : ∀ a i, g (step a i) = g a + f i) (a : A) : g ((List.finRange n).foldl step a) = g a + ∑ i, f i := by
  rw [foldl_add g f step h, Fin.sum_univ_def]

end

section
variable {β : Type*} [CommMonoid β]

/-- `for (…) acc *= f(i)` -/
theorem foldl_mul {ι A : Type*} (g : A → β) (f : ι → β) (step : A → ι → A) (h : ∀ a i, g (step a i) = g a * f i) (is : List ι)
    (a : A) : g (is.foldl step a) = g a * (is.map f).prod := by
  induction is generalizing a with
  | nil => simp
  | cons i is ih => rw [List.foldl_cons, ih, h, List.map_cons, List.prod_cons, mul_assoc]

theorem foldl_finRange_mul {A : Type*} (g : A → β) (f : Fin n → β) (step : A → Fin n → A)
    (h : ∀ a i, g (step a i) = g a * f i) (a : A) : g ((List.finRange n).foldl step a) = g a * ∏ i, f i := by
  rw [foldl_mul g f step h, Fin.prod_univ_def]

end
end Loops
