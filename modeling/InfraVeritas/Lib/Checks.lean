import Mathlib.Logic.Basic

/-!
# Guarded computations in `Except`

A function that validates and then acts is a chain of `revertIf` guards and fallible calls. The
lemmas below turn `f x = .ok y` for such a chain into the conjunction of what every guard lets
through, so that a caller of `f` never unfolds it.
-/

namespace Checks

universe u v

variable {ε ε' : Type u} {α β : Type v}

/-- Fail with `e` when `c` holds. -/
def revertIf (c : Prop) [Decidable c] (e : ε) : Except ε PUnit :=
  if c then .error e else .ok ()

@[simp] theorem revertIf_eq_ok {c : Prop} [Decidable c] {e : ε} {u : PUnit} :
    revertIf c e = .ok u ↔ ¬ c := by
  unfold revertIf; split <;> simp_all

@[simp] theorem revertIf_of_not {c : Prop} [Decidable c] {e : ε} (h : ¬ c) : revertIf c e = .ok () := if_neg h

@[simp] theorem revertIf_of {c : Prop} [Decidable c] {e : ε} (h : c) : revertIf c e = .error e := if_pos h

theorem ok_bind (a : α) (f : α → Except ε β) : (Except.ok a >>= f) = f a := rfl

theorem bind_eq_ok {x : Except ε α} {f : α → Except ε β} {b : β} :
    (x >>= f) = .ok b ↔ ∃ a, x = .ok a ∧ f a = .ok b := by
  cases x <;> simp [bind, Except.bind]

theorem pure_eq_ok {a b : α} : (pure a : Except ε α) = .ok b ↔ a = b := by
  simp [pure, Except.pure]

theorem mapError_ok (g : ε → ε') (a : α) : (Except.ok a : Except ε α).mapError g = .ok a := rfl

theorem mapError_error (g : ε → ε') (e : ε) : (Except.error e : Except ε α).mapError g = .error (g e) := rfl

theorem mapError_eq_ok {g : ε → ε'} {x : Except ε α} {a : α} : x.mapError g = .ok a ↔ x = .ok a := by
  cases x <;> simp [mapError_ok, mapError_error]

theorem revertIf_eq_error {c : Prop} [Decidable c] {e e' : ε} : revertIf c e = .error e' ↔ c ∧ e = e' := by
  unfold revertIf; split <;> simp_all

theorem bind_eq_error {x : Except ε α} {f : α → Except ε β} {e : ε} :
    (x >>= f) = .error e ↔ x = .error e ∨ ∃ a, x = .ok a ∧ f a = .error e := by
  cases x <;> simp [bind, Except.bind]

theorem pure_ne_error {a : α} {e : ε} : ¬ (pure a : Except ε α) = .error e := by
  simp [pure, Except.pure]

theorem mapError_eq_error {g : ε → ε'} {x : Except ε α} {e : ε'} :
    x.mapError g = .error e ↔ ∃ e', x = .error e' ∧ g e' = e := by
  cases x <;> simp [mapError_ok, mapError_error]

/-- The unit result of a guard carries nothing. -/
theorem exists_punit {p : PUnit → Prop} : (∃ u, p u) ↔ p () :=
  ⟨fun ⟨_, h⟩ => h, fun h => ⟨_, h⟩⟩

/-! ### Two computations -/

variable {α' β' : Type v}

/-- Both fail with the same error, or both succeed with related results. -/
inductive SameResult (R : α → α' → Prop) : Except ε α → Except ε α' → Prop
  | error (e : ε) : SameResult R (.error e) (.error e)
  | ok {a : α} {a' : α'} (h : R a a') : SameResult R (.ok a) (.ok a')

theorem SameResult.bind {R : β → β' → Prop} (x : Except ε α) {f : α → Except ε β} {g : α → Except ε β'}
    (h : ∀ a, SameResult R (f a) (g a)) : SameResult R (x >>= f) (x >>= g) := by
  cases x with
  | error e => exact .error e
  | ok a => exact h a

/-! ### Chains of guards -/

/-- The error of the first check that does not hold. -/
def firstFailure (cs : List (Bool × ε)) : Option ε := (cs.find? fun c => !c.1).map (·.2)

theorem firstFailure_eq_none {cs : List (Bool × ε)} : firstFailure cs = none ↔ ∀ c ∈ cs, c.1 = true := by
  simp [firstFailure]

theorem firstFailure_eq_some {cs : List (Bool × ε)} {e : ε} : firstFailure cs = some e ↔
    ∃ before after, cs = before ++ (false, e) :: after ∧ ∀ c ∈ before, c.1 = true := by
  rw [firstFailure, Option.map_eq_some_iff]
  simp only [List.find?_eq_some_iff_append, Bool.not_eq_true', Bool.not_not]
  constructor
  · rintro ⟨⟨b, e⟩, ⟨rfl, before, after, rfl, hbefore⟩, rfl⟩
    exact ⟨before, after, rfl, fun c hc => by simpa using hbefore c hc⟩
  · rintro ⟨before, after, rfl, hbefore⟩
    exact ⟨(false, e), ⟨rfl, before, after, rfl, fun c hc => by simpa using hbefore c hc⟩, rfl⟩

/-- `x` fails with the first failure of `cs`, and is `r` when there is none. -/
def Guarded {α : Type} (r : α) (cs : List (Bool × ε)) (x : Except ε α) : Prop := x = (firstFailure cs).elim (.ok r) .error

namespace Guarded
variable {α : Type} {r : α} {cs : List (Bool × ε)} {x : Except ε α}

theorem nil (r : α) : Guarded r [] (.ok r : Except ε α) := rfl

theorem cons {b : Bool} {e : ε} {c : Prop} [Decidable c] (hb : b = true ↔ ¬ c) (h : ¬ c → Guarded r cs x) :
    Guarded r ((b, e) :: cs) (revertIf c e >>= fun _ => x) := by
  by_cases hc : c
  · have hfalse : b = false := Bool.eq_false_iff.2 fun ht => hb.1 ht hc
    rw [hfalse, revertIf_of hc]
    rfl
  · rw [hb.2 hc, revertIf_of_not hc]
    exact h hc

theorem error (h : Guarded r cs x) {e : ε} (hf : firstFailure cs = some e) : x = .error e := by
  rw [h, hf]
  rfl

theorem eq_ok_iff (h : Guarded r cs x) {y : α} : x = .ok y ↔ (∀ c ∈ cs, c.1 = true) ∧ y = r := by
  rw [← firstFailure_eq_none, h]
  cases firstFailure cs <;> simp [eq_comm]

theorem eq_error_iff (h : Guarded r cs x) {e : ε} :
    x = .error e ↔ ∃ before after, cs = before ++ (false, e) :: after ∧ ∀ c ∈ before, c.1 = true := by
  rw [← firstFailure_eq_some, h]
  cases firstFailure cs <;> simp

end Guarded

end Checks
