import Mathlib.Algebra.BigOperators.Group.List.Basic
import Mathlib.Algebra.Group.Basic
import Mathlib.Data.List.Induction

/-!
# Gap sequences

The gap sequence of `t₁, …, tₙ` in an additive group is `0, t₂ - t₁, …, tₙ - tₙ₋₁`. It grows at the
right end like an append-only log (`gaps_concat`) and its sum telescopes (`sum_gaps`).
-/

namespace Gaps

variable {α : Type*} [AddCommGroup α]

/-- The differences of consecutive elements of `p, t₁, …, tₙ`. -/
def gapsFrom (p : α) : List α → List α
  | [] => []
  | t :: ts => (t - p) :: gapsFrom t ts

/-- The gap sequence of a list: the first gap is `0`. -/
def gaps : List α → List α
  | [] => []
  | t :: ts => 0 :: gapsFrom t ts

@[simp] theorem length_gapsFrom (p : α) (ts : List α) : (gapsFrom p ts).length = ts.length := by
  induction ts generalizing p with
  | nil => rfl
  | cons t ts ih => simp [gapsFrom, ih]

@[simp] theorem length_gaps (ts : List α) : (gaps ts).length = ts.length := by
  cases ts <;> simp [gaps]

theorem gapsFrom_concat (p t : α) (ts : List α) :
    gapsFrom p (ts ++ [t]) = gapsFrom p ts ++ [t - ts.getLastD p] := by
  induction ts generalizing p with
  | nil => rfl
  | cons u ts ih => rw [List.cons_append, gapsFrom, ih, gapsFrom, List.cons_append, List.getLastD_cons]

/-- Appending `t` appends the gap to the last element, `0` when there is none. -/
theorem gaps_concat (ts : List α) (t : α) :
    gaps (ts ++ [t]) = gaps ts ++ [ts.getLast?.elim 0 (t - ·)] := by
  cases ts with
  | nil => rfl
  | cons u ts =>
    rw [List.cons_append, gaps, gapsFrom_concat, gaps, List.cons_append, List.getLast?_cons,
      Option.elim_some, List.getLastD_eq_getLast?]

theorem sum_gapsFrom (p : α) (ts : List α) : (gapsFrom p ts).sum = ts.getLastD p - p := by
  induction ts generalizing p with
  | nil => simp [gapsFrom]
  | cons t ts ih =>
    rw [gapsFrom, List.sum_cons, ih, List.getLastD_cons, add_comm, sub_add_sub_cancel]

/-- The gaps add up to the distance from the first element to the last. -/
theorem sum_gaps {ts : List α} {a b : α} (ha : ts.head? = some a) (hb : ts.getLast? = some b) :
    (gaps ts).sum = b - a := by
  cases ts with
  | nil => cases ha
  | cons t ts =>
    rw [List.head?_cons, Option.some.injEq] at ha
    rw [List.getLast?_cons, Option.some.injEq] at hb
    rw [gaps, List.sum_cons, zero_add, sum_gapsFrom, List.getLastD_eq_getLast?, hb, ha]

end Gaps
