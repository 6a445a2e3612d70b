import Mathlib.Data.List.Basic
import Mathlib.Algebra.Group.Nat.Defs

/-!
# Absorbing element by element and block by block

A sponge that adds one element after the other to its state, and permutes when `rate` of them are in and once more
at the end if a block was begun, does what one that adds whole blocks does (`run_eq_foldlM_blocks`). The permutation
is an action of any lawful monad, so the two call it on the same states in the same order.
-/

namespace Sponge

universe u v w

/-! ### Blocks -/

section Blocks
variable {α : Type w} {rate : Nat}

/-- The successive blocks of `rate` elements, the last one perhaps shorter. -/
def blocks (rate : Nat) (msg : List α) : List (List α) :=
  (List.range ((msg.length + rate - 1) / rate)).map fun k => (msg.drop (rate * k)).take rate

@[simp] theorem length_blocks (rate : Nat) (msg : List α) :
    (blocks rate msg).length = (msg.length + rate - 1) / rate := by
  rw [blocks, List.length_map, List.length_range]

theorem blocks_nil (hr : 0 < rate) : blocks rate ([] : List α) = [] := by
  rw [← List.length_eq_zero_iff, length_blocks, List.length_nil]
  exact Nat.div_eq_of_lt (by omega)

theorem blocks_of_lt {msg : List α} (h0 : msg ≠ []) (h : msg.length < rate) : blocks rate msg = [msg] := by
  have hpos : 0 < msg.length := List.length_pos_iff.2 h0
  have hone : (msg.length + rate - 1) / rate = 1 := by
    rw [Nat.div_eq_iff (by omega)]
    omega
  rw [blocks, hone, List.range_one, List.map_singleton, Nat.mul_zero, List.drop_zero, List.take_of_length_le (by omega)]

theorem blocks_append (hr : 0 < rate) {block : List α} (h : block.length = rate) (msg : List α) :
    blocks rate (block ++ msg) = block :: blocks rate msg := by
  have hlen : ((block ++ msg).length + rate - 1) / rate = (msg.length + rate - 1) / rate + 1 := by
    rw [List.length_append, h, ← Nat.add_div_right _ hr]
    congr 1
    omega
  rw [blocks, hlen, List.range_succ_eq_map, List.map_cons, List.map_map, Nat.mul_zero, List.drop_zero, List.take_left' h]
  congr 1
  refine List.map_congr_left ?_
  intro k _
  rw [Function.comp_apply, Nat.succ_eq_add_one, Nat.mul_succ, Nat.add_comm, ← List.drop_drop, List.drop_left' h]

theorem blocks_map {β : Type w} (f : α → β) (msg : List α) :
    blocks rate (msg.map f) = (blocks rate msg).map (List.map f) := by
  rw [blocks, blocks, List.length_map, List.map_map]
  refine List.map_congr_left ?_
  intro k _
  rw [Function.comp_apply, List.map_take, List.map_drop]

end Blocks

/-! ### The two machines -/

variable {m : Type u → Type v} [Monad m] {S : Type u} {α : Type w} (rate : Nat) (add : Nat → α → S → S)
  (permute : S → m S)

/-- Add an element at its position of the block; permute when the block is full. -/
def absorb (st : S × Nat) (a : α) : m (S × Nat) :=
  let s := add st.2 a st.1
  if st.2 + 1 = rate then do
    let s ← permute s
    return (s, 0)
  else return (s, st.2 + 1)

/-- Permute once more if a block was begun. -/
def finish (st : S × Nat) : m S := if st.2 ≠ 0 then permute st.1 else return st.1

def run (s : S) (msg : List α) : m S := do
  let st ← msg.foldlM (absorb rate add permute) (s, 0)
  finish permute st

/-- Add the elements of a block from position `i` on. -/
def addFrom (add : Nat → α → S → S) : Nat → List α → S → S
  | _, [], s => s
  | i, a :: as, s => addFrom add (i + 1) as (add i a s)

def absorbBlock (s : S) (block : List α) : m S := permute (addFrom add 0 block s)

variable {rate add permute} [LawfulMonad m]

/-- Within a block nothing is permuted. -/
theorem foldlM_absorb_of_lt {s : S} {i : Nat} {as : List α} (h : i + as.length < rate) :
    as.foldlM (absorb rate add permute) (s, i) = (pure (addFrom add i as s, i + as.length) : m (S × Nat)) := by
  induction as generalizing s i with
  | nil => rfl
  | cons a as ih =>
    rw [List.length_cons] at h
    have hne : ¬ i + 1 = rate := by omega
    rw [List.foldlM_cons, absorb, if_neg hne, pure_bind, ih (by omega), addFrom, List.length_cons, Nat.add_right_comm,
      Nat.add_assoc]

/-- The element that fills the block is followed by a permutation. -/
theorem foldlM_absorb_of_eq {s : S} {i : Nat} {as : List α} (h0 : as ≠ []) (h : i + as.length = rate) :
    as.foldlM (absorb rate add permute) (s, i) = (do return (← permute (addFrom add i as s), 0) : m (S × Nat)) := by
  induction as generalizing s i with
  | nil => exact absurd rfl h0
  | cons a as ih =>
    rw [List.length_cons] at h
    rw [List.foldlM_cons, absorb]
    rcases as with _ | ⟨b, as⟩
    · have heq : i + 1 = rate := h
      rw [if_pos heq]
      simp only [List.foldlM_nil, bind_pure, addFrom]
    · rw [List.length_cons] at h
      have hne : ¬ i + 1 = rate := by omega
      rw [if_neg hne, pure_bind, ih (List.cons_ne_nil _ _) (by rw [List.length_cons]; omega)]
      rfl

theorem run_of_lt {s : S} {msg : List α} (h0 : msg ≠ []) (h : msg.length < rate) :
    run rate add permute s msg = absorbBlock add permute s msg := by
  have hne : msg.length ≠ 0 := fun hz => h0 (List.length_eq_zero_iff.1 hz)
  rw [run, foldlM_absorb_of_lt (by rwa [Nat.zero_add]), pure_bind, finish, Nat.zero_add, if_pos hne, absorbBlock]

theorem run_append (hr : 0 < rate) {s : S} {block : List α} (h : block.length = rate) (msg : List α) :
    run rate add permute s (block ++ msg) =
      absorbBlock add permute s block >>= fun s => run rate add permute s msg := by
  have h0 : block ≠ [] := by
    rintro rfl
    rw [List.length_nil] at h
    omega
  rw [run, List.foldlM_append, foldlM_absorb_of_eq h0 (by rwa [Nat.zero_add])]
  simp only [bind_assoc, pure_bind, run, absorbBlock]

/-- Element by element or block by block: the same calls of the permutation, on the same states. -/
theorem run_eq_foldlM_blocks (hr : 0 < rate) (s : S) (msg : List α) :
    run rate add permute s msg = (blocks rate msg).foldlM (absorbBlock add permute) s := by
  induction h : msg.length using Nat.strongRecOn generalizing s msg with
  | ind n ih =>
    by_cases h0 : msg = []
    · rw [h0, blocks_nil hr, run, List.foldlM_nil, pure_bind]
      rfl
    · by_cases hlt : msg.length < rate
      · rw [run_of_lt h0 hlt, blocks_of_lt h0 hlt, List.foldlM_cons]
        simp only [List.foldlM_nil, bind_pure]
      · have htake : (msg.take rate).length = rate := List.length_take_of_le (by omega)
        have hrec := fun s => ih (msg.drop rate).length (by rw [List.length_drop]; omega) s (msg.drop rate) rfl
        rw [← List.take_append_drop rate msg, run_append hr htake, blocks_append hr htake, List.foldlM_cons]
        exact congrArg _ (funext hrec)

/-- A loop whose steps commute with a map of the states commutes with it. -/
theorem foldlM_map_state {S' : Type u} {f : S → S'} {step : S → α → m S} {step' : S' → α → m S'}
    (h : ∀ a s, step' (f s) a = f <$> step s a) (s : S) (as : List α) :
    as.foldlM step' (f s) = f <$> as.foldlM step s := by
  induction as generalizing s with
  | nil => simp only [List.foldlM_nil, map_pure]
  | cons a as ih =>
    rw [List.foldlM_cons, List.foldlM_cons, h, bind_map_left, map_bind]
    exact congrArg _ (funext ih)

end Sponge
