import Mathlib.Algebra.BigOperators.Group.List.Basic
import Mathlib.Algebra.GroupWithZero.Nat
import Mathlib.Data.List.Nodup

/-!
# Keyed lists

A finite map in insertion order, as a list of values that carry their key: lookup (`find`), update in
place (`modify`), and insertion at the end or replacement (`save`). Lookup and membership say the same when
the keys are distinct (`find_eq_some_iff`). Events that are counted per key are all counted once
(`sum_countP`).
-/

namespace Keyed

variable {α κ : Type*} [DecidableEq κ] (key : α → κ)

def find (xs : List α) (k : κ) : Option α := xs.find? fun x => key x = k

/-- Replace the values with key `k` by their image under `f`. -/
def modify (xs : List α) (k : κ) (f : α → α) : List α := xs.map fun x => if key x = k then f x else x

/-- Insert `x`, or put it in the place of the value with its key. -/
def save (xs : List α) (x : α) : List α :=
  if (find key xs (key x)).isSome then modify key xs (key x) fun _ => x else xs ++ [x]

variable {key} {xs ys : List α} {k k' : κ} {f : α → α} {x y : α}

theorem key_of_find (h : find key xs k = some x) : key x = k := by
  have hx := List.find?_some h
  exact of_decide_eq_true hx

theorem mem_of_find (h : find key xs k = some x) : x ∈ xs := List.mem_of_find?_eq_some h

theorem find_eq_none_iff : find key xs k = none ↔ k ∉ xs.map key := by
  rw [find, List.find?_eq_none, List.mem_map]
  simp only [decide_eq_true_eq, not_exists, not_and]

theorem find_eq_some_iff (h : (xs.map key).Nodup) : find key xs k = some x ↔ x ∈ xs ∧ key x = k := by
  refine ⟨fun hf => ⟨mem_of_find hf, key_of_find hf⟩, fun ⟨hx, hk⟩ => ?_⟩
  rcases hf : find key xs k with _ | y
  · exact absurd (List.mem_map.2 ⟨x, hx, hk⟩) (find_eq_none_iff.1 hf)
  · have hxy : y = x := List.inj_on_of_nodup_map h (mem_of_find hf) hx ((key_of_find hf).trans hk.symm)
    rw [hxy]

theorem find_concat (h : find key xs (key x) = none) :
    find key (xs ++ [x]) k = if k = key x then some x else find key xs k := by
  rw [find, List.find?_append]
  split
  · next hk =>
    subst hk
    rw [show xs.find? (fun y => key y = key x) = none from h]
    simp
  · next hk =>
    rcases hf : xs.find? (fun y => key y = k) with _ | y
    · simp [find, hf, Ne.symm hk]
    · simp [find, hf]

theorem map_key_modify (hf : ∀ x, key (f x) = key x) : (modify key xs k f).map key = xs.map key := by
  rw [modify, List.map_map]
  refine List.map_congr_left ?_
  intro x _
  rw [Function.comp_apply]
  split
  · exact hf x
  · rfl

theorem find_modify (hf : ∀ x, key (f x) = key x) :
    find key (modify key xs k f) k' = (find key xs k').map fun x => if k' = k then f x else x := by
  have hcomp : (fun y : α => decide (key y = k')) ∘ (fun x => if key x = k then f x else x) =
      fun y => decide (key y = k') := by
    funext y
    rw [Function.comp_apply]
    split
    · rw [hf]
    · rfl
  rw [find, modify, List.find?_map, hcomp, find]
  rcases h : xs.find? fun x => decide (key x = k') with _ | y
  · rfl
  · rw [Option.map_some, Option.map_some, of_decide_eq_true (List.find?_some (p := fun x => decide (key x = k')) h)]

theorem find_modify_self (hf : ∀ x, key (f x) = key x) (h : find key xs k = some x) :
    find key (modify key xs k f) k = some (f x) := by
  rw [find_modify hf, h, Option.map_some, if_pos rfl]

theorem find_modify_ne (hf : ∀ x, key (f x) = key x) (hk : k' ≠ k) :
    find key (modify key xs k f) k' = find key xs k' := by
  rw [find_modify hf]
  simp only [if_neg hk, Option.map_id']

theorem modify_append : modify key (xs ++ ys) k f = modify key xs k f ++ modify key ys k f := List.map_append

theorem modify_of_notMem (h : k ∉ xs.map key) : modify key xs k f = xs := by
  rw [modify]
  conv_rhs => rw [← List.map_id xs]
  refine List.map_congr_left fun x hx => if_neg fun hk => h ?_
  exact List.mem_map.2 ⟨x, hx, hk⟩

theorem mem_modify {y : α} (h : y ∈ modify key xs k f) : ∃ x ∈ xs, y = if key x = k then f x else x := by
  obtain ⟨x, hx, rfl⟩ := List.mem_map.1 h
  exact ⟨x, hx, rfl⟩

theorem save_of_none (h : find key xs (key x) = none) : save key xs x = xs ++ [x] := by
  simp [save, h]

/-- Saving an updated value is an update in place. -/
theorem save_eq_modify (hn : (xs.map key).Nodup) (h : find key xs k = some y) (hf : key (f y) = k) :
    save key xs (f y) = modify key xs k f := by
  rw [save, hf, h, Option.isSome_some, if_pos rfl]
  refine List.map_congr_left ?_
  intro x hx
  split
  · next hk =>
    have hxy : x = y := List.inj_on_of_nodup_map hn hx (mem_of_find h) (hk.trans (key_of_find h).symm)
    rw [hxy]
  · rfl

theorem countP_modify (hn : (xs.map key).Nodup) (h : find key xs k = some y) (p : α → Bool) :
    (modify key xs k f).countP p + (if p y then 1 else 0) = xs.countP p + if p (f y) then 1 else 0 := by
  induction xs with
  | nil => cases h
  | cons x xs ih =>
    rw [List.map_cons, List.nodup_cons] at hn
    by_cases hk : key x = k
    · have hxy : x = y := by simpa [find, hk] using h
      subst hxy
      have hrest : modify key xs k f = xs := modify_of_notMem (hk ▸ hn.1)
      rw [modify, List.map_cons, if_pos hk, ← modify, hrest, List.countP_cons, List.countP_cons]
      omega
    · have hxs : find key xs k = some y := by simpa [find, hk] using h
      rw [modify, List.map_cons, if_neg hk, ← modify, List.countP_cons, List.countP_cons]
      have := ih hn.2 hxs
      omega

/-- Counted by key, every event is counted once. -/
theorem sum_countP {β : Type*} {g : β → κ} {ks : List κ} (hn : ks.Nodup) (p : β → Bool) {es : List β}
    (h : ∀ e ∈ es, g e ∈ ks) : (ks.map fun k => es.countP fun e => g e = k && p e).sum = es.countP p := by
  induction es with
  | nil => simp
  | cons e es ih =>
    have hone : (ks.map fun k => if (g e = k && p e) = true then 1 else 0).sum = if p e = true then 1 else 0 := by
      have hcount : ks.count (g e) = 1 := List.count_eq_one_of_mem hn (h e (by simp))
      rw [List.sum_map_eq_nsmul_single (g e) _ (by
        intro k hk _
        simp [Ne.symm hk]), hcount]
      simp
    have hrest := ih fun e' he => h e' (by simp [he])
    simp only [List.countP_cons, List.sum_map_add]
    rw [hrest, hone]

end Keyed
