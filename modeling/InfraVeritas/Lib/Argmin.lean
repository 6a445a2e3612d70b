import Mathlib.Data.List.Induction
import Mathlib.Order.Lattice

/-!
# The first entry of least key

A loop over a list that keeps the entry of least key so far, where entries may have no key. It ends with the
first entry of least key among those that have one (`isFirstMinAt_of_firstMin`), and with none only if no entry
has a key (`firstMin_eq_none`). In a list in increasing order the entries before and after one are those below
and above it (`isFirstMin_of_pairwise`).
-/

namespace Argmin

variable {α K : Type*} [LinearOrder K] {key : α → Option K} {l : List α} {x y : α}

/-- One round of the loop: an entry is taken only if its key is smaller. -/
def better (key : α → Option K) (best : Option (α × K)) (x : α) : Option (α × K) :=
  match key x, best with
  | none, _ => best
  | some k, none => some (x, k)
  | some k, some (y, k') => if k < k' then some (x, k) else some (y, k')

def firstMin (key : α → Option K) (l : List α) : Option (α × K) := l.foldl (better key) none

/-- `x` is in the list with key `k`, smaller than any before it and no larger than any after it. -/
def IsFirstMinAt (key : α → Option K) (l : List α) (x : α) (k : K) : Prop :=
  ∃ before after, l = before ++ x :: after ∧ key x = some k ∧
    (∀ y ∈ before, ∀ k', key y = some k' → k < k') ∧ ∀ y ∈ after, ∀ k', key y = some k' → k ≤ k'

def IsFirstMin (key : α → Option K) (l : List α) (x : α) : Prop := ∃ k, IsFirstMinAt key l x k

/-- A loop that keeps the best entry in a state of its own. -/
theorem foldl_eq_firstMin {σ : Type*} (view : Option (α × K) → σ) {step : σ → α → σ}
    (h : ∀ best x, step (view best) x = view (better key best x)) :
    l.foldl step (view none) = view (firstMin key l) := List.foldl_hom view h

theorem firstMin_append (l : List α) (x : α) : firstMin key (l ++ [x]) = better key (firstMin key l) x := by
  rw [firstMin, List.foldl_append]
  rfl

theorem firstMin_eq_none : firstMin key l = none ↔ ∀ x ∈ l, key x = none := by
  induction l using List.reverseRecOn with
  | nil => simp [firstMin]
  | append_singleton l x ih =>
    rw [firstMin_append, List.forall_mem_append, ← ih, List.forall_mem_singleton]
    rcases hk : key x with _ | k
    · simp [better, hk]
    · rcases firstMin key l with _ | ⟨y, k'⟩
      · simp [better, hk]
      · simp only [better, hk]
        split <;> simp

theorem isFirstMinAt_concat {k : K} (h : IsFirstMinAt key l y k) (hx : ∀ k', key x = some k' → k ≤ k') :
    IsFirstMinAt key (l ++ [x]) y k := by
  obtain ⟨before, after, rfl, hy, hb, ha⟩ := h
  refine ⟨before, after ++ [x], by simp, hy, hb, ?_⟩
  intro z hz k' hk'
  rcases List.mem_append.1 hz with hz | hz
  · exact ha z hz k' hk'
  · rw [List.mem_singleton.1 hz] at hk'
    exact hx k' hk'

theorem isFirstMinAt_last {k : K} (hk : key x = some k) (h : ∀ y ∈ l, ∀ k', key y = some k' → k < k') :
    IsFirstMinAt key (l ++ [x]) x k :=
  ⟨l, [], rfl, hk, h, fun _ hy => absurd hy List.not_mem_nil⟩

theorem IsFirstMinAt.le {k k' : K} (h : IsFirstMinAt key l x k) (hy : y ∈ l) (hk : key y = some k') : k ≤ k' := by
  obtain ⟨before, after, rfl, hx, hb, ha⟩ := h
  rcases List.mem_append.1 hy with hy | hy
  · exact (hb y hy k' hk).le
  · rcases List.mem_cons.1 hy with rfl | hy
    · rw [hx] at hk
      exact (Option.some.inj hk).le
    · exact ha y hy k' hk

/-- The loop ends with the first entry of least key. -/
theorem isFirstMinAt_of_firstMin {k : K} (h : firstMin key l = some (x, k)) : IsFirstMinAt key l x k := by
  induction l using List.reverseRecOn generalizing x k with
  | nil => cases h
  | append_singleton l z ih =>
    rw [firstMin_append] at h
    rcases hl : firstMin key l with _ | ⟨y, k'⟩
    · rw [hl] at h
      have hnone := firstMin_eq_none.1 hl
      rcases hz : key z with _ | kz
      · simp [better, hz] at h
      · simp only [better, hz, Option.some.injEq, Prod.mk.injEq] at h
        obtain ⟨rfl, rfl⟩ := h
        exact isFirstMinAt_last hz fun y hy k' hk' => absurd hk' (by simp [hnone y hy])
    · have hmin := ih hl
      rw [hl] at h
      rcases hz : key z with _ | kz
      · simp only [better, hz, Option.some.injEq, Prod.mk.injEq] at h
        obtain ⟨rfl, rfl⟩ := h
        exact isFirstMinAt_concat hmin fun k hk => absurd hk (by simp [hz])
      · simp only [better, hz] at h
        split at h
        case isTrue hlt =>
          cases h
          exact isFirstMinAt_last hz fun w hw k hk => hlt.trans_le (hmin.le hw hk)
        case isFalse hge =>
          cases h
          refine isFirstMinAt_concat hmin ?_
          intro k hk
          rw [hz] at hk
          cases hk
          exact not_lt.1 hge

theorem IsFirstMin.unique (hx : IsFirstMin key l x) (hy : IsFirstMin key l y) : x = y := by
  obtain ⟨k, before, after, hl, hkx, hb, ha⟩ := hx
  obtain ⟨k', before', after', hl', hky, hb', ha'⟩ := hy
  rw [hl] at hl'
  rcases List.append_eq_append_iff.1 hl' with ⟨mid, rfl, hmid⟩ | ⟨mid, rfl, hmid⟩
  · rcases mid with _ | ⟨z, mid⟩
    · exact (List.cons.inj hmid).1
    · obtain ⟨rfl, rfl⟩ := List.cons.inj hmid
      exact absurd (hb' x (by simp) k hkx) (not_lt.2 (ha y (by simp) k' hky))
  · rcases mid with _ | ⟨z, mid⟩
    · exact (List.cons.inj hmid).1.symm
    · obtain ⟨rfl, rfl⟩ := List.cons.inj hmid
      exact absurd (hb y (by simp) k' hky) (not_lt.2 (ha' x (by simp) k hkx))

theorem firstMin_eq_some (h : IsFirstMin key l x) : ∃ k, key x = some k ∧ firstMin key l = some (x, k) := by
  rcases hm : firstMin key l with _ | ⟨y, k⟩
  · obtain ⟨k, before, after, rfl, hk, -⟩ := h
    exact absurd (firstMin_eq_none.1 hm x (by simp)) (by simp [hk])
  · have hy := isFirstMinAt_of_firstMin hm
    obtain rfl : x = y := h.unique ⟨k, hy⟩
    obtain ⟨_, _, _, hk, -⟩ := hy
    exact ⟨k, hk, rfl⟩

theorem exists_isFirstMin (h : ∃ x ∈ l, key x ≠ none) : ∃ x, IsFirstMin key l x := by
  rcases hm : firstMin key l with _ | ⟨y, k⟩
  · obtain ⟨x, hx, hne⟩ := h
    exact absurd (firstMin_eq_none.1 hm x hx) hne
  · exact ⟨y, k, isFirstMinAt_of_firstMin hm⟩

theorem IsFirstMin.mem (h : IsFirstMin key l x) : x ∈ l := by
  obtain ⟨k, before, after, rfl, -⟩ := h
  simp

theorem isFirstMin_of_pairwise {ι : Type*} [Preorder ι] {f : α → ι} {k : K} (hl : l.Pairwise fun x y => f x < f y)
    (hx : x ∈ l) (hk : key x = some k) (hlt : ∀ y ∈ l, f y < f x → ∀ k', key y = some k' → k < k')
    (hle : ∀ y ∈ l, f x < f y → ∀ k', key y = some k' → k ≤ k') : IsFirstMin key l x := by
  obtain ⟨before, after, rfl⟩ := List.append_of_mem hx
  rw [List.pairwise_append, List.pairwise_cons] at hl
  obtain ⟨-, ⟨hafter, -⟩, hbefore⟩ := hl
  refine ⟨k, before, after, rfl, hk, ?_, ?_⟩
  · intro y hy
    exact hlt y (by simp [hy]) (hbefore y hy x List.mem_cons_self)
  · intro y hy
    exact hle y (by simp [hy]) (hafter y hy)

end Argmin
