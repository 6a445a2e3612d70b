import Mathlib.Algebra.Polynomial.Roots
import Mathlib.Algebra.Polynomial.Degree.Lemmas

/-!
# The sumcheck protocol

The claim is about the sum of `G` over the corners of a cube. In every round the prover sends a polynomial, the verifier
checks that its values at 0 and 1 add up to the claim, draws a challenge, and goes on with the value there as the claim
about the sum with one coordinate fixed; in the end a single value of `G` is left (`Accepts`). `accepts_of_honest`:
the partial sums themselves are accepted. A false claim is accepted only if some challenge is among the `d` points at which
a wrong polynomial agrees with the right one; `card_fooled_le` counts these, for a prover that answers to the challenges
as it likes.
-/

namespace Sumcheck
open Polynomial

variable {K : Type*} [Field K]

/-! ### The cube -/

/-- The corners of the cube, as lists of coordinates. -/
def cube (K : Type*) [Field K] : Nat → List (List K)
  | 0 => [[]]
  | n + 1 => (cube K n).map (0 :: ·) ++ (cube K n).map (1 :: ·)

def cubeSum (n : Nat) (G : List K → K) : K := ((cube K n).map G).sum

variable {n d : Nat} {G : List K → K}

theorem length_of_mem_cube {n : Nat} {xs : List K} (h : xs ∈ cube K n) : xs.length = n := by
  induction n generalizing xs with
  | zero => simp_all [cube]
  | succ n ih =>
    simp only [cube, List.mem_append, List.mem_map] at h
    obtain ⟨xs, hxs, rfl⟩ | ⟨xs, hxs, rfl⟩ := h <;> simp [ih hxs]

@[simp] theorem cubeSum_zero (G : List K → K) : cubeSum 0 G = G [] := by simp [cubeSum, cube]

theorem cubeSum_succ (n : Nat) (G : List K → K) :
    cubeSum (n + 1) G = cubeSum n (fun xs => G (0 :: xs)) + cubeSum n (fun xs => G (1 :: xs)) := by
  simp [cubeSum, cube, Function.comp_def]

theorem cubeSum_add (n : Nat) (G H : List K → K) : cubeSum n (fun xs => G xs + H xs) = cubeSum n G + cubeSum n H := by
  simp [cubeSum, List.sum_map_add]

theorem cubeSum_mul_right (n : Nat) (G : List K → K) (c : K) : cubeSum n (fun xs => G xs * c) = cubeSum n G * c := by
  simp [cubeSum, List.sum_map_mul_right]

/-! ### Degrees -/

/-- As a function of any one of its `n` coordinates, `G` is a polynomial of degree at most `d`. -/
def DegreeLE (d n : Nat) (G : List K → K) : Prop :=
  ∀ pre suf : List K, pre.length + suf.length + 1 = n →
    ∃ q : K[X], q.natDegree ≤ d ∧ ∀ x, q.eval x = G (pre ++ x :: suf)

theorem DegreeLE.cons (h : DegreeLE d (n + 1) G) (a : K) : DegreeLE d n fun xs => G (a :: xs) := by
  intro pre suf hlen
  exact h (a :: pre) suf (by rw [List.length_cons]; omega)

theorem DegreeLE.add {H : List K → K} (hG : DegreeLE d n G) (hH : DegreeLE d n H) :
    DegreeLE d n fun xs => G xs + H xs := by
  intro pre suf hlen
  obtain ⟨q, hq, hqe⟩ := hG pre suf hlen
  obtain ⟨r, hr, hre⟩ := hH pre suf hlen
  exact ⟨q + r, (natDegree_add_le q r).trans (max_le hq hr), fun x => by rw [eval_add, hqe, hre]⟩

theorem DegreeLE.mul {e : Nat} {H : List K → K} (hG : DegreeLE d n G) (hH : DegreeLE e n H) :
    DegreeLE (d + e) n fun xs => G xs * H xs := by
  intro pre suf hlen
  obtain ⟨q, hq, hqe⟩ := hG pre suf hlen
  obtain ⟨r, hr, hre⟩ := hH pre suf hlen
  exact ⟨q * r, natDegree_mul_le.trans (Nat.add_le_add hq hr), fun x => by rw [eval_mul, hqe, hre]⟩

theorem DegreeLE.const (c : K) : DegreeLE d n fun _ => c := by
  intro _ _ _
  exact ⟨C c, (natDegree_C c).le.trans (Nat.zero_le d), fun x => eval_C ..⟩

/-- The partial sum that an honest prover sends. -/
theorem DegreeLE.exists_round (h : DegreeLE d (n + 1) G) :
    ∃ s : K[X], s.natDegree ≤ d ∧ ∀ x, s.eval x = cubeSum n fun xs => G (x :: xs) := by
  have hrows (rows : List (List K)) (hlen : ∀ xs ∈ rows, xs.length = n) :
      ∃ s : K[X], s.natDegree ≤ d ∧ ∀ x, s.eval x = (rows.map fun xs => G (x :: xs)).sum := by
    induction rows with
    | nil => exact ⟨0, by simp, by simp⟩
    | cons xs rows ih =>
      obtain ⟨hxs, hrest⟩ := List.forall_mem_cons.1 hlen
      obtain ⟨s, hs, heval⟩ := ih hrest
      obtain ⟨q, hq, hqe⟩ := h [] xs (by rw [List.length_nil, hxs]; omega)
      refine ⟨q + s, (natDegree_add_le q s).trans (max_le hq hs), ?_⟩
      intro x
      rw [eval_add, heval, hqe, List.nil_append, List.map_cons, List.sum_cons]
  exact hrows _ fun xs hxs => length_of_mem_cube hxs

/-- Two polynomials of degree at most `d` agree at `d` points at most. -/
theorem card_agree_le [DecidableEq K] {g s : K[X]} (hg : g.natDegree ≤ d) (hs : s.natDegree ≤ d) (hne : g ≠ s)
    (S : Finset K) : (S.filter fun r => g.eval r = s.eval r).card ≤ d := by
  have hsub : g - s ≠ 0 := sub_ne_zero.2 hne
  have hroots : S.filter (fun r => g.eval r = s.eval r) ⊆ (g - s).roots.toFinset := by
    intro r hr
    rw [Multiset.mem_toFinset, mem_roots hsub, IsRoot.def, eval_sub, (Finset.mem_filter.1 hr).2, sub_self]
  calc (S.filter fun r => g.eval r = s.eval r).card ≤ (g - s).roots.toFinset.card := Finset.card_le_card hroots
    _ ≤ Multiset.card (g - s).roots := Multiset.toFinset_card_le _
    _ ≤ (g - s).natDegree := card_roots' _
    _ ≤ d := (natDegree_sub_le g s).trans (max_le hg hs)

/-! ### The protocol -/

/-- The verifier accepts the polynomials at its challenges, and the claim that is left is `final`. -/
def Accepts (d : Nat) : K → List (K[X] × K) → K → Prop
  | claim, [], final => claim = final
  | claim, (g, r) :: rounds, final => g.natDegree ≤ d ∧ g.eval 0 + g.eval 1 = claim ∧ Accepts d (g.eval r) rounds final

/-- Every polynomial is the sum over the coordinates that are still free. -/
def Honest : (List K → K) → List (K[X] × K) → Prop
  | _, [] => True
  | G, (g, r) :: rounds =>
    (∀ x, g.eval x = cubeSum rounds.length fun xs => G (x :: xs)) ∧ Honest (fun xs => G (r :: xs)) rounds

theorem accepts_of_honest {rounds : List (K[X] × K)} (hdeg : ∀ m ∈ rounds, m.1.natDegree ≤ d) (h : Honest G rounds) :
    Accepts d (cubeSum rounds.length G) rounds (G (rounds.map (·.2))) := by
  induction rounds generalizing G with
  | nil => exact cubeSum_zero G
  | cons m rounds ih =>
    obtain ⟨g, r⟩ := m
    obtain ⟨hm, hrest⟩ := List.forall_mem_cons.1 hdeg
    obtain ⟨hg, hh⟩ := h
    refine ⟨hm, ?_, ?_⟩
    · rw [hg, hg, List.length_cons, cubeSum_succ]
    · rw [hg]
      exact ih hrest hh

/-- The rounds with a prover whose polynomials depend on the challenges drawn before. -/
def play : (List K → K[X]) → List K → List (K[X] × K)
  | _, [] => []
  | strategy, r :: rs => (strategy [], r) :: play (fun rs => strategy (r :: rs)) rs

@[simp] theorem map_snd_play (strategy : List K → K[X]) (rs : List K) : (play strategy rs).map (·.2) = rs := by
  induction rs generalizing strategy with
  | nil => rfl
  | cons r rs ih => simp [play, ih]

@[simp] theorem length_play (strategy : List K → K[X]) (rs : List K) : (play strategy rs).length = rs.length := by
  rw [← List.length_map (·.2), map_snd_play]

theorem exists_of_mem_play {strategy : List K → K[X]} {rs : List K} {m : K[X] × K} (h : m ∈ play strategy rs) :
    ∃ pre, m.1 = strategy pre := by
  induction rs generalizing strategy with
  | nil => cases h
  | cons r rs ih =>
    rcases List.mem_cons.1 h with rfl | h
    · exact ⟨[], rfl⟩
    · obtain ⟨pre, hpre⟩ := ih h
      exact ⟨r :: pre, hpre⟩

theorem eq_play {strategy : List K → K[X]} {rs : List K} {rounds : List (K[X] × K)} (hlen : rounds.length = rs.length)
    (h : ∀ i (hi : i < rounds.length) (hi' : i < rs.length), rounds[i] = (strategy (rs.take i), rs[i])) :
    rounds = play strategy rs := by
  induction rs generalizing strategy rounds with
  | nil => exact List.eq_nil_of_length_eq_zero hlen
  | cons r rs ih =>
    obtain ⟨m, rounds, rfl⟩ := List.exists_cons_of_length_eq_add_one hlen
    have hm : m = (strategy [], r) := h 0 (Nat.succ_pos _) (Nat.succ_pos _)
    rw [play, hm, ih (Nat.succ.inj hlen)]
    intro i hi hi'
    exact h (i + 1) (Nat.succ_lt_succ hi) (Nat.succ_lt_succ hi')

/-! ### Counting the challenges -/

section
variable [DecidableEq K]

/-- The challenges of `n` rounds, all from `S`. -/
def tapes (S : Finset K) : Nat → Finset (List K)
  | 0 => {[]}
  | n + 1 => S.biUnion fun r => (tapes S n).image (r :: ·)

variable {S : Finset K}

omit [Field K] in
theorem mem_tapes {n : Nat} {rs : List K} : rs ∈ tapes S n ↔ rs.length = n ∧ ∀ r ∈ rs, r ∈ S := by
  induction n generalizing rs with
  | zero =>
    rw [tapes, Finset.mem_singleton, List.length_eq_zero_iff]
    constructor
    · rintro rfl
      exact ⟨rfl, nofun⟩
    · exact And.left
  | succ n ih =>
    simp only [tapes, Finset.mem_biUnion, Finset.mem_image, ih]
    constructor
    · rintro ⟨r, hr, rs, ⟨rfl, hrs⟩, rfl⟩
      exact ⟨rfl, List.forall_mem_cons.2 ⟨hr, hrs⟩⟩
    · rintro ⟨hlen, hrs⟩
      obtain ⟨r, rs, rfl⟩ := List.exists_cons_of_length_eq_add_one hlen
      obtain ⟨hr, hrs⟩ := List.forall_mem_cons.1 hrs
      exact ⟨r, hr, rs, ⟨Nat.succ.inj hlen, hrs⟩, rfl⟩

omit [Field K] in
theorem card_filter_tapes_succ_le (n : Nat) (p : List K → Prop) [DecidablePred p] :
    ((tapes S (n + 1)).filter p).card ≤ ∑ r ∈ S, ((tapes S n).filter fun rs => p (r :: rs)).card := by
  rw [tapes, Finset.filter_biUnion]
  refine Finset.card_biUnion_le.trans (Finset.sum_le_sum ?_)
  intro r _
  rw [Finset.filter_image]
  exact Finset.card_image_le

omit [Field K] in
theorem card_tapes_le (S : Finset K) (n : Nat) : (tapes S n).card ≤ S.card ^ n := by
  induction n with
  | zero => exact le_rfl
  | succ n ih =>
    calc (tapes S (n + 1)).card ≤ ∑ r ∈ S, ((tapes S n).image (r :: ·)).card := Finset.card_biUnion_le
      _ ≤ ∑ _r ∈ S, S.card ^ n := Finset.sum_le_sum fun _ _ => Finset.card_image_le.trans ih
      _ = S.card ^ (n + 1) := by rw [Finset.sum_const, smul_eq_mul, pow_succ']

open Classical in
/-- The challenges at which the verifier accepts. -/
noncomputable def accepted (d : Nat) (S : Finset K) (n : Nat) (claim : K) (strategy : List K → K[X])
    (G : List K → K) : Finset (List K) :=
  (tapes S n).filter fun rs => Accepts d claim (play strategy rs) (G rs)

variable {claim : K} {strategy : List K → K[X]}

/-- A first polynomial that the verifier does not take loses at once. -/
theorem accepted_eq_empty (h : ¬ ((strategy []).natDegree ≤ d ∧ (strategy []).eval 0 + (strategy []).eval 1 = claim)) :
    accepted d S (n + 1) claim strategy G = ∅ := by
  classical
  refine Finset.filter_false_of_mem ?_
  intro rs hrs hacc
  obtain ⟨r, rs, rfl⟩ := List.exists_cons_of_length_eq_add_one (mem_tapes.1 hrs).1
  exact h ⟨hacc.1, hacc.2.1⟩

/-- Where the first polynomial agrees with another one, all that follows counts. -/
theorem card_accepted_succ_le (n : Nat) (s : K[X]) :
    (accepted d S (n + 1) claim strategy G).card ≤ ∑ r ∈ S, if (strategy []).eval r = s.eval r then S.card ^ n
      else (accepted d S n ((strategy []).eval r) (fun rs => strategy (r :: rs)) fun xs => G (r :: xs)).card := by
  classical
  refine (card_filter_tapes_succ_le n _).trans (Finset.sum_le_sum ?_)
  intro r _
  split
  · exact (Finset.card_filter_le ..).trans (card_tapes_le S n)
  · refine Finset.card_le_card ?_
    intro rs hrs
    obtain ⟨hmem, -, -, hacc⟩ := Finset.mem_filter.1 hrs
    exact Finset.mem_filter.2 ⟨hmem, hacc⟩

/-- A wrong claim is accepted at no more than `n * d` in `|S|` of the challenges. -/
theorem card_accepted_le (S : Finset K) (strategy : List K → K[X]) (hG : DegreeLE d n G) (hclaim : claim ≠ cubeSum n G) :
    (accepted d S n claim strategy G).card ≤ n * d * S.card ^ (n - 1) := by
  induction n generalizing G claim strategy with
  | zero =>
    rw [cubeSum_zero] at hclaim
    have hempty : accepted d S 0 claim strategy G = ∅ := by
      classical
      refine Finset.filter_false_of_mem ?_
      intro rs hrs hacc
      obtain rfl : rs = [] := by simpa [tapes] using hrs
      exact hclaim hacc
    simp [hempty]
  | succ n ih =>
    obtain ⟨s, hs, hse⟩ := hG.exists_round
    by_cases hround : (strategy []).natDegree ≤ d ∧ (strategy []).eval 0 + (strategy []).eval 1 = claim
    · obtain ⟨hdeg, hsum⟩ := hround
      have hne : strategy [] ≠ s := by
        intro heq
        refine hclaim ?_
        rw [← hsum, heq, hse, hse, cubeSum_succ]
      have hstep (r : K) : (if (strategy []).eval r = s.eval r then S.card ^ n else (accepted d S n
            ((strategy []).eval r) (fun rs => strategy (r :: rs)) fun xs => G (r :: xs)).card) ≤
          (if (strategy []).eval r = s.eval r then S.card ^ n else 0) + n * d * S.card ^ (n - 1) := by
        split
        · exact Nat.le_add_right ..
        · next hr =>
          rw [hse] at hr
          rw [zero_add]
          exact ih _ (hG.cons r) hr
      have hrest : S.card * (n * d * S.card ^ (n - 1)) = n * d * S.card ^ n := by
        cases n with
        | zero => simp
        | succ n => rw [Nat.add_sub_cancel, pow_succ]; ring
      calc (accepted d S (n + 1) claim strategy G).card
          ≤ ∑ r ∈ S, ((if (strategy []).eval r = s.eval r then S.card ^ n else 0) + n * d * S.card ^ (n - 1)) :=
            (card_accepted_succ_le n s).trans (Finset.sum_le_sum fun r _ => hstep r)
        _ = (S.filter fun r => (strategy []).eval r = s.eval r).card * S.card ^ n + n * d * S.card ^ n := by
            rw [Finset.sum_add_distrib, ← Finset.sum_filter, Finset.sum_const, Finset.sum_const, smul_eq_mul, smul_eq_mul,
              hrest]
        _ ≤ d * S.card ^ n + n * d * S.card ^ n :=
            Nat.add_le_add_right (Nat.mul_le_mul_right _ (card_agree_le hdeg hs hne S)) _
        _ = (n + 1) * d * S.card ^ n := by ring
    · rw [accepted_eq_empty hround]
      simp

end
end Sumcheck
