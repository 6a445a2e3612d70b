import InfraVeritas.HonkSoundness
import InfraVeritas.Lib.SmallSubgroup

/-!
# `checkEvalsConsistency`

The hiding polynomial is committed by its coefficients on a subgroup of order 256; its value at the challenges is the sum of
their products with powers of the challenges, and the check is the identity of the partial sums at one point. What it
leaves open is where the partial sums start: a prover that chooses them after the challenges passes the check with any
value (`consistency_of_any`), and so gets any trace through `verifySumcheck` (`any_trace_accepted`).
-/

namespace InfraVeritas
open Checks Honk HonkVerifier Fr Loops RelationsLib Sumcheck SmallSubgroup Polynomial

namespace HonkVerifier

def SUBGROUP_SIZE : Nat := 256
def SUBGROUP_GENERATOR : Fr := wrap 0x07b0c561a6148404f086204a9f36ffb0617942546750f230c893619174a57a76
def SUBGROUP_GENERATOR_INVERSE : Fr := wrap 0x204bd3277422fad364751ad938e2b5e6a54cf8c68712848a692c553d0329f5d6
def LIBRA_UNIVARIATES_LENGTH : Nat := 9

variable {logN : Nat}

/-- The powers of one challenge behind one another. -/
def libraRound (u : Fr) (round : Nat) (challengePolyLagrange : Vector Fr SUBGROUP_SIZE) : Vector Fr SUBGROUP_SIZE :=
  let currIdx := 1 + LIBRA_UNIVARIATES_LENGTH * round
  let challengePolyLagrange := challengePolyLagrange.setIfInBounds currIdx (wrap 1)
  (List.range' (currIdx + 1) (LIBRA_UNIVARIATES_LENGTH - 1)).foldl
    (fun v idx => v.setIfInBounds idx (v[idx - 1]! * u)) challengePolyLagrange

def challengePolyLagrange (uChallenges : Vector Fr logN) : Vector Fr SUBGROUP_SIZE :=
  (List.finRange logN).foldl (fun v (round : Fin logN) => libraRound (uChallenges.get round) round.val v)
    ((Vector.replicate SUBGROUP_SIZE (wrap 0)).setIfInBounds 0 (wrap 1))

def rootPower (idx : Nat) : Fr := (· * SUBGROUP_GENERATOR_INVERSE)^[idx] (wrap 1)

def checkEvalsConsistency (libraPolyEvals : Vector Fr NUM_LIBRA_EVALUATIONS) (geminiR : Fr) (uChallenges : Vector Fr logN)
    (libraEval : Fr) : Except HonkError Bool := do
  let one := wrap 1
  let vanishingPolyEval := (← geminiR.pow SUBGROUP_SIZE) - one
  revertIf (equal vanishingPolyEval (wrap 0)) .geminiChallengeInSubgroup
  let lagrange := challengePolyLagrange uChallenges
  let denominators ← Vector.ofFnM fun idx : Fin SUBGROUP_SIZE => (rootPower idx * geminiR - one).invert
  let challengePolyEval := (List.finRange SUBGROUP_SIZE).foldl (fun acc idx => acc + lagrange[idx] * denominators[idx])
    (wrap 0)
  let numerator := vanishingPolyEval * (← (wrap SUBGROUP_SIZE).invert)
  let challengePolyEval := challengePolyEval * numerator
  let lagrangeFirst := denominators[0] * numerator
  let lagrangeLast := denominators[SUBGROUP_SIZE - 1] * numerator
  let diff := lagrangeFirst * libraPolyEvals[2]
  let diff := diff + (geminiR - SUBGROUP_GENERATOR_INVERSE) *
    (libraPolyEvals[1] - libraPolyEvals[2] - libraPolyEvals[0] * challengePolyEval)
  let diff := diff + lagrangeLast * (libraPolyEvals[2] - libraEval) - vanishingPolyEval * libraPolyEvals[3]
  return equal diff (wrap 0)

/-! ### The subgroup -/

/-- The generator of the subgroup in the field. -/
def generator : Field := SUBGROUP_GENERATOR.toField

theorem generator_inv : generator⁻¹ = SUBGROUP_GENERATOR_INVERSE.toField := by
  have hone : (SUBGROUP_GENERATOR_INVERSE * SUBGROUP_GENERATOR).toField = (wrap 1).toField :=
    congrArg toField (by decide +kernel)
  rw [toField_mul, toField_wrap, Nat.cast_one] at hone
  exact (eq_inv_of_mul_eq_one_left hone).symm

theorem toField_pow_eq_one_iff (a : Fr) {e : Nat} (he : e < 2 ^ 256) :
    a.toField ^ e = 1 ↔ PowMod.powMod P 256 a.unwrap e = 1 := by
  rw [PowMod.powMod_eq _ he, toField, PowMod.natCast_pow_eq_one_iff prime_P.one_lt]

theorem isPrimitiveRoot_generator : IsPrimitiveRoot generator SUBGROUP_SIZE := by
  have hhalf : ¬ generator ^ 2 ^ 7 = 1 := by
    rw [generator, toField_pow_eq_one_iff _ (by norm_num)]
    decide +kernel
  have hfull : generator ^ 2 ^ (7 + 1) = 1 := by
    rw [generator, toField_pow_eq_one_iff _ (by norm_num)]
    decide +kernel
  have horder : orderOf generator = SUBGROUP_SIZE := orderOf_eq_prime_pow hhalf hfull
  exact horder ▸ IsPrimitiveRoot.orderOf generator

theorem cast_SUBGROUP_SIZE : (SUBGROUP_SIZE : Field) ≠ 0 := natCast_ne_zero (by decide) (by decide)

theorem toField_rootPower (idx : Nat) : (rootPower idx).toField = generator⁻¹ ^ idx := by
  induction idx with
  | zero => simp [rootPower]
  | succ idx ih =>
    have hsucc : rootPower (idx + 1) = rootPower idx * SUBGROUP_GENERATOR_INVERSE := Function.iterate_succ_apply' ..
    rw [hsucc, toField_mul, ih, generator_inv, pow_succ]

/-! ### The challenge polynomial -/

/-- The coefficients that `challengePolyLagrange` computes: the powers 0 to 8 of each challenge behind a 1. -/
def challengeCoefficient (us : List Field) (j : Nat) : Field :=
  if j = 0 then 1 else
    match us[(j - 1) / LIBRA_UNIVARIATES_LENGTH]? with
    | some u => u ^ ((j - 1) % LIBRA_UNIVARIATES_LENGTH)
    | none => 0

/-- A run of powers, each from the entry before. -/
theorem foldl_mul_previous (u : Fr) {s m : Nat} {v : Vector Fr SUBGROUP_SIZE} {x : Field} (hm : s + m ≤ SUBGROUP_SIZE)
    (hx : v[s - 1]!.toField = x) {j : Nat} (hj : j < SUBGROUP_SIZE) :
    ((List.range' s m).foldl (fun v idx => v.setIfInBounds idx (v[idx - 1]! * u)) v)[j].toField =
      if s ≤ j ∧ j < s + m then x * u.toField ^ (j + 1 - s) else v[j].toField := by
  induction m generalizing s v x with
  | zero => rw [List.range'_zero, List.foldl_nil, if_neg (by omega)]
  | succ m ih =>
    have hs : s < SUBGROUP_SIZE := by omega
    have hnext : (v.setIfInBounds s (v[s - 1]! * u))[s + 1 - 1]!.toField = x * u.toField := by
      rw [Nat.add_sub_cancel, getElem!_pos _ s hs, Vector.getElem_setIfInBounds_self, toField_mul, hx]
    rw [List.range'_succ, List.foldl_cons, ih (by omega) hnext]
    rcases Nat.lt_trichotomy j s with hlt | rfl | hgt
    · rw [if_neg (by omega), if_neg (by omega), Vector.getElem_setIfInBounds_ne hj (by omega)]
    · have hone : j + 1 - j = 1 := by omega
      rw [if_neg (by omega), if_pos (by omega), Vector.getElem_setIfInBounds_self, toField_mul, hx, hone, pow_one]
    · have hsucc : j + 1 - s = j + 1 - (s + 1) + 1 := by omega
      have hiff : s + 1 ≤ j ∧ j < s + 1 + m ↔ s ≤ j ∧ j < s + (m + 1) := by omega
      rw [Vector.getElem_setIfInBounds_ne hj (by omega), hsucc, pow_succ', ← mul_assoc]
      exact ite_congr (propext hiff) (fun _ => rfl) (fun _ => rfl)

/-- A round writes the powers of its challenge to its own entries. -/
theorem toField_libraRound (u : Fr) {round : Nat} {v : Vector Fr SUBGROUP_SIZE}
    (hround : 1 + LIBRA_UNIVARIATES_LENGTH * (round + 1) ≤ SUBGROUP_SIZE) {j : Nat} (hj : j + 1 < SUBGROUP_SIZE) :
    (libraRound u round v)[j + 1].toField =
      if j / LIBRA_UNIVARIATES_LENGTH = round then u.toField ^ (j % LIBRA_UNIVARIATES_LENGTH) else v[j + 1].toField := by
  have hlen : LIBRA_UNIVARIATES_LENGTH = 9 := rfl
  rw [hlen] at hround ⊢
  have hcurr : 1 + 9 * round < SUBGROUP_SIZE := by omega
  let w := v.setIfInBounds (1 + 9 * round) (wrap 1)
  have hfirst : w[1 + 9 * round + 1 - 1]!.toField = 1 := by
    rw [Nat.add_sub_cancel, getElem!_pos w _ hcurr, Vector.getElem_setIfInBounds_self, toField_wrap, Nat.cast_one]
  have hrest := foldl_mul_previous u (m := 8) (by omega) hfirst hj
  rw [one_mul] at hrest
  refine hrest.trans ?_
  rcases eq_or_ne j (9 * round) with rfl | hne
  · have hself : w[9 * round + 1] = wrap 1 := by
      rw [Vector.getElem_setIfInBounds, if_pos (Nat.add_comm ..)]
    rw [if_neg (by omega), if_pos (by omega), hself]
    simp
  · rw [Vector.getElem_setIfInBounds_ne hj (by omega)]
    refine ite_congr (propext (by omega)) ?_ fun _ => rfl
    intro h
    have hmod : j % 9 = j + 1 + 1 - (1 + 9 * round + 1) := by omega
    rw [hmod]

theorem toField_libraRound_zero (u : Fr) {round : Nat} {v : Vector Fr SUBGROUP_SIZE}
    (hround : 1 + LIBRA_UNIVARIATES_LENGTH * (round + 1) ≤ SUBGROUP_SIZE) : (libraRound u round v)[0].toField = v[0].toField := by
  have hlen : LIBRA_UNIVARIATES_LENGTH = 9 := rfl
  rw [hlen] at hround
  have hrest := foldl_mul_previous u (s := 1 + 9 * round + 1) (m := 8)
    (v := v.setIfInBounds (1 + 9 * round) (wrap 1)) (by omega) rfl (by decide : 0 < SUBGROUP_SIZE)
  rw [if_neg (by omega), Vector.getElem_setIfInBounds_ne (by decide) (by omega)] at hrest
  exact hrest

section
variable (us : Vector Fr logN) (hlog : 1 + LIBRA_UNIVARIATES_LENGTH * logN ≤ SUBGROUP_SIZE)
include hlog

theorem round_le (i : Fin logN) : 1 + LIBRA_UNIVARIATES_LENGTH * (i.val + 1) ≤ SUBGROUP_SIZE := by
  have hle : LIBRA_UNIVARIATES_LENGTH * (i.val + 1) ≤ LIBRA_UNIVARIATES_LENGTH * logN :=
    Nat.mul_le_mul_left _ (Nat.succ_le_of_lt i.isLt)
  omega

theorem toField_foldl_libraRound_zero (is : List (Fin logN)) (v : Vector Fr SUBGROUP_SIZE) :
    (is.foldl (fun v round => libraRound (us.get round) round.val v) v)[0].toField = v[0].toField := by
  induction is generalizing v with
  | nil => rfl
  | cons i is ih => rw [List.foldl_cons, ih, toField_libraRound_zero _ (round_le hlog i)]

/-- The rounds write to entries of their own, so their order does not matter. -/
theorem toField_foldl_libraRound (is : List (Fin logN)) (v : Vector Fr SUBGROUP_SIZE) {j : Nat} (hj : j + 1 < SUBGROUP_SIZE) :
    (is.foldl (fun v round => libraRound (us.get round) round.val v) v)[j + 1].toField =
      if ∃ round ∈ is, j / LIBRA_UNIVARIATES_LENGTH = round.val then
        us[j / LIBRA_UNIVARIATES_LENGTH]!.toField ^ (j % LIBRA_UNIVARIATES_LENGTH)
      else v[j + 1].toField := by
  induction is generalizing v with
  | nil => rw [List.foldl_nil, if_neg (by simp)]
  | cons i is ih =>
    rw [List.foldl_cons, ih, toField_libraRound _ (round_le hlog i) hj]
    by_cases hi : j / LIBRA_UNIVARIATES_LENGTH = i.val
    · have hget : us[j / LIBRA_UNIVARIATES_LENGTH]! = us.get i := by
        simp [hi, Loops.get_eq]
      rw [if_pos hi, hget, ite_self, if_pos ⟨i, List.mem_cons_self, hi⟩]
    · rw [if_neg hi]
      refine ite_congr (propext ?_) (fun _ => rfl) fun _ => rfl
      simp [hi]

/-- The computed coefficients. -/
theorem toField_challengePolyLagrange {j : Nat} (hj : j < SUBGROUP_SIZE) :
    (challengePolyLagrange us)[j].toField = challengeCoefficient (us.toList.map toField) j := by
  match j with
  | 0 =>
    rw [challengePolyLagrange, toField_foldl_libraRound_zero us hlog, Vector.getElem_setIfInBounds_self, toField_wrap,
      Nat.cast_one]
    rfl
  | j + 1 =>
    rw [challengePolyLagrange, toField_foldl_libraRound us hlog _ _ hj, challengeCoefficient, if_neg (Nat.succ_ne_zero j),
      Nat.add_sub_cancel, Vector.getElem_setIfInBounds_ne hj (Nat.succ_ne_zero j).symm, Vector.getElem_replicate]
    by_cases hround : j / LIBRA_UNIVARIATES_LENGTH < logN
    · have hget : (us.toList.map toField)[j / LIBRA_UNIVARIATES_LENGTH]? =
          some us[j / LIBRA_UNIVARIATES_LENGTH].toField := by
        simp [hround]
      rw [if_pos ⟨⟨_, hround⟩, List.mem_finRange _, rfl⟩, hget, getElem!_pos us _ hround]
    · have hget : (us.toList.map toField)[j / LIBRA_UNIVARIATES_LENGTH]? = none := by
        simpa using hround
      rw [if_neg, hget, toField_wrap, Nat.cast_zero]
      rintro ⟨i, -, hi⟩
      exact hround (hi ▸ i.isLt)

end

/-! ### The check -/

/-- The polynomial with these values on the subgroup. -/
noncomputable def challengePolynomial (us : List Field) : Field[X] :=
  extend generator SUBGROUP_SIZE (challengeCoefficient us)

/-- The identity at one point. -/
def ConsistentAt (evals : Vector Field NUM_LIBRA_EVALUATIONS) (r : Field) (us : List Field) (e : Field) : Prop :=
  (basis generator SUBGROUP_SIZE 0).eval r * evals[2] +
      (r - generator⁻¹) * (evals[1] - evals[2] - evals[0] * (challengePolynomial us).eval r) +
      (basis generator SUBGROUP_SIZE (SUBGROUP_SIZE - 1)).eval r * (evals[2] - e) =
    (r ^ SUBGROUP_SIZE - (1 : Field)) * evals[3]

/-- The scaled inverse of a denominator is the value of a basis polynomial. -/
theorem eval_basis_generator {r : Field} (hr : r ^ SUBGROUP_SIZE ≠ 1) (i : Nat) :
    (basis generator SUBGROUP_SIZE i).eval r =
      (generator⁻¹ ^ i * r - 1)⁻¹ * ((r ^ SUBGROUP_SIZE - 1) * (SUBGROUP_SIZE : Field)⁻¹) := by
  have hone : generator ^ SUBGROUP_SIZE = 1 := isPrimitiveRoot_generator.pow_eq_one
  rw [eval_basis_of_ne hone, mul_comm]
  intro heq
  refine hr ?_
  have hpow := congrArg (· ^ SUBGROUP_SIZE) heq
  rwa [mul_pow, one_pow, ← pow_mul, mul_comm i, pow_mul, inv_pow, hone, inv_one, one_pow, one_mul] at hpow

theorem pow_SUBGROUP_SIZE (r : Fr) : ∃ a, r.pow SUBGROUP_SIZE = .ok a ∧ a.toField = r.toField ^ SUBGROUP_SIZE := by
  refine ⟨modexp r.unwrap SUBGROUP_SIZE, ?_, toField_modexp (by decide)⟩
  rw [Fr.pow, revertIf_of_not (by decide)]
  rfl

section
variable {evals : Vector Fr NUM_LIBRA_EVALUATIONS} {r e : Fr} {us : Vector Fr logN}

/-- The loop over the subgroup evaluates the challenge polynomial. -/
theorem toField_challengePolyEval (hlog : 1 + LIBRA_UNIVARIATES_LENGTH * logN ≤ SUBGROUP_SIZE) {ds : Vector Fr SUBGROUP_SIZE}
    {numerator : Fr} (hbasis : ∀ i : Fin SUBGROUP_SIZE,
      (ds[i] * numerator).toField = (basis generator SUBGROUP_SIZE i).eval r.toField) :
    ((List.finRange SUBGROUP_SIZE).foldl (fun acc idx => acc + (challengePolyLagrange us)[idx] * ds[idx]) (wrap 0) *
      numerator).toField = (challengePolynomial (us.toList.map toField)).eval r.toField := by
  have hsum := foldl_finRange_add (n := SUBGROUP_SIZE) toField
    (fun i => challengeCoefficient (us.toList.map toField) i * ds[i].toField)
    (fun acc idx => acc + (challengePolyLagrange us)[idx] * ds[idx])
    (fun acc i => by rw [toField_add, toField_mul, Fin.getElem_fin, toField_challengePolyLagrange us hlog i.isLt])
    (wrap 0)
  rw [toField_mul, hsum, toField_wrap, Nat.cast_zero, zero_add, challengePolynomial, extend, eval_finsetSum, Finset.sum_mul,
    ← Fin.sum_univ_eq_sum_range (fun i => (C (challengeCoefficient _ i) * basis generator SUBGROUP_SIZE i).eval r.toField)]
  refine Finset.sum_congr rfl ?_
  intro i _
  rw [mul_assoc, ← toField_mul, hbasis, eval_mul, eval_C]

/-- The check fails in the subgroup, where the denominators have no inverses, and elsewhere decides the identity. -/
theorem checkEvalsConsistency_eq_ok (hlog : 1 + LIBRA_UNIVARIATES_LENGTH * logN ≤ SUBGROUP_SIZE) {b : Bool} :
    checkEvalsConsistency evals r us e = .ok b ↔ r.toField ^ SUBGROUP_SIZE ≠ 1 ∧
      (b = true ↔ ConsistentAt (evals.map toField) r.toField (us.toList.map toField) e.toField) := by
  obtain ⟨a, ha, hpow⟩ := pow_SUBGROUP_SIZE r
  have hvanish : (a - wrap 1).toField = r.toField ^ SUBGROUP_SIZE - 1 := by
    rw [toField_sub, hpow, toField_wrap, Nat.cast_one]
  have hin : equal (a - wrap 1) (wrap 0) = true ↔ r.toField ^ SUBGROUP_SIZE = 1 := by
    rw [(reduced_sub _ _).equal_iff (reduced_wrap 0), hvanish, toField_wrap, Nat.cast_zero, sub_eq_zero]
  have hdenominator (i : Nat) : (rootPower i * r - wrap 1).toField = generator⁻¹ ^ i * r.toField - 1 := by
    rw [toField_sub, toField_mul, toField_rootPower, toField_wrap, Nat.cast_one]
  unfold checkEvalsConsistency
  simp only [ha, bind_eq_ok, Except.ok.injEq, exists_eq_left', exists_punit, revertIf_eq_ok, pure_eq_ok, hin, ofFnM_eq_ok]
  refine and_congr_right fun hr => ?_
  have hdecides {ds : Vector Fr SUBGROUP_SIZE} {n : Fr} (hds : ∀ i : Fin SUBGROUP_SIZE, (rootPower i * r - wrap 1).invert = .ok ds[i])
      (hn : (wrap SUBGROUP_SIZE).invert = .ok n) :
      equal (ds[0] * ((a - wrap 1) * n) * evals[2] + (r - SUBGROUP_GENERATOR_INVERSE) * (evals[1] - evals[2] - evals[0] *
          ((List.finRange SUBGROUP_SIZE).foldl (fun acc idx => acc + (challengePolyLagrange us)[idx] * ds[idx]) (wrap 0) *
            ((a - wrap 1) * n))) +
        ds[SUBGROUP_SIZE - 1] * ((a - wrap 1) * n) * (evals[2] - e) - (a - wrap 1) * evals[3]) (wrap 0) = true ↔
      ConsistentAt (evals.map toField) r.toField (us.toList.map toField) e.toField := by
    have hbasis (i : Fin SUBGROUP_SIZE) : (ds[i] * ((a - wrap 1) * n)).toField =
        (basis generator SUBGROUP_SIZE i).eval r.toField := by
      rw [eval_basis_generator hr, toField_mul, toField_mul, hvanish, (invert_eq_ok.1 (hds i)).2.2, hdenominator,
        (invert_eq_ok.1 hn).2.2, toField_wrap]
    have hfirst : (ds[0] * ((a - wrap 1) * n)).toField = (basis generator SUBGROUP_SIZE 0).eval r.toField :=
      hbasis ⟨0, by decide⟩
    have hlast : (ds[SUBGROUP_SIZE - 1] * ((a - wrap 1) * n)).toField =
        (basis generator SUBGROUP_SIZE (SUBGROUP_SIZE - 1)).eval r.toField := hbasis ⟨SUBGROUP_SIZE - 1, by decide⟩
    have heval := @toField_challengePolyEval logN r us hlog _ _ hbasis
    rw [(reduced_sub _ _).equal_iff (reduced_wrap 0), toField_wrap, Nat.cast_zero, toField_sub, sub_eq_zero, toField_add,
      toField_add, toField_mul _ evals[2], hfirst, toField_mul _ (evals[2] - e), hlast, toField_mul (r - _),
      toField_sub (evals[1] - evals[2]), toField_mul evals[0], heval, toField_mul (a - wrap 1), hvanish, ConsistentAt]
    simp only [toField_sub, generator_inv, Vector.getElem_map]
  have hinverses (i : Fin SUBGROUP_SIZE) : ∃ d, (rootPower i * r - wrap 1).invert = .ok d := by
    refine exists_invert fun hzero => hr ?_
    rw [(reduced_sub _ _).unwrap_eq_zero, hdenominator, sub_eq_zero, inv_pow,
      inv_mul_eq_one₀ (pow_ne_zero _ (isPrimitiveRoot_generator.ne_zero (by decide)))] at hzero
    rw [← hzero, ← pow_mul, mul_comm, pow_mul, isPrimitiveRoot_generator.pow_eq_one, one_pow]
  obtain ⟨ds, hds⟩ := exists_ofFnM_eq_ok.2 hinverses
  rw [ofFnM_eq_ok] at hds
  obtain ⟨n, hn⟩ := exists_invert (a := wrap SUBGROUP_SIZE) (by decide)
  constructor
  · rintro ⟨ds', hds', n', hn', rfl⟩
    exact hdecides hds' hn'
  · intro hb
    exact ⟨ds, hds, n, hn, Bool.eq_iff_iff.2 ((hdecides hds hn).trans hb.symm)⟩

end

/-! ### What the check enforces -/

/-- The value at the challenges of the hiding polynomial that `A` commits to. -/
noncomputable def libraAt (A : Field[X]) (us : List Field) : Field :=
  ∑ j ∈ Finset.range (SUBGROUP_SIZE - 1), A.eval (generator ^ j) * challengeCoefficient us j

/-- The evaluations that open the commitments to the coefficients, the partial sums and the quotient. -/
noncomputable def libraEvals (A S Q : Field[X]) (r : Field) : Vector Field NUM_LIBRA_EVALUATIONS :=
  #v[A.eval r, S.eval (generator * r), S.eval r, Q.eval r]

variable {A S Q : Field[X]} {us : List Field}

theorem degreeLE_challengeCoefficient (n j : Nat) : DegreeLE 8 n fun us => challengeCoefficient us j := by
  intro pre suf _
  rcases eq_or_ne j 0 with rfl | hj
  · exact ⟨1, by simp, fun x => by simp [challengeCoefficient]⟩
  have hconst {o : Option Field} (h : ∀ x : Field, (pre ++ x :: suf)[(j - 1) / LIBRA_UNIVARIATES_LENGTH]? = o) :
      ∃ q : Field[X], q.natDegree ≤ 8 ∧ ∀ x, q.eval x = challengeCoefficient (pre ++ x :: suf) j :=
    ⟨C (o.elim 0 (· ^ ((j - 1) % LIBRA_UNIVARIATES_LENGTH))), by simp, fun x => by
      rw [eval_C, challengeCoefficient, if_neg hj, h]
      cases o <;> rfl⟩
  rcases Nat.lt_trichotomy ((j - 1) / LIBRA_UNIVARIATES_LENGTH) pre.length with hlt | heq | hgt
  · exact hconst fun x => List.getElem?_append_left hlt
  · refine ⟨X ^ ((j - 1) % LIBRA_UNIVARIATES_LENGTH), ?_, ?_⟩
    · rw [natDegree_X_pow]
      exact Nat.le_of_lt_succ (Nat.mod_lt _ (by decide))
    · intro x
      have hget : (pre ++ x :: suf)[(j - 1) / LIBRA_UNIVARIATES_LENGTH]? = some x := by
        simp [heq]
      simp only [challengeCoefficient, if_neg hj, hget, eval_pow, eval_X]
  · refine hconst (o := suf[(j - 1) / LIBRA_UNIVARIATES_LENGTH - pre.length - 1]?) fun x => ?_
    rw [List.getElem?_append_right hgt.le, List.getElem?_cons, if_neg (by omega)]

/-- Whatever `A` is, it hides as the sumcheck needs. -/
theorem degreeLE_libraAt (A : Field[X]) (n : Nat) : DegreeLE 8 n (libraAt A) := by
  intro pre suf hlen
  choose q hq heval using fun j => degreeLE_challengeCoefficient n j pre suf hlen
  refine ⟨∑ j ∈ Finset.range (SUBGROUP_SIZE - 1), C (A.eval (generator ^ j)) * q j, ?_, ?_⟩
  · exact natDegree_sum_le_of_forall_le _ _ fun j _ => (natDegree_C_mul_le _ _).trans (hq j)
  · intro x
    rw [eval_finsetSum, libraAt]
    refine Finset.sum_congr rfl ?_
    intro j _
    rw [eval_mul, eval_C, heval]

theorem consistentAt_libraEvals {r e : Field} : ConsistentAt (libraEvals A S Q r) r us e ↔
    (defect generator SUBGROUP_SIZE S A (challengePolynomial us) e).eval r = ((X ^ SUBGROUP_SIZE - 1) * Q).eval r := by
  have heval : ((X ^ SUBGROUP_SIZE - 1) * Q).eval r = (r ^ SUBGROUP_SIZE - 1) * Q.eval r := by
    rw [eval_mul, eval_sub, eval_pow, eval_X, eval_one]
  rw [heval, defect]
  simp only [eval_add, eval_mul, eval_sub, eval_X, eval_C, eval_comp]
  rfl

theorem libraAt_eq (A : Field[X]) (us : List Field) : libraAt A us =
    ∑ j ∈ Finset.range (SUBGROUP_SIZE - 1), A.eval (generator ^ j) * (challengePolynomial us).eval (generator ^ j) := by
  refine Finset.sum_congr rfl ?_
  intro j hj
  have hlt : j < SUBGROUP_SIZE := (Finset.mem_range.1 hj).trans_le (Nat.sub_le ..)
  rw [challengePolynomial, eval_extend_pow isPrimitiveRoot_generator cast_SUBGROUP_SIZE _ hlt]

/-- For committed polynomials the check holds the claimed value to the true one up to a multiple of the first partial sum,
at all but few points. -/
theorem checkEvalsConsistency_sound (hlog : 1 + LIBRA_UNIVARIATES_LENGTH * logN ≤ SUBGROUP_SIZE) {D : Nat}
    (hA : A.natDegree ≤ D) (hS : S.natDegree ≤ D) (hQ : Q.natDegree ≤ D) (us : Vector Fr logN) (e : Fr) :
    (generator - 1) * (libraAt A (us.toList.map toField) - e.toField) = S.eval 1 ∨
    ∃ B : Finset Field, B.card ≤ D + SUBGROUP_SIZE ∧ ∀ (r : Fr) (evals : Vector Fr NUM_LIBRA_EVALUATIONS),
      evals.map toField = libraEvals A S Q r.toField → r.toField ∉ B → checkEvalsConsistency evals r us e ≠ .ok true := by
  have hsum := sum_or_card_le isPrimitiveRoot_generator cast_SUBGROUP_SIZE (by decide) (F := challengePolynomial (us.toList.map toField))
    e.toField hS hA (natDegree_extend_le ..) hQ
  rw [libraAt_eq]
  refine hsum.imp_right ?_
  rintro ⟨B, hB, hne⟩
  refine ⟨B, hB, ?_⟩
  intro r evals hevals hr haccept
  have hconsistent := ((checkEvalsConsistency_eq_ok hlog).1 haccept).2.1 rfl
  rw [hevals, consistentAt_libraEvals] at hconsistent
  exact hne _ hr hconsistent

/-- The coefficients of the first challenge alone. -/
noncomputable def firstChallenge : Field[X] := extend generator SUBGROUP_SIZE fun j => if j = 2 then 1 else 0

theorem libraAt_firstChallenge (u : Field) (us : List Field) : libraAt firstChallenge (u :: us) = u := by
  have hval {j : Nat} (hj : j ∈ Finset.range (SUBGROUP_SIZE - 1)) :
      firstChallenge.eval (generator ^ j) = if j = 2 then 1 else 0 :=
    eval_extend_pow isPrimitiveRoot_generator cast_SUBGROUP_SIZE _ ((Finset.mem_range.1 hj).trans_le (Nat.sub_le ..))
  have hmem : 2 ∈ Finset.range (SUBGROUP_SIZE - 1) := Finset.mem_range.2 (by decide)
  rw [libraAt, Finset.sum_eq_single_of_mem 2 hmem, hval hmem, if_pos rfl, one_mul]
  · exact pow_one u
  · intro j hj hne
    rw [hval hj, if_neg hne, zero_mul]

/-- The first challenge is 9, and the claim is 1. -/
theorem checkEvalsConsistency_sound_sample : ∃ B : Finset Field, B.card ≤ 255 + SUBGROUP_SIZE ∧
    ∀ (r : Fr) (evals : Vector Fr NUM_LIBRA_EVALUATIONS),
      evals.map toField = libraEvals firstChallenge (X - 1) X r.toField → r.toField ∉ B →
      checkEvalsConsistency evals r (Vector.replicate LOG_N (wrap 9)) (wrap 1) ≠ .ok true := by
  have hdegree : firstChallenge.natDegree ≤ 255 := natDegree_extend_le ..
  have hS : (X - 1 : Field[X]).natDegree ≤ 255 := by
    rw [← C_1, natDegree_X_sub_C]
    decide
  have hX : (X : Field[X]).natDegree ≤ 255 := natDegree_X_le.trans (by decide)
  refine (@checkEvalsConsistency_sound LOG_N firstChallenge (X - 1) X (by decide) 255 hdegree hS hX
    (Vector.replicate LOG_N (wrap 9)) (wrap 1)).resolve_left ?_
  have hfirst : libraAt firstChallenge ((Vector.replicate LOG_N (wrap 9)).toList.map toField) = ((9 : Nat) : Field) := by
    rw [Vector.toList_replicate, List.map_replicate, LOG_N, List.replicate_succ, libraAt_firstChallenge, toField_wrap]
  have hclaim : ((9 : Nat) : Field) ≠ ((1 : Nat) : Field) :=
    mt (natCast_inj (by decide) (by decide)).1 (by decide)
  rw [hfirst, toField_wrap, eval_sub, eval_X, eval_one, sub_self]
  exact mul_ne_zero (sub_ne_zero.2 (isPrimitiveRoot_generator.ne_one (by decide))) (sub_ne_zero.2 hclaim)

/-- Partial sums that start elsewhere pass with any value, at every point outside the subgroup. -/
theorem consistency_of_any (hlog : 1 + LIBRA_UNIVARIATES_LENGTH * logN ≤ SUBGROUP_SIZE) (A : Field[X]) (us : List Field)
    (e : Field) : ∃ S Q : Field[X], S.natDegree ≤ SUBGROUP_SIZE - 1 ∧ Q.natDegree ≤ max (SUBGROUP_SIZE - 1) A.natDegree ∧
      ∀ (r e' : Fr) (us' : Vector Fr logN) (evals : Vector Fr NUM_LIBRA_EVALUATIONS), r.toField ^ SUBGROUP_SIZE ≠ 1 →
        us'.toList.map toField = us → e'.toField = e → evals.map toField = libraEvals A S Q r.toField →
        checkEvalsConsistency evals r us' e' = .ok true := by
  obtain ⟨S, Q, hS, hQ, hid⟩ := exists_identity isPrimitiveRoot_generator cast_SUBGROUP_SIZE (by decide) A
    (natDegree_extend_le generator SUBGROUP_SIZE (challengeCoefficient us)) e
  refine ⟨S, Q, hS, hQ, ?_⟩
  rintro r _ us' evals hr rfl rfl hevals
  refine (checkEvalsConsistency_eq_ok hlog).2 ⟨hr, iff_of_true rfl ?_⟩
  rw [hevals, consistentAt_libraEvals, challengePolynomial, hid]

/-- An addition gate, 2 and 3 make 5, with every cell wired to itself and the rows repeated. -/
def gateRow : Entities Fr :=
  [(WIRE.Q_ARITH, 1), (.Q_L, 1), (.Q_R, 1), (.Q_O, P - 1), (.W_L, 2), (.W_R, 3), (.W_O, 5), (.W_L_SHIFT, 2), (.W_R_SHIFT, 3),
    (.W_O_SHIFT, 5), (.ID_1, 10), (.SIGMA_1, 10), (.ID_2, 11), (.SIGMA_2, 11), (.ID_3, 12), (.SIGMA_3, 12), (.ID_4, 13),
    (.SIGMA_4, 13), (.Z_PERM, 1), (.Z_PERM_SHIFT, 1)].foldl
    (fun row (cell : WIRE × Nat) => row.set cell.1.ctorIdx (wrap cell.2) (ctorIdx_lt cell.1))
    (Vector.replicate NUMBER_OF_ENTITIES (wrap 0))

theorem satisfied_gateRow (n : Nat) :
    (constantTrace gateRow).Satisfied (sampleTranscript.relationParameters.map toField) n := by
  refine satisfied_constantTrace (fun k => ?_) n
  have hzero : ∀ k, (relationEvaluations gateRow sampleTranscript.relationParameters (wrap 1)).get k = wrap 0 := by
    decide +kernel
  rw [hzero k, toField_wrap, Nat.cast_zero]

theorem sumcheck_completeness_gate : libraAt firstChallenge (challenges sampleTranscript) ≠ 0 ∧
    verifySumcheck (honestProof (constantTrace gateRow) (sampleTranscript.relationParameters.map toField) 1 (wrap 1).toField
      (libraAt firstChallenge) sampleTranscript.libraChallenge.toField (challenges sampleTranscript)) sampleTranscript =
      .ok true := by
  have halphas : sampleTranscript.alphas.map toField = powers 1 := map_map_ofField _
  refine ⟨?_, (sumcheck_completeness (satisfied_gateRow _) (degreeLE_libraAt firstChallenge LOG_N) halphas
    (map_iterate_sqr _ _)).2 offNodes_sampleTranscript⟩
  rw [challenges, sampleTranscript, Vector.toList_replicate, List.map_replicate, LOG_N, List.replicate_succ,
    libraAt_firstChallenge, toField_wrap]
  exact natCast_ne_zero (by decide) (by decide)

/-! ### A prover for any trace -/

section
variable {n : Nat} {tables : Trace} {rp : RelationParameters Field} {α g c libraSum : Field}

/-- The constant univariate that halves the claim in every round. -/
def halving (claim : Field) (us : List Field) : Vector Fr ZK_BATCHED_RELATION_PARTIAL_LENGTH :=
  Vector.replicate _ (ofField (claim / (2 ^ (us.length + 1) : Nat)))

theorem roundPolynomial_halving (claim : Field) (us : List Field) :
    roundPolynomial (halving claim us) = C (claim / 2 ^ (us.length + 1)) := by
  have hconst : halving claim us = Vector.ofFn fun j => ofField ((C (claim / 2 ^ (us.length + 1))).eval (node j)) := by
    refine Vector.ext ?_
    intro i hi
    rw [halving, Vector.getElem_replicate, Vector.getElem_ofFn, eval_C, Nat.cast_pow, Nat.cast_ofNat]
  rw [hconst, roundPolynomial_ofFn (by simp)]

theorem accepts_halving (claim : Field) (us : List Field) :
    Accepts 8 claim (play (fun pre => C (claim / 2 ^ (pre.length + 1))) us) (claim / 2 ^ us.length) := by
  induction us generalizing claim with
  | nil => simp [play, Accepts]
  | cons u us ih =>
    have hstrategy : (fun pre : List Field => C (claim / 2 ^ ((u :: pre).length + 1))) =
        fun pre => C (claim / 2 / 2 ^ (pre.length + 1)) := by
      funext pre
      rw [div_div, ← pow_succ', List.length_cons]
    refine ⟨(natDegree_C _).le.trans (Nat.zero_le 8), ?_, ?_⟩
    · rw [eval_C, eval_C, List.length_nil, zero_add, pow_one, ← add_div, ← two_mul, mul_div_cancel_left₀ _ two_ne_zero_field]
    · have hrest := ih (claim / 2)
      rw [hstrategy, eval_C, List.length_nil, zero_add, pow_one, List.length_cons, pow_succ', ← div_div]
      exact hrest

/-- What the last claim is made to fit with. -/
def fittingEvaluation (tables : Trace) (rp : RelationParameters Field) (α g c libraSum : Field) (n : Nat) (us : List Field) :
    Field :=
  (c * libraSum / (2 ^ n : Nat) - relationAt tables rp (powers α) (squares g n) us * enabledAt us) / c

theorem verifySumcheck_halving (hc : c ≠ 0) {proof : ZKProof n} {tp : ZKTranscript n}
    (h : Plays tables rp α g (fittingEvaluation tables rp α g c libraSum n) libraSum c (halving (c * libraSum)) proof tp)
    (hoff : OffNodes tp (List.finRange n)) : verifySumcheck proof tp = .ok true := by
  have hlen : (challenges tp).length = n := by simp [challenges]
  have haccepts := accepts_halving (c * libraSum) (challenges tp)
  have hfinal : honkAt tables rp (powers α) (squares g n) (fittingEvaluation tables rp α g c libraSum n) c (challenges tp) =
      c * libraSum / 2 ^ (challenges tp).length := by
    rw [honkAt, fittingEvaluation, div_mul_cancel₀ _ hc, add_sub_cancel, hlen, Nat.cast_pow, Nat.cast_ofNat]
  rw [verifySumcheck_eq_ok, rounds_eq_play h, grandHonkSum_eq h, h.libraChallenge, h.libraSum, hfinal]
  simp only [roundPolynomial_halving]
  exact ⟨hoff, haccepts⟩

/-- Whether the trace satisfies the relations or not: the halving rounds, and partial sums that fit the last claim, pass
both checks with the true evaluations of everything that is committed to. Only the challenges 0 to 8 and the points of the
subgroup are in the way. -/
theorem any_trace_accepted (hlog : 1 + LIBRA_UNIVARIATES_LENGTH * n ≤ SUBGROUP_SIZE) (tables : Trace)
    (rp : RelationParameters Field) (α g libraSum : Field) (hc : c ≠ 0) (A : Field[X]) :
    ∃ (respond : List Field → Vector Fr ZK_BATCHED_RELATION_PARTIAL_LENGTH) (L : List Field → Field)
      (S Q : List Field → Field[X]),
      (∀ us, (S us).natDegree ≤ SUBGROUP_SIZE - 1 ∧ (Q us).natDegree ≤ max (SUBGROUP_SIZE - 1) A.natDegree) ∧
      ∀ (proof : ZKProof n) (tp : ZKTranscript n), Plays tables rp α g L libraSum c respond proof tp →
        proof.libraPolyEvals.map toField = libraEvals A (S (challenges tp)) (Q (challenges tp)) tp.geminiR.toField →
        OffNodes tp (List.finRange n) → tp.geminiR.toField ^ SUBGROUP_SIZE ≠ 1 →
        verifySumcheck proof tp = .ok true ∧
        checkEvalsConsistency proof.libraPolyEvals tp.geminiR tp.sumCheckUChallenges proof.libraEvaluation = .ok true := by
  choose S Q hS hQ hcheck using fun us =>
    consistency_of_any hlog A us (fittingEvaluation tables rp α g c libraSum n us)
  refine ⟨halving (c * libraSum), fittingEvaluation tables rp α g c libraSum n, S, Q, fun us => ⟨hS us, hQ us⟩, ?_⟩
  intro proof tp hplays hevals hoff hr
  exact ⟨verifySumcheck_halving hc hplays hoff, hcheck (challenges tp) _ _ _ _ hr rfl hplays.libraEvaluation hevals⟩

/-- A constant of 1 in every row, in a gate without anything else. -/
def violatedRow : Entities Fr :=
  ((Vector.replicate NUMBER_OF_ENTITIES (wrap 0)).set WIRE.Q_C.ctorIdx (wrap 1)).set WIRE.Q_ARITH.ctorIdx (wrap 1)

def violatedTrace : Trace := constantTrace violatedRow

theorem not_satisfied_violatedTrace : ¬ violatedTrace.Satisfied ⟨1, 1, 1, 1⟩ LOG_N := by
  intro h
  have hone : (wrap 1).toField = 1 := by rw [toField_wrap, Nat.cast_one]
  have hparameters : (⟨1, 1, 1, 1⟩ : RelationParameters Field) =
      RelationParameters.map toField ⟨wrap 1, wrap 1, wrap 1, wrap 1⟩ := by
    rw [RelationParameters.map, hone]
  have hfails : (relationEvaluations violatedRow ⟨wrap 1, wrap 1, wrap 1, wrap 1⟩ (wrap 1)).get 0 = wrap 1 := by
    decide +kernel
  have hzero := h.row 0 (Finset.mem_range.2 (by decide)) 0 (by decide)
  rw [hparameters, violatedTrace, subrelation_constantTrace, hfails, hone] at hzero
  exact one_ne_zero hzero

theorem any_trace_accepted_violated : ¬ violatedTrace.Satisfied ⟨1, 1, 1, 1⟩ LOG_N ∧
    ∃ (proof : ZKProof LOG_N) (tp : ZKTranscript LOG_N), tp.relationParameters.map toField = ⟨1, 1, 1, 1⟩ ∧
      (relationsEvaluations proof).map toField = violatedTrace.evalAt (challenges tp) ∧
      verifySumcheck proof tp = .ok true ∧
      checkEvalsConsistency proof.libraPolyEvals tp.geminiR tp.sumCheckUChallenges proof.libraEvaluation = .ok true := by
  let tp : ZKTranscript LOG_N := { sampleTranscript with geminiR := wrap 2 }
  have hone : (wrap 1).toField = 1 := by rw [toField_wrap, Nat.cast_one]
  have hr : tp.geminiR.toField ^ SUBGROUP_SIZE ≠ 1 :=
    mt (toField_pow_eq_one_iff (wrap 2) (by decide)).1 (by decide +kernel)
  have halphas : tp.alphas.map toField = powers 1 := map_map_ofField _
  have hgates : gates tp = squares (wrap 1).toField LOG_N := map_iterate_sqr _ _
  have hc : tp.libraChallenge.toField ≠ 0 := hone ▸ one_ne_zero
  obtain ⟨respond, L, S, Q, -, haccept⟩ := any_trace_accepted (n := LOG_N) (by decide) violatedTrace
    (tp.relationParameters.map toField) 1 (wrap 1).toField 0 hc 0
  have hplays := @plays_proofOf violatedTrace LOG_N respond tp 1 _ 0 L
    (libraEvals 0 (S (challenges tp)) (Q (challenges tp)) tp.geminiR.toField) halphas hgates
  refine ⟨not_satisfied_violatedTrace, _, tp, ?_, hplays.evaluations, haccept _ tp hplays ?_ offNodes_sampleTranscript hr⟩
  · simp [tp, sampleTranscript, RelationParameters.map]
  · exact map_map_ofField _

end

end HonkVerifier
end InfraVeritas
