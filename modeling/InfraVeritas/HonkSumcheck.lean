import InfraVeritas.Lib.Sumcheck
import InfraVeritas.Transcript
import Mathlib.LinearAlgebra.Lagrange

/-!
# `verifySumcheck`

A round's univariate comes as its values at 0 to 8. `computeNextTargetSum` evaluates it at the challenge by the barycentric
formula, which fails at these points themselves. The whole loop is the verifier of the sumcheck protocol
(`verifySumcheck_eq_ok`).
-/

namespace InfraVeritas
open Checks Honk HonkVerifier Fr Loops RelationsLib Sumcheck Polynomial

namespace HonkVerifier

def NUM_MASKING_POLYNOMIALS : Nat := 1

def BARYCENTRIC_LAGRANGE_DENOMINATORS : Vector Fr ZK_BATCHED_RELATION_PARTIAL_LENGTH :=
  #v[wrap 0x0000000000000000000000000000000000000000000000000000000000009d80,
    wrap 0x30644e72e131a029b85045b68181585d2833e84879b9709143e1f593efffec51,
    wrap 0x00000000000000000000000000000000000000000000000000000000000005a0,
    wrap 0x30644e72e131a029b85045b68181585d2833e84879b9709143e1f593effffd31,
    wrap 0x0000000000000000000000000000000000000000000000000000000000000240,
    wrap 0x30644e72e131a029b85045b68181585d2833e84879b9709143e1f593effffd31,
    wrap 0x00000000000000000000000000000000000000000000000000000000000005a0,
    wrap 0x30644e72e131a029b85045b68181585d2833e84879b9709143e1f593efffec51,
    wrap 0x0000000000000000000000000000000000000000000000000000000000009d80]

def computeNextTargetSum (roundUnivariates : Vector Fr ZK_BATCHED_RELATION_PARTIAL_LENGTH) (roundChallenge : Fr) :
    Except HonkError Fr := do
  let numeratorValue := (List.finRange ZK_BATCHED_RELATION_PARTIAL_LENGTH).foldl
    (fun numeratorValue i => numeratorValue * (roundChallenge - wrap i.val)) (wrap 1)
  let denominatorInverses ← Vector.ofFnM fun i : Fin ZK_BATCHED_RELATION_PARTIAL_LENGTH =>
    (BARYCENTRIC_LAGRANGE_DENOMINATORS[i] * (roundChallenge - wrap i.val)).invert
  let targetSum := (List.finRange ZK_BATCHED_RELATION_PARTIAL_LENGTH).foldl
    (fun targetSum i => targetSum + roundUnivariates[i] * denominatorInverses[i]) (wrap 0)
  return targetSum * numeratorValue

variable {logN : Nat}

/-- One turn of the loop, on `roundTargetSum` and `powPartialEvaluation`. -/
def sumcheckRound (proof : ZKProof logN) (tp : ZKTranscript logN) (acc : Fr × Fr) (round : Fin logN) :
    Except HonkError (Fr × Fr) := do
  let roundUnivariate := proof.sumcheckUnivariates[round]
  let totalSum := roundUnivariate[0] + roundUnivariate[1]
  revertIf (¬ equal totalSum acc.1) .sumcheckFailed
  let roundChallenge := tp.sumCheckUChallenges[round]
  let roundTargetSum ← computeNextTargetSum roundUnivariate roundChallenge
  return (roundTargetSum, acc.2 * (wrap 1 + roundChallenge * (tp.gateChallenges[round] - wrap 1)))

/-- Without the evaluation of the masking polynomial -/
def relationsEvaluations (proof : ZKProof logN) : Entities Fr :=
  Vector.ofFn fun i => proof.sumcheckEvaluations.get (i.succ : Fin NUMBER_OF_ENTITIES_ZK)

def verifySumcheck (proof : ZKProof logN) (tp : ZKTranscript logN) : Except HonkError Bool := do
  let (roundTargetSum, powPartialEvaluation) ← (List.finRange logN).foldlM (sumcheckRound proof tp)
    (tp.libraChallenge * proof.libraSum, wrap 1)
  let grandHonkRelationSum := accumulateRelationEvaluations (relationsEvaluations proof) tp.relationParameters tp.alphas
    powPartialEvaluation
  let evaluation := (tp.sumCheckUChallenges.toList.drop 2).foldl (· * ·) (wrap 1)
  let grandHonkRelationSum := grandHonkRelationSum * (wrap 1 - evaluation) + proof.libraEvaluation * tp.libraChallenge
  return equal grandHonkRelationSum roundTargetSum

/-! ### The barycentric evaluation -/

/-- The points at which a univariate is given. -/
def node (i : Fin ZK_BATCHED_RELATION_PARTIAL_LENGTH) : Field := (i : Nat)

/-- The univariate with the given values. -/
noncomputable def roundPolynomial (us : Vector Fr ZK_BATCHED_RELATION_PARTIAL_LENGTH) : Field[X] :=
  Lagrange.interpolate Finset.univ node fun i => us[i].toField

theorem node_injective : Function.Injective node := by
  intro i j h
  have hlt (k : Fin ZK_BATCHED_RELATION_PARTIAL_LENGTH) : (k : Nat) < P := k.isLt.trans (by decide)
  exact Fin.ext ((natCast_inj (hlt i) (hlt j)).1 h)

theorem natDegree_roundPolynomial_le (us : Vector Fr ZK_BATCHED_RELATION_PARTIAL_LENGTH) :
    (roundPolynomial us).natDegree ≤ 8 := by
  have hdeg : (roundPolynomial us).degree < (9 : ℕ) := Lagrange.degree_interpolate_lt _ node_injective.injOn
  exact natDegree_le_iff_coeff_eq_zero.2 ((degree_lt_iff_coeff_zero _ _).1 hdeg)

theorem eval_roundPolynomial (us : Vector Fr ZK_BATCHED_RELATION_PARTIAL_LENGTH)
    (i : Fin ZK_BATCHED_RELATION_PARTIAL_LENGTH) : (roundPolynomial us).eval (node i) = us[i].toField :=
  Lagrange.eval_interpolate_at_node _ node_injective.injOn (Finset.mem_univ i)

/-- The constants are the products of the differences of the nodes. -/
theorem prod_node_sub (i : Fin ZK_BATCHED_RELATION_PARTIAL_LENGTH) :
    ∏ j ∈ Finset.univ.erase i, (node i - node j) = BARYCENTRIC_LAGRANGE_DENOMINATORS[i].toField := by
  have hint (j : Fin ZK_BATCHED_RELATION_PARTIAL_LENGTH) : node i - node j = (((i : Nat) - (j : Nat) : ℤ) : Field) := by
    simp [node]
  have hdvd : ∀ i : Fin ZK_BATCHED_RELATION_PARTIAL_LENGTH, (P : ℤ) ∣
      (BARYCENTRIC_LAGRANGE_DENOMINATORS[i].unwrap : ℤ) - ∏ j ∈ Finset.univ.erase i, (((i : Nat) : ℤ) - (j : Nat)) := by
    decide +kernel
  rw [Finset.prod_congr rfl fun j _ => hint j, ← Int.cast_prod, (ZMod.intCast_eq_intCast_iff_dvd_sub _ _ P).2 (hdvd i)]
  exact Int.cast_natCast _

theorem toField_sub_wrap (u : Fr) (i : Fin ZK_BATCHED_RELATION_PARTIAL_LENGTH) :
    (u - wrap i).toField = u.toField - node i := by rw [toField_sub, toField_wrap, node]

theorem denominator_ne_zero (i : Fin ZK_BATCHED_RELATION_PARTIAL_LENGTH) :
    BARYCENTRIC_LAGRANGE_DENOMINATORS[i].toField ≠ 0 := by
  rw [← prod_node_sub, Finset.prod_ne_zero_iff]
  intro j hj
  exact sub_ne_zero.2 fun h => Finset.ne_of_mem_erase hj (node_injective h).symm

/-- The barycentric formula with the contract's denominators. -/
theorem eval_roundPolynomial_of_ne (us : Vector Fr ZK_BATCHED_RELATION_PARTIAL_LENGTH) {x : Field} (hx : ∀ i, x ≠ node i) :
    (roundPolynomial us).eval x =
      (∑ i, us[i].toField * (BARYCENTRIC_LAGRANGE_DENOMINATORS[i].toField * (x - node i))⁻¹) * ∏ i, (x - node i) := by
  rw [roundPolynomial, Lagrange.eval_interpolate_not_at_node _ fun i _ => hx i, Lagrange.eval_nodal, mul_comm]
  congr 1
  refine Finset.sum_congr rfl ?_
  intro i _
  rw [Lagrange.nodalWeight, Finset.prod_inv_distrib, prod_node_sub, mul_inv, mul_comm]

/-- No inverse exists at the nodes, and elsewhere the target is the value of the univariate. -/
theorem computeNextTargetSum_eq_ok {us : Vector Fr ZK_BATCHED_RELATION_PARTIAL_LENGTH} {u t : Fr} :
    computeNextTargetSum us u = .ok t ↔
      (∀ i, u.toField ≠ node i) ∧ t.Reduced ∧ t.toField = (roundPolynomial us).eval u.toField := by
  have hzero (i : Fin ZK_BATCHED_RELATION_PARTIAL_LENGTH) :
      (BARYCENTRIC_LAGRANGE_DENOMINATORS[i] * (u - wrap i.val)).unwrap = 0 ↔ u.toField = node i := by
    rw [(reduced_mul _ _).unwrap_eq_zero, toField_mul, mul_eq_zero, or_iff_right (denominator_ne_zero i), toField_sub_wrap,
      sub_eq_zero]
  have hnum : ((List.finRange ZK_BATCHED_RELATION_PARTIAL_LENGTH).foldl
      (fun numeratorValue i => numeratorValue * (u - wrap i.val)) (wrap 1)).toField = ∏ i, (u.toField - node i) := by
    rw [foldl_finRange_mul toField _ _ fun a i => by rw [toField_mul, toField_sub_wrap]]
    simp
  have hsum {ds : Vector Fr ZK_BATCHED_RELATION_PARTIAL_LENGTH}
      (hds : ∀ i, ds[i].toField = (BARYCENTRIC_LAGRANGE_DENOMINATORS[i].toField * (u.toField - node i))⁻¹) :
      ((List.finRange ZK_BATCHED_RELATION_PARTIAL_LENGTH).foldl
        (fun targetSum i => targetSum + us[i] * ds[i]) (wrap 0)).toField =
      ∑ i, us[i].toField * (BARYCENTRIC_LAGRANGE_DENOMINATORS[i].toField * (u.toField - node i))⁻¹ := by
    rw [foldl_finRange_add toField _ _ fun a i => by rw [toField_add, toField_mul, hds]]
    simp
  unfold computeNextTargetSum
  simp only [bind_eq_ok, pure_eq_ok, ofFnM_eq_ok, invert_eq_ok, Ne, hzero, toField_mul, toField_sub_wrap]
  constructor
  · rintro ⟨ds, hds, rfl⟩
    have hx (i) : u.toField ≠ node i := (hds i).1
    refine ⟨hx, reduced_mul _ _, ?_⟩
    rw [toField_mul, hnum, hsum fun i => (hds i).2.2, eval_roundPolynomial_of_ne us hx]
  · rintro ⟨hx, hred, ht⟩
    have hinv (i : Fin ZK_BATCHED_RELATION_PARTIAL_LENGTH) : ∃ b, (BARYCENTRIC_LAGRANGE_DENOMINATORS[i] * (u - wrap i.val)).invert = .ok b :=
      exists_invert fun h => hx i ((hzero i).1 h)
    choose f hf using hinv
    have hds (i) : (Vector.ofFn f).get i = f i := by rw [get_eq, Vector.getElem_ofFn]
    have hfield (i) := (invert_eq_ok.1 (hf i)).2
    simp only [toField_mul, toField_sub_wrap] at hfield
    refine ⟨Vector.ofFn f, ?_, ?_⟩
    · intro i
      rw [hds]
      exact ⟨hx i, hfield i⟩
    · refine ((reduced_mul _ _).toField_inj hred).1 ?_
      rw [toField_mul, hnum, hsum fun i => (congrArg toField (hds i)).trans (hfield i).2, ht, eval_roundPolynomial_of_ne us hx]

/-! ### The loop -/

variable {proof : ZKProof logN} {tp : ZKTranscript logN}

/-- The rounds of the protocol: the prover's univariate and the verifier's challenge. -/
noncomputable def rounds (proof : ZKProof logN) (tp : ZKTranscript logN) (is : List (Fin logN)) : List (Field[X] × Field) :=
  is.map fun i => (roundPolynomial proof.sumcheckUnivariates[i], tp.sumCheckUChallenges[i].toField)

/-- No challenge is one of the points at which the univariates are given. -/
def OffNodes (tp : ZKTranscript logN) (is : List (Fin logN)) : Prop :=
  ∀ i ∈ is, ∀ j, tp.sumCheckUChallenges[i].toField ≠ node j

/-- `powPartialEvaluation` after the given rounds. -/
def powAfter (tp : ZKTranscript logN) (is : List (Fin logN)) (pow : Fr) : Fr :=
  is.foldl (fun pow i => pow * (wrap 1 + tp.sumCheckUChallenges[i] * (tp.gateChallenges[i] - wrap 1))) pow

theorem powAfter_cons (i : Fin logN) (is : List (Fin logN)) (pow : Fr) : powAfter tp (i :: is) pow =
    powAfter tp is (pow * (wrap 1 + tp.sumCheckUChallenges[i] * (tp.gateChallenges[i] - wrap 1))) := by
  rw [powAfter, powAfter, List.foldl_cons]

theorem toField_total (us : Vector Fr ZK_BATCHED_RELATION_PARTIAL_LENGTH) :
    (us[0] + us[1]).toField = (roundPolynomial us).eval 0 + (roundPolynomial us).eval 1 := by
  have h0 := eval_roundPolynomial us ⟨0, by decide⟩
  have h1 := eval_roundPolynomial us ⟨1, by decide⟩
  rw [node, Nat.cast_zero] at h0
  rw [node, Nat.cast_one] at h1
  rw [toField_add, h0, h1]
  rfl

/-- One turn: the check of the claim, and the univariate at the challenge as the next claim. -/
theorem sumcheckRound_eq_ok {acc acc' : Fr × Fr} {i : Fin logN} (hacc : acc.1.Reduced) :
    sumcheckRound proof tp acc i = .ok acc' ↔
      (∀ j, tp.sumCheckUChallenges[i].toField ≠ node j) ∧
      (roundPolynomial proof.sumcheckUnivariates[i]).eval 0 + (roundPolynomial proof.sumcheckUnivariates[i]).eval 1 =
        acc.1.toField ∧
      acc'.1.Reduced ∧
      acc'.1.toField = (roundPolynomial proof.sumcheckUnivariates[i]).eval tp.sumCheckUChallenges[i].toField ∧
      acc'.2 = acc.2 * (wrap 1 + tp.sumCheckUChallenges[i] * (tp.gateChallenges[i] - wrap 1)) := by
  unfold sumcheckRound
  simp only [bind_eq_ok, exists_punit, revertIf_eq_ok, pure_eq_ok, not_not, computeNextTargetSum_eq_ok,
    (reduced_add _ _).equal_iff hacc, toField_total]
  constructor
  · rintro ⟨hsum, t, ⟨hne, hred, ht⟩, rfl⟩
    exact ⟨hne, hsum, hred, ht, rfl⟩
  · rintro ⟨hne, hsum, hred, ht, hpow⟩
    exact ⟨hsum, acc'.1, ⟨hne, hred, ht⟩, Prod.ext rfl hpow.symm⟩

theorem foldlM_sumcheckRound_eq_ok {is : List (Fin logN)} {acc acc' : Fr × Fr} (hacc : acc.1.Reduced) :
    is.foldlM (sumcheckRound proof tp) acc = .ok acc' ↔
      OffNodes tp is ∧ acc'.1.Reduced ∧ Accepts 8 acc.1.toField (rounds proof tp is) acc'.1.toField ∧
        acc'.2 = powAfter tp is acc.2 := by
  induction is generalizing acc with
  | nil =>
    rw [List.foldlM_nil, pure_eq_ok]
    constructor
    · rintro rfl
      exact ⟨nofun, hacc, rfl, rfl⟩
    · rintro ⟨-, hred, hclaim, hpow⟩
      exact Prod.ext ((hacc.toField_inj hred).1 hclaim) hpow.symm
  | cons i is ih =>
    rw [List.foldlM_cons, bind_eq_ok]
    have haccepts (final : Field) : Accepts 8 acc.1.toField (rounds proof tp (i :: is)) final ↔
        (roundPolynomial proof.sumcheckUnivariates[i]).eval 0 + (roundPolynomial proof.sumcheckUnivariates[i]).eval 1 =
          acc.1.toField ∧
        Accepts 8 ((roundPolynomial proof.sumcheckUnivariates[i]).eval tp.sumCheckUChallenges[i].toField)
          (rounds proof tp is) final :=
      and_iff_right (natDegree_roundPolynomial_le _)
    rw [haccepts, powAfter_cons, OffNodes, List.forall_mem_cons]
    constructor
    · rintro ⟨next, hround, hrest⟩
      obtain ⟨hne, hsum, hred, ht, hpow⟩ := (sumcheckRound_eq_ok hacc).1 hround
      rw [ih hred, ht, hpow] at hrest
      obtain ⟨hoff, hred', hrounds, hpow'⟩ := hrest
      exact ⟨⟨hne, hoff⟩, hred', ⟨hsum, hrounds⟩, hpow'⟩
    · rintro ⟨⟨hne, hoff⟩, hred', ⟨hsum, hrounds⟩, hpow'⟩
      have hfield := toField_ofField ((roundPolynomial proof.sumcheckUnivariates[i]).eval tp.sumCheckUChallenges[i].toField)
      rw [← hfield] at hrounds
      exact ⟨(ofField _, _), (sumcheckRound_eq_ok hacc).2 ⟨hne, hsum, reduced_wrap _, hfield, rfl⟩,
        (ih (reduced_wrap _)).2 ⟨hoff, hred', hrounds, hpow'⟩⟩

/-! ### The whole check -/

def challenges (tp : ZKTranscript logN) : List Field := tp.sumCheckUChallenges.toList.map toField

def gates (tp : ZKTranscript logN) : List Field := tp.gateChallenges.toList.map toField

/-- The powers of the gate challenge at the rows, extended to all points. -/
def powAt (gs us : List Field) : Field := (List.zipWith (fun g u => 1 + u * (g - 1)) gs us).prod

/-- 0 at the last four rows and 1 at the others, extended to all points. -/
def enabledAt (us : List Field) : Field := 1 - (us.drop 2).prod

/-- What the last claim has to be. -/
def grandHonkSum (proof : ZKProof logN) (tp : ZKTranscript logN) : Field :=
  accumulateRelationEvaluations ((relationsEvaluations proof).map toField) (tp.relationParameters.map toField)
      (tp.alphas.map toField) (powAt (gates tp) (challenges tp)) * enabledAt (challenges tp) +
    proof.libraEvaluation.toField * tp.libraChallenge.toField

theorem toField_powAfter (tp : ZKTranscript logN) :
    (powAfter tp (List.finRange logN) (wrap 1)).toField = powAt (gates tp) (challenges tp) := by
  have hzip : List.zipWith (fun g u => 1 + u * (g - 1)) (gates tp) (challenges tp) =
      List.ofFn fun i => 1 + tp.sumCheckUChallenges[i].toField * (tp.gateChallenges[i].toField - 1) := by
    refine List.ext_getElem (by simp [gates, challenges]) ?_
    intro i _ _
    simp [gates, challenges]
  rw [powAt, hzip, List.prod_ofFn, powAfter, foldl_finRange_mul toField
    (fun i => 1 + tp.sumCheckUChallenges[i].toField * (tp.gateChallenges[i].toField - 1))]
  · simp
  · intro a i
    simp

theorem toField_evaluation (tp : ZKTranscript logN) :
    ((tp.sumCheckUChallenges.toList.drop 2).foldl (· * ·) (wrap 1)).toField = ((challenges tp).drop 2).prod := by
  rw [foldl_mul toField toField _ toField_mul, challenges, List.map_drop]
  simp

theorem toField_grandHonkRelationSum {q : Fr} (hq : q = powAfter tp (List.finRange logN) (wrap 1)) :
    (accumulateRelationEvaluations (relationsEvaluations proof) tp.relationParameters tp.alphas q *
        (wrap 1 - (tp.sumCheckUChallenges.toList.drop 2).foldl (· * ·) (wrap 1)) +
      proof.libraEvaluation * tp.libraChallenge).toField = grandHonkSum proof tp := by
  rw [toField_add, toField_mul, toField_mul, toField_sub, toField_accumulate, hq, toField_powAfter, toField_evaluation,
    toField_wrap, Nat.cast_one]
  rfl

/-- `verifySumcheck` accepts exactly if no challenge is a node and the verifier of the protocol accepts. -/
theorem verifySumcheck_eq_ok : verifySumcheck proof tp = .ok true ↔
    OffNodes tp (List.finRange logN) ∧ Accepts 8 (tp.libraChallenge.toField * proof.libraSum.toField)
      (rounds proof tp (List.finRange logN)) (grandHonkSum proof tp) := by
  have hloop (acc' : Fr × Fr) := @foldlM_sumcheckRound_eq_ok _ proof tp (List.finRange logN)
    (tp.libraChallenge * proof.libraSum, wrap 1) acc' (reduced_mul _ _)
  unfold verifySumcheck
  simp only [bind_eq_ok, pure_eq_ok, hloop, toField_mul]
  constructor
  · rintro ⟨⟨t, q⟩, ⟨hoff, hred, haccepts, hq⟩, hequal⟩
    rw [(reduced_add _ _).equal_iff hred, toField_grandHonkRelationSum hq] at hequal
    rw [hequal]
    exact ⟨hoff, haccepts⟩
  · rintro ⟨hoff, haccepts⟩
    refine ⟨(ofField (grandHonkSum proof tp), powAfter tp (List.finRange logN) (wrap 1)), ⟨hoff, reduced_wrap _, ?_, rfl⟩, ?_⟩
    · rwa [toField_ofField]
    · have hred : (ofField (grandHonkSum proof tp)).Reduced := reduced_wrap _
      rw [(reduced_add _ _).equal_iff hred, toField_grandHonkRelationSum rfl, toField_ofField]

end HonkVerifier
end InfraVeritas
