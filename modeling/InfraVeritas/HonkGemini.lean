import InfraVeritas.HonkSoundness
import InfraVeritas.Lib.Folding

/-!
# `computeFoldPosEvaluations`

The evaluations that end the sumcheck are batched with powers of rho, and the commitments with the same powers to a
polynomial with the batched table as its coefficients. The prover folds it down to a constant; the verifier takes the folds
at `-r, -r², -r⁴, …` from the proof and computes from them what they have to be at `r, r², r⁴, …` for the constant to be
the batched evaluation. If the openings of these are right, so is every evaluation (`evaluations_sound`).
-/

namespace InfraVeritas
open Checks Honk HonkVerifier Fr Loops Sumcheck Multilinear Folding Polynomial

namespace HonkVerifier

abbrev NUMBER_UNSHIFTED : Nat := 36
abbrev NUMBER_UNSHIFTED_ZK : Nat := NUMBER_UNSHIFTED + NUM_MASKING_POLYNOMIALS
abbrev NUMBER_TO_BE_SHIFTED : Nat := 5
abbrev SHIFTED_COMMITMENTS_START : Nat := 30

variable {logN : Nat}

def computeSquares (r : Fr) (logN : Nat) : Vector Fr logN := Vector.ofFn fun i => sqr^[i] r

/-- One turn of the loop, on `batchedEvalAccumulator`. -/
def foldPosRound (challengePower u geminiEvaluation batchedEvalAccumulator : Fr) : Except HonkError Fr := do
  let batchedEvalRoundAcc := challengePower * batchedEvalAccumulator * wrap 2 -
    geminiEvaluation * (challengePower * (wrap 1 - u) - u)
  return batchedEvalRoundAcc * (← (challengePower * (wrap 1 - u) + u).invert)

/-- The loop runs from the last index on. -/
def foldPosLoop (batchedEvalAccumulator : Fr) (inputs : List (Fr × Fr × Fr)) : Except HonkError (List Fr) :=
  inputs.foldrM (fun (challengePower, u, geminiEvaluation) foldPosEvaluations => do
    let batchedEvalRoundAcc ← foldPosRound challengePower u geminiEvaluation
      (foldPosEvaluations.headD batchedEvalAccumulator)
    return batchedEvalRoundAcc :: foldPosEvaluations) []

def computeFoldPosEvaluations (sumcheckUChallenges : Vector Fr logN) (batchedEvalAccumulator : Fr)
    (geminiEvaluations geminiEvalChallengePowers : Vector Fr logN) : Except HonkError (List Fr) :=
  foldPosLoop batchedEvalAccumulator
    (List.ofFn fun i => (geminiEvalChallengePowers.get i, sumcheckUChallenges.get i, geminiEvaluations.get i))

/-- The accumulation of `mem.batchedEvaluation`, whose two loops run over all evaluations. -/
def batchEvaluations (sumcheckEvaluations : Vector Fr NUMBER_OF_ENTITIES_ZK) (rho : Fr) : Fr :=
  (sumcheckEvaluations.toList.foldl (fun (batchedEvaluation, batchingChallenge) evaluation =>
    (batchedEvaluation + evaluation * batchingChallenge, batchingChallenge * rho)) (wrap 0, wrap 1)).1

/-! ### The loops -/

@[simp] theorem toField_sqr_iterate (r : Fr) (i : Nat) : (sqr^[i] r).toField = r.toField ^ 2 ^ i := by
  induction i with
  | zero => simp
  | succ i ih => rw [Function.iterate_succ_apply', toField_sqr, ih, ← pow_mul, pow_succ]

/-- The equation of a round, without the division. -/
def RoundEq (p u g next v : Field) : Prop := v * (p * (1 - u) + u) = p * next * (2 : Nat) - g * (p * (1 - u) - u)

theorem foldPosRound_eq_ok {p u g acc v : Fr} : foldPosRound p u g acc = .ok v ↔
    p.toField * (1 - u.toField) + u.toField ≠ 0 ∧ v.Reduced ∧
      RoundEq p.toField u.toField g.toField acc.toField v.toField := by
  have hden : (p * (wrap 1 - u) + u).toField = p.toField * (1 - u.toField) + u.toField := by simp
  have hne : (p * (wrap 1 - u) + u).unwrap ≠ 0 ↔ p.toField * (1 - u.toField) + u.toField ≠ 0 := by
    rw [Ne, (reduced_add _ _).unwrap_eq_zero, hden]
  have hnum : (p * acc * wrap 2 - g * (p * (wrap 1 - u) - u)).toField =
      p.toField * acc.toField * (2 : Nat) - g.toField * (p.toField * (1 - u.toField) - u.toField) := by simp
  unfold foldPosRound
  simp only [bind_eq_ok, pure_eq_ok, invert_eq_ok, hne, hden, RoundEq]
  constructor
  · rintro ⟨d, ⟨hd, -, hinv⟩, rfl⟩
    refine ⟨hd, reduced_mul _ _, ?_⟩
    rw [toField_mul, hinv, hnum, mul_assoc, inv_mul_cancel₀ hd, mul_one]
  · rintro ⟨hd, hred, heq⟩
    obtain ⟨d, hinv⟩ := exists_invert (hne.2 hd)
    obtain ⟨-, hdred, hfield⟩ := invert_eq_ok.1 hinv
    rw [hden] at hfield
    refine ⟨d, ⟨hd, hdred, hfield⟩, ((reduced_mul _ _).toField_inj hred).1 ?_⟩
    rw [toField_mul, hfield, hnum, ← heq, mul_assoc, mul_inv_cancel₀ hd, mul_one]

theorem foldPosLoop_eq_ok {y : Fr} {inputs : List (Fr × Fr × Fr)} {vs : List Fr} : foldPosLoop y inputs = .ok vs ↔
    vs.length = inputs.length ∧ ∀ (i : Nat) (hi : i < inputs.length) (hi' : i < vs.length),
      inputs[i].1.toField * (1 - inputs[i].2.1.toField) + inputs[i].2.1.toField ≠ 0 ∧ vs[i].Reduced ∧
      RoundEq inputs[i].1.toField inputs[i].2.1.toField inputs[i].2.2.toField (vs[i + 1]?.getD y).toField vs[i].toField := by
  induction inputs generalizing vs with
  | nil =>
    rw [foldPosLoop, List.foldrM_nil, pure_eq_ok]
    constructor
    · rintro rfl
      exact ⟨rfl, fun i hi => absurd hi (Nat.not_lt_zero i)⟩
    · rintro ⟨hlen, -⟩
      exact (List.length_eq_zero_iff.1 hlen).symm
  | cons input inputs ih =>
    have hhead (v : Fr) (tail : List Fr) : tail.headD y = (v :: tail)[0 + 1]?.getD y := by
      rw [List.headD_eq_head?_getD, List.head?_eq_getElem?, List.getElem?_cons_succ]
    rw [foldPosLoop, List.foldrM_cons, bind_eq_ok]
    simp only [bind_eq_ok, pure_eq_ok, foldPosRound_eq_ok]
    constructor
    · rintro ⟨tail, htail, v, hv, rfl⟩
      obtain ⟨hlen, hrest⟩ := ih.1 htail
      refine ⟨by rw [List.length_cons, List.length_cons, hlen], ?_⟩
      rintro (_ | i) hi hi'
      · rw [hhead v tail] at hv
        exact hv
      · exact hrest i (Nat.lt_of_succ_lt_succ hi) (Nat.lt_of_succ_lt_succ hi')
    · rintro ⟨hlen, hall⟩
      rcases vs with _ | ⟨v, tail⟩
      · exact absurd hlen (Nat.succ_ne_zero _).symm
      · have hv := hall 0 (Nat.succ_pos _) (Nat.succ_pos _)
        rw [← hhead v tail] at hv
        refine ⟨tail, ih.2 ⟨Nat.succ_injective hlen, ?_⟩, v, hv, rfl⟩
        intro i hi hi'
        exact hall (i + 1) (Nat.succ_lt_succ hi) (Nat.succ_lt_succ hi')

/-- The values at `r, r², r⁴, …`, and the batched evaluation behind them. -/
def posAt (y : Fr) (vs : List Fr) (i : Nat) : Field := (vs[i]?.getD y).toField

/-- No denominator is zero, and every value satisfies its round's equation with the one behind it. -/
theorem computeFoldPosEvaluations_eq_ok {us gs : Vector Fr logN} {y r : Fr} {vs : List Fr} :
    computeFoldPosEvaluations us y gs (computeSquares r logN) = .ok vs ↔
      vs.length = logN ∧ (∀ v ∈ vs, v.Reduced) ∧ ∀ i : Fin logN,
        r.toField ^ 2 ^ i.val * (1 - (us.get i).toField) + (us.get i).toField ≠ 0 ∧
        RoundEq (r.toField ^ 2 ^ i.val) (us.get i).toField (gs.get i).toField (posAt y vs (i + 1)) (posAt y vs i) := by
  have hsquares (i : Fin logN) : ((computeSquares r logN).get i).toField = r.toField ^ 2 ^ i.val := by
    rw [get_eq, computeSquares, Vector.getElem_ofFn, toField_sqr_iterate]
  rw [computeFoldPosEvaluations, foldPosLoop_eq_ok]
  simp only [List.length_ofFn, List.getElem_ofFn, hsquares, posAt]
  refine and_congr_right fun hlen => ?_
  subst hlen
  constructor
  · intro h
    refine ⟨?_, ?_⟩
    · intro v hv
      obtain ⟨i, hi, rfl⟩ := List.getElem_of_mem hv
      exact (h i hi hi).2.1
    · intro i
      obtain ⟨hd, -, heq⟩ := h i i.isLt i.isLt
      rw [List.getElem?_eq_getElem i.isLt]
      exact ⟨hd, heq⟩
  · rintro ⟨hred, h⟩ i hi hi'
    obtain ⟨hd, heq⟩ := h ⟨i, hi⟩
    rw [List.getElem?_eq_getElem hi'] at heq
    exact ⟨hd, hred _ (List.getElem_mem hi'), heq⟩

/-! ### The batching -/

theorem toField_batchEvaluations (es : Vector Fr NUMBER_OF_ENTITIES_ZK) (rho : Fr) : (batchEvaluations es rho).toField =
    ∑ i : Fin NUMBER_OF_ENTITIES_ZK, (es.get i).toField * rho.toField ^ i.val := by
  have hloop (l : List Fr) (acc pow : Fr) :
      (l.foldl (fun (p : Fr × Fr) e => (p.1 + e * p.2, p.2 * rho)) (acc, pow)).1.toField =
        acc.toField + pow.toField * ∑ i : Fin l.length, (l.get i).toField * rho.toField ^ i.val := by
    induction l generalizing acc pow with
    | nil => simp
    | cons e l ih =>
      have hnext : ∑ i : Fin l.length, (l.get i).toField * rho.toField ^ i.succ.val =
          rho.toField * ∑ i : Fin l.length, (l.get i).toField * rho.toField ^ i.val := by
        rw [Finset.mul_sum]
        refine Finset.sum_congr rfl ?_
        intro i _
        rw [Fin.val_succ, pow_succ]
        ring
      have hcons : ∑ i : Fin (e :: l).length, ((e :: l).get i).toField * rho.toField ^ i.val =
          e.toField * rho.toField ^ 0 + ∑ i : Fin l.length, (l.get i).toField * rho.toField ^ i.succ.val :=
        Fin.sum_univ_succ _
      rw [List.foldl_cons, ih, hcons, hnext, toField_add, toField_mul, toField_mul]
      ring
  refine (hloop es.toList (wrap 0) (wrap 1)).trans ?_
  rw [toField_wrap, toField_wrap, Nat.cast_zero, Nat.cast_one, zero_add, one_mul]
  exact Fintype.sum_equiv (finCongr es.length_toList) _ _ fun i => rfl

/-! ### The batched table -/

/-- The committed polynomials, in the order of the first evaluations: the masking one, the selectors and the witness. -/
abbrev Committed := Vector Field[X] NUMBER_UNSHIFTED_ZK

namespace Committed
variable (fs : Committed)

/-- `commitments[SHIFTED_COMMITMENTS_START + j]` -/
def toBeShifted (j : Fin NUMBER_TO_BE_SHIFTED) : Field[X] :=
  fs.get ⟨SHIFTED_COMMITMENTS_START - 1 + j.val, (Nat.add_lt_add_left j.isLt _).trans (by decide)⟩

/-- What the sumcheck's evaluations have to be: of all tables, and of five of them moved by a row. -/
noncomputable def evaluation (us : List Field) : Fin (NUMBER_UNSHIFTED_ZK + NUMBER_TO_BE_SHIFTED) → Field :=
  Fin.addCases (fun i => mle us (fs.get i).coeff) fun j => mle us (fs.toBeShifted j).divX.coeff

noncomputable def unshifted (rho : Field) : Field[X] := ∑ i, C (rho ^ i.val) * fs.get i

noncomputable def shifted (rho : Field) : Field[X] := ∑ j, C (rho ^ (NUMBER_UNSHIFTED_ZK + j.val)) * fs.toBeShifted j

/-- The batched table. -/
noncomputable def batched (rho : Field) : Field[X] := fs.unshifted rho + (fs.shifted rho).divX

variable {fs}

theorem evaluation_castAdd (us : List Field) (i : Fin NUMBER_UNSHIFTED_ZK) :
    fs.evaluation us (Fin.castAdd NUMBER_TO_BE_SHIFTED i) = mle us (fs.get i).coeff := Fin.addCases_left ..

theorem evaluation_natAdd (us : List Field) (j : Fin NUMBER_TO_BE_SHIFTED) :
    fs.evaluation us (Fin.natAdd NUMBER_UNSHIFTED_ZK j) = mle us (fs.toBeShifted j).divX.coeff := Fin.addCases_right ..

theorem mle_sum {ι : Type} (us : List Field) (is : Finset ι) (c : ι → Field) (f : ι → Nat → Field) :
    mle us (fun j => ∑ i ∈ is, c i * f i j) = ∑ i ∈ is, c i * mle us (f i) := by
  classical
  induction is using Finset.induction_on with
  | empty =>
    have hzero := mle_combine (0 : Field) 0 us (fun _ => 0) fun _ => 0
    simpa using hzero
  | insert i is hi ih =>
    have hone := mle_combine (c i) 1 us (f i) fun j => ∑ i ∈ is, c i * f i j
    simp only [one_mul] at hone
    simp only [Finset.sum_insert hi]
    rw [hone, ih]

/-- The batched table's extension is the batch of the evaluations. -/
theorem mle_batched (us : List Field) (rho : Field) : mle us (fs.batched rho).coeff =
    ∑ i : Fin (NUMBER_UNSHIFTED_ZK + NUMBER_TO_BE_SHIFTED), fs.evaluation us i * rho ^ i.val := by
  have hcoeff : (fs.batched rho).coeff = fun j => 1 * (∑ i, rho ^ i.val * (fs.get i).coeff j) +
      1 * ∑ k : Fin NUMBER_TO_BE_SHIFTED, rho ^ (NUMBER_UNSHIFTED_ZK + k.val) * (fs.toBeShifted k).divX.coeff j := by
    funext j
    rw [batched, coeff_add, unshifted, finsetSum_coeff, coeff_divX, shifted, finsetSum_coeff, one_mul, one_mul]
    simp only [coeff_C_mul, coeff_divX]
  have hsplit := Fin.sum_univ_add fun i : Fin (NUMBER_UNSHIFTED_ZK + NUMBER_TO_BE_SHIFTED) =>
    fs.evaluation us i * rho ^ i.val
  rw [hcoeff, mle_combine, mle_sum, mle_sum, one_mul, one_mul, hsplit]
  refine congrArg₂ (· + ·) (Finset.sum_congr rfl ?_) (Finset.sum_congr rfl ?_)
  · intro i _
    rw [evaluation_castAdd, mul_comm, Fin.val_castAdd]
  · intro j _
    rw [evaluation_natAdd, mul_comm, Fin.val_natAdd]

end Committed

/-! ### Soundness -/

/-- The openings that `verifyShplemini` reduces the evaluations to: of the batched commitments at `r` and `-r`, where the
shifts are divided by the point, and of the folds `A` at the powers. -/
structure Opened (fs : Committed) (A : Nat → Field[X]) (rho r : Field) (gs : Vector Fr logN) (vs : List Fr) : Prop where
  pos : (vs[0]?.map toField) = some ((fs.unshifted rho).eval r + r⁻¹ * (fs.shifted rho).eval r)
  neg : (gs[0]?.map toField) = some ((fs.unshifted rho).eval (-r) - r⁻¹ * (fs.shifted rho).eval (-r))
  foldPos : ∀ (i : Nat) (hi : i < vs.length), 0 < i → vs[i].toField = (A i).eval (r ^ 2 ^ i)
  foldNeg : ∀ (i : Nat) (hi : i < logN), 0 < i → gs[i].toField = (A i).eval (-r ^ 2 ^ i)

section
variable {fs : Committed} {A : Nat → Field[X]} {m D : Nat}

theorem natDegree_batched_le (hfs : ∀ i, (fs.get i).natDegree ≤ D) (rho : Field) : (fs.batched rho).natDegree ≤ D := by
  have hunshifted : (fs.unshifted rho).natDegree ≤ D :=
    natDegree_sum_le_of_forall_le _ _ fun i _ => (natDegree_C_mul_le _ _).trans (hfs i)
  have hshifted : (fs.shifted rho).natDegree ≤ D :=
    natDegree_sum_le_of_forall_le _ _ fun j _ => (natDegree_C_mul_le _ _).trans (hfs _)
  refine (natDegree_add_le _ _).trans (max_le hunshifted ?_)
  rw [natDegree_divX_eq_natDegree_tsub_one]
  omega

/-- The batched table, the committed folds and the batched evaluation, as one chain. -/
noncomputable def chain (fs : Committed) (A : Nat → Field[X]) (rho y : Field) (m i : Nat) : Field[X] :=
  if i = 0 then fs.batched rho else if i = m + 1 then C y else A i

/-- A round's equation between values of polynomials. -/
theorem defect_of_roundEq {p u : Field} {Q Q' : Field[X]} (h : RoundEq p u (Q.eval (-p)) (Q'.eval (p ^ 2)) (Q.eval p)) :
    (defect u Q Q').eval p = 0 := by
  rw [RoundEq] at h
  rw [eval_defect]
  linear_combination h

/-- The first round's, in which the shifts are divided by the point. -/
theorem defect_of_roundEq_shifted {p u : Field} {Q Q' G : Field[X]} (hp : p ≠ 0)
    (h : RoundEq p u (Q.eval (-p) - p⁻¹ * G.eval (-p)) (Q'.eval (p ^ 2)) (Q.eval p + p⁻¹ * G.eval p)) :
    p * (defect u (Q + G.divX) Q').eval p + 2 * u * G.coeff 0 = 0 := by
  have hdiv (x : Field) : G.eval x = G.divX.eval x * x + G.coeff 0 := by
    have heval := congrArg (eval x) (divX_mul_X_add G)
    rw [eval_add, eval_mul, eval_X, eval_C] at heval
    exact heval.symm
  have hinv : p * p⁻¹ = 1 := mul_inv_cancel₀ hp
  rw [RoundEq, hdiv p, hdiv (-p)] at h
  rw [eval_defect, eval_add, eval_add]
  linear_combination p * h - (p * (G.divX.eval p * (p * (1 - u) + u) + G.divX.eval (-p) * (p * (1 - u) - u)) +
    2 * u * G.coeff 0) * hinv

/-- Outside the points that the chain of folds rules out, the batched evaluation is right and no shift loses a first row. -/
theorem exists_points (hfs : ∀ i, (fs.get i).natDegree ≤ D) (hA : ∀ i, (A i).natDegree ≤ D) (us : Vector Fr (m + 1)) (rho : Field)
    (y : Fr) : ((2 : Field) * us[0].toField * (fs.shifted rho).coeff 0 = 0 ∧
        y.toField = mle (us.toList.map toField) (fs.batched rho).coeff) ∨
    ∃ B : Finset Field, B.card ≤ (2 * D + 2) * 2 ^ m ∧ ∀ (r : Fr) (gs : Vector Fr (m + 1)) (vs : List Fr),
      r.toField ∉ B → r.toField ≠ 0 → Opened fs A rho r.toField gs vs →
      computeFoldPosEvaluations us y gs (computeSquares r (m + 1)) ≠ .ok vs := by
  have hdegree (i : Nat) : (chain fs A rho y.toField m i).natDegree ≤ D := by
    rw [chain]
    split_ifs
    · exact natDegree_batched_le hfs rho
    · exact (natDegree_C _).le.trans (Nat.zero_le D)
    · exact hA i
  have hlen : (us.toList.map toField).length = m + 1 := by simp
  have hlast : chain fs A rho y.toField m (us.toList.map toField).length = C y.toField := by
    rw [hlen, chain, if_neg (Nat.succ_ne_zero m), if_pos rfl]
  have hfolds := eq_mle_or_card_le two_ne_zero_field hlen hdegree ((2 : Field) * us[0].toField * (fs.shifted rho).coeff 0)
  rw [hlast, coeff_C_zero] at hfolds
  refine hfolds.imp_right ?_
  rintro ⟨B, hcard, hB⟩
  refine ⟨B, hcard, ?_⟩
  intro r gs vs hr hr0 hopened hok
  obtain ⟨hvs, -, hrounds⟩ := computeFoldPosEvaluations_eq_ok.1 hok
  obtain ⟨i, hi, hne⟩ := hB _ hr
  have hi' : i < m + 1 := hlen ▸ hi
  obtain ⟨-, hround⟩ := hrounds ⟨i, hi'⟩
  have hu : (us.toList.map toField)[i] = us[i].toField := by simp
  have hpos {k : Nat} (hk : 0 < k) (hkm : k ≤ m + 1) :
      posAt y vs k = (chain fs A rho y.toField m k).eval (r.toField ^ 2 ^ k) := by
    rcases hkm.lt_or_eq with hlt | rfl
    · rw [posAt, List.getElem?_eq_getElem (hvs ▸ hlt), chain, if_neg hk.ne', if_neg hlt.ne]
      exact hopened.foldPos k _ hk
    · rw [posAt, List.getElem?_eq_none hvs.le, chain, if_neg (Nat.succ_ne_zero m), if_pos rfl, eval_C]
      rfl
  have hsq : r.toField ^ 2 ^ (i + 1) = (r.toField ^ 2 ^ i) ^ 2 := by rw [← pow_mul, pow_succ]
  have hnext := hpos (Nat.succ_pos i) hi'
  rw [hsq] at hnext
  simp only [get_eq, hnext] at hround
  rw [hu] at hne
  refine hne ?_
  rcases Nat.eq_zero_or_pos i with rfl | hi0
  · obtain ⟨v, hv, hpos0⟩ := Option.map_eq_some_iff.1 hopened.pos
    obtain ⟨g, hg, hneg0⟩ := Option.map_eq_some_iff.1 hopened.neg
    have hg0 : gs[0] = g := by simpa using hg
    rw [posAt, hv, Option.getD_some, hpos0, hg0, hneg0, pow_zero, pow_one] at hround
    rw [if_pos rfl, pow_zero, pow_one]
    exact defect_of_roundEq_shifted hr0 hround
  · have hchain : chain fs A rho y.toField m i = A i := by rw [chain, if_neg hi0.ne', if_neg hi'.ne]
    rw [hpos hi0 hi'.le, hopened.foldNeg i hi' hi0, hchain] at hround
    rw [if_neg hi0.ne', add_zero, hchain, defect_of_roundEq hround, mul_zero]

/-- A wrong evaluation of a committed table, or a table to be shifted whose first row is not 0, leaves few values of rho and
of `r` at which all openings are right. -/
theorem evaluations_sound (hfs : ∀ i, (fs.get i).natDegree ≤ D) (us : Vector Fr (m + 1))
    (es : Vector Fr NUMBER_OF_ENTITIES_ZK) :
    ((∀ i, (es.get i).toField = fs.evaluation (us.toList.map toField) i) ∧
      (us[0].toField = 0 ∨ ∀ j, (fs.toBeShifted j).coeff 0 = 0)) ∨
    ∃ R : Finset Field, R.card ≤ 41 ∧ ∀ rho : Fr, rho.toField ∉ R →
      ∀ A : Nat → Field[X], (∀ i, (A i).natDegree ≤ D) →
      ∃ B : Finset Field, B.card ≤ (2 * D + 2) * 2 ^ m ∧ ∀ (r : Fr) (gs : Vector Fr (m + 1)) (vs : List Fr),
        r.toField ∉ B → r.toField ≠ 0 → Opened fs A rho.toField r.toField gs vs →
        computeFoldPosEvaluations us (batchEvaluations es rho) gs (computeSquares r (m + 1)) ≠ .ok vs := by
  by_cases heval : ∀ i, (es.get i).toField = fs.evaluation (us.toList.map toField) i
  · by_cases hfirst : us[0].toField = 0 ∨ ∀ j, (fs.toBeShifted j).coeff 0 = 0
    · exact .inl ⟨heval, hfirst⟩
    · push Not at hfirst
      obtain ⟨hu, j, hj⟩ := hfirst
      let c : Fin (NUMBER_UNSHIFTED_ZK + NUMBER_TO_BE_SHIFTED) → Field :=
        Fin.addCases (fun _ => 0) fun j => (fs.toBeShifted j).coeff 0
      have hc : c (Fin.natAdd NUMBER_UNSHIFTED_ZK j) ≠ 0 := by
        simp only [c, Fin.addCases_right]
        exact hj
      obtain ⟨R, hR, hne⟩ := exists_sum_ne_zero hc
      refine .inr ⟨R, hR, ?_⟩
      intro rho hrho A hA
      refine (exists_points hfs hA us rho.toField (batchEvaluations es rho)).resolve_left ?_
      rintro ⟨hzero, -⟩
      have hshifted : (fs.shifted rho.toField).coeff 0 = ∑ i, c i * rho.toField ^ i.val := by
        have hsplit := Fin.sum_univ_add fun i : Fin (NUMBER_UNSHIFTED_ZK + NUMBER_TO_BE_SHIFTED) => c i * rho.toField ^ i.val
        rw [hsplit, Committed.shifted, finsetSum_coeff]
        simp only [c, Fin.addCases_left, Fin.addCases_right, zero_mul, Finset.sum_const_zero, zero_add, coeff_C_mul,
          Fin.val_natAdd]
        exact Finset.sum_congr rfl fun j _ => mul_comm ..
      rw [hshifted] at hzero
      exact mul_ne_zero (mul_ne_zero two_ne_zero_field hu) (hne _ hrho) hzero
  · push Not at heval
    obtain ⟨i, hi⟩ := heval
    obtain ⟨R, hR, hne⟩ := exists_sum_ne_zero
      (c := fun i => (es.get i).toField - fs.evaluation (us.toList.map toField) i) (sub_ne_zero.2 hi)
    refine .inr ⟨R, hR, ?_⟩
    intro rho hrho A hA
    refine (exists_points hfs hA us rho.toField (batchEvaluations es rho)).resolve_left ?_
    rintro ⟨-, heq⟩
    refine hne _ hrho ?_
    rw [toField_batchEvaluations, Committed.mle_batched] at heq
    simp only [sub_mul, Finset.sum_sub_distrib]
    exact sub_eq_zero.2 heq

/-- Every table starts with 5 and 1. -/
noncomputable def sampleTables : Committed := Vector.replicate _ (X + C 5)

/-- The corner of the second row. -/
def secondRow : Vector Fr 18 := Vector.ofFn fun i => wrap (if i.val = 0 then 1 else 0)

theorem get_sampleTables (i : Fin NUMBER_UNSHIFTED_ZK) : sampleTables.get i = X + C 5 := Vector.getElem_replicate ..

theorem natDegree_sampleTables (i : Fin NUMBER_UNSHIFTED_ZK) : (sampleTables.get i).natDegree ≤ 1 := by
  rw [get_sampleTables, natDegree_X_add_C]

/-- Whoever claims 3 for every entry of the second row is found out. -/
theorem evaluations_sound_secondRow : ∃ R : Finset Field, R.card ≤ 41 ∧ ∀ rho : Fr, rho.toField ∉ R →
    ∀ A : Nat → Field[X], (∀ i, (A i).natDegree ≤ 1) →
    ∃ B : Finset Field, B.card ≤ (2 * 1 + 2) * 2 ^ 17 ∧ ∀ (r : Fr) (gs : Vector Fr 18) (vs : List Fr),
      r.toField ∉ B → r.toField ≠ 0 → Opened sampleTables A rho.toField r.toField gs vs →
      computeFoldPosEvaluations secondRow (batchEvaluations (Vector.replicate NUMBER_OF_ENTITIES_ZK (wrap 3)) rho) gs
        (computeSquares r 18) ≠ .ok vs := by
  refine (evaluations_sound natDegree_sampleTables secondRow (Vector.replicate _ (wrap 3))).resolve_left ?_
  rintro ⟨heval, -⟩
  have hcorner : secondRow.toList.map toField = corner Field 18 1 := by decide +kernel
  let i : Fin NUMBER_UNSHIFTED_ZK := ⟨0, by decide⟩
  have hfirst := (heval (Fin.castAdd NUMBER_TO_BE_SHIFTED i)).trans (Committed.evaluation_castAdd _ i)
  have hclaim : (Vector.replicate NUMBER_OF_ENTITIES_ZK (wrap 3)).get (Fin.castAdd NUMBER_TO_BE_SHIFTED i) = wrap 3 :=
    Vector.getElem_replicate ..
  rw [hclaim, get_sampleTables, hcorner, mle_corner _ (by decide), coeff_add, coeff_X_one, coeff_C_of_ne_zero one_ne_zero, add_zero,
    toField_wrap] at hfirst
  exact absurd hfirst (by decide +kernel)

end

end HonkVerifier
end InfraVeritas
