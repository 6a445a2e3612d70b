import InfraVeritas.HonkSumcheck
import InfraVeritas.Lib.Multilinear

/-!
# What an accepted sumcheck says about the trace

A trace is a table of values for each of the 41 entities; the prover is bound to the tables, and the evaluations that it
sends are those of their multilinear extensions. If some subrelation fails in some row, `verifySumcheck` accepts for few
challenges only (`sumcheck_soundness`): at most 27 values of alpha cancel it in its row, fewer than `2 ^ logN` gate
challenges cancel its row among the rows, one libra challenge cancels the rest, and each round has 8 chances in `2 ^ 127`.
-/

namespace InfraVeritas
open Honk HonkVerifier Fr Loops RelationsLib Sumcheck Multilinear Polynomial

/-- The values of every entity at every row. -/
abbrev Trace := Vector (Nat → Field) NUMBER_OF_ENTITIES

namespace Trace
variable (tables : Trace) (rp : RelationParameters Field) (n : Nat)

def row (j : Nat) : Entities Field := tables.map (· j)

/-- The entities at a point, by their multilinear extensions. -/
def evalAt (us : List Field) : Entities Field := tables.map (mle us)

/-- The value of a subrelation at a row. -/
def subrelation (k : Fin NUMBER_OF_SUBRELATIONS) (j : Nat) : Field := (relationEvaluations (tables.row j) rp 1).get k

/-- The rows that the relations hold for: all but the last four, which hide the witness. -/
def enabledRows : Finset Nat := Finset.range (2 ^ n - 4)

/-- Every subrelation holds at every enabled row, and the one of the lookups for their sum. -/
structure Satisfied : Prop where
  row : ∀ j ∈ enabledRows n, ∀ k ≠ 5, tables.subrelation rp k j = 0
  lookup : ∑ j ∈ enabledRows n, tables.subrelation rp 5 j = 0

end Trace

namespace HonkVerifier
variable {tables : Trace} {rp : RelationParameters Field} {n : Nat}

/-! ### The corners -/

theorem prod_corner {m j : Nat} (h : j < 2 ^ m) : (corner Field m j).prod = if j = 2 ^ m - 1 then 1 else 0 := by
  induction m generalizing j with
  | zero =>
    obtain rfl : j = 0 := by simpa using h
    rfl
  | succ m ih =>
    have hpow : 2 ^ (m + 1) = 2 * 2 ^ m := by rw [pow_succ, mul_comm]
    rw [corner, List.prod_cons, ih (by omega)]
    rcases Nat.mod_two_eq_zero_or_one j with hj | hj
    · have hne : j ≠ 2 ^ (m + 1) - 1 := by omega
      simp [hj, hne]
    · have hiff : j / 2 = 2 ^ m - 1 ↔ j = 2 ^ (m + 1) - 1 := by omega
      simp [hj, hiff]

/-- The last factor switches the last four rows off. -/
theorem enabledAt_corner {j : Nat} (h : j < 2 ^ n) :
    enabledAt (corner Field n j) = if j ∈ Trace.enabledRows n then 1 else 0 := by
  match n with
  | 0 => simp [enabledAt, corner, Trace.enabledRows]
  | 1 => simp [enabledAt, corner, Trace.enabledRows]
  | m + 2 =>
    have hpow : 2 ^ (m + 2) = 4 * 2 ^ m := by rw [pow_add, mul_comm]; rfl
    have hdrop : (corner Field (m + 2) j).drop 2 = corner Field m (j / 2 / 2) := rfl
    have hiff : j / 2 / 2 = 2 ^ m - 1 ↔ j ∉ Trace.enabledRows (m + 2) := by
      rw [Trace.enabledRows, Finset.mem_range]
      omega
    rw [enabledAt, hdrop, prod_corner (by omega)]
    by_cases hj : j ∈ Trace.enabledRows (m + 2)
    · have hne := mt hiff.1 (not_not.2 hj)
      rw [if_neg hne, if_pos hj, sub_zero]
    · rw [if_pos (hiff.2 hj), if_neg hj, sub_self]

/-- `g, g², g⁴, …` -/
def squares (g : Field) : Nat → List Field
  | 0 => []
  | n + 1 => g :: squares (g ^ 2) n

theorem powAt_corner (g : Field) {j : Nat} (h : j < 2 ^ n) : powAt (squares g n) (corner Field n j) = g ^ j := by
  induction n generalizing g j with
  | zero =>
    obtain rfl : j = 0 := by simpa using h
    rfl
  | succ n ih =>
    have hcons (u : Field) (us : List Field) : powAt (squares g (n + 1)) (u :: us) =
        (1 + u * (g - 1)) * powAt (squares (g ^ 2) n) us := List.prod_cons
    rw [corner, hcons, ih _ (by omega), ← pow_mul]
    rcases Nat.mod_two_eq_zero_or_one j with hj | hj
    · have h2 : 2 * (j / 2) = j := by omega
      simp [hj, h2]
    · have h2 : 2 * (j / 2) + 1 = j := by omega
      rw [if_neg (by omega), one_mul, add_sub_cancel, ← pow_succ', h2]

theorem evalAt_corner {j : Nat} (h : j < 2 ^ n) : tables.evalAt (corner Field n j) = tables.row j := by
  refine Vector.ext ?_
  intro i hi
  rw [Trace.evalAt, Trace.row, Vector.getElem_map, Vector.getElem_map, mle_corner _ h]

/-! ### Degrees -/

theorem degreeLE_powAt (gs : List Field) (n : Nat) : DegreeLE 1 n (powAt gs) := by
  intro pre suf hlen
  clear hlen
  induction pre generalizing gs with
  | nil =>
    rcases gs with _ | ⟨g, gs⟩
    · exact ⟨1, by simp, fun x => by simp [powAt]⟩
    · refine ⟨(1 + X * C (g - 1)) * C (powAt gs suf), ?_, ?_⟩
      · compute_degree
      · intro x
        simp [powAt]
  | cons u pre ih =>
    rcases gs with _ | ⟨g, gs⟩
    · exact ⟨1, by simp, fun x => by simp [powAt]⟩
    · obtain ⟨q, hq, heval⟩ := ih gs
      refine ⟨C (1 + u * (g - 1)) * q, (natDegree_C_mul_le _ _).trans hq, ?_⟩
      intro x
      rw [eval_mul, eval_C, heval]
      simp [powAt]

theorem degreeLE_enabledAt (n : Nat) : DegreeLE 1 n enabledAt := by
  intro pre suf hlen
  clear hlen
  match pre with
  | [] => exact ⟨C (1 - (suf.drop 1).prod), by simp, fun x => by simp [enabledAt]⟩
  | [a] => exact ⟨C (1 - suf.prod), by simp, fun x => by simp [enabledAt]⟩
  | a :: b :: pre =>
    refine ⟨1 - C pre.prod * (X * C suf.prod), ?_, ?_⟩
    · compute_degree
    · intro x
      simp only [enabledAt, eval_sub, eval_one, eval_mul, eval_C, eval_X, List.cons_append, List.drop_succ_cons,
        List.drop_zero, List.prod_append, List.prod_cons]

/-- The batched relation at a point. -/
def relationAt (tables : Trace) (rp : RelationParameters Field) (alphas : Alphas Field) (gs us : List Field) : Field :=
  accumulateRelationEvaluations (tables.evalAt us) rp alphas (powAt gs us)

theorem degreeLE_relationAt (tables : Trace) (rp : RelationParameters Field) (alphas : Alphas Field) (gs : List Field)
    (n : Nat) : DegreeLE 7 n (relationAt tables rp alphas gs) := by
  intro pre suf hlen
  have hmle (f : Nat → Field) := degreeLE_mle n f pre suf hlen
  choose q hq heval using hmle
  obtain ⟨d, hd, hdeval⟩ := degreeLE_powAt gs n pre suf hlen
  refine ⟨accumulateRelationEvaluations (tables.map q) (rp.map C) (alphas.map C) d, ?_, ?_⟩
  · refine natDegree_accumulate_le ?_ rp alphas hd
    intro i hi
    rw [Vector.getElem_map]
    exact hq _
  · intro x
    have hat : Parametric.Pointwise (fun p y => p.eval x = y) (tables.map q) (tables.evalAt (pre ++ x :: suf)) := by
      refine ⟨?_⟩
      intro i hi
      rw [Vector.getElem_map, Trace.evalAt, Vector.getElem_map, heval]
    rw [eval_accumulate x hat, hdeval, relationAt]

/-- What the sumcheck is about: the relations on the enabled rows, and the polynomial `L` that hides the univariates. -/
def honkAt (tables : Trace) (rp : RelationParameters Field) (alphas : Alphas Field) (gs : List Field) (L : List Field → Field)
    (c : Field) (us : List Field) : Field :=
  relationAt tables rp alphas gs us * enabledAt us + L us * c

theorem degreeLE_honkAt (tables : Trace) (rp : RelationParameters Field) (alphas : Alphas Field) (gs : List Field)
    {L : List Field → Field} (hL : DegreeLE 8 n L) (c : Field) : DegreeLE 8 n (honkAt tables rp alphas gs L c) :=
  ((degreeLE_relationAt tables rp alphas gs n).mul (degreeLE_enabledAt n)).add (hL.mul (DegreeLE.const (d := 0) c))

/-! ### Batching -/

/-- The powers of alpha, from the first on. -/
def powers (α : Field) : Alphas Field := Vector.ofFn fun i => α ^ (i.val + 1)

theorem scaleAndBatch_powers (e : Evaluations Field) (α : Field) :
    scaleAndBatchSubrelations e (powers α) = ∑ k, e.get k * α ^ k.val := by
  have hget (i : Fin NUMBER_OF_ALPHAS) : (powers α).get i = α ^ (i.val + 1) := Vector.getElem_ofFn i.isLt
  have hfold := Loops.foldl_finRange_add (n := NUMBER_OF_ALPHAS) id (fun i => e.get i.succ * α ^ (i.val + 1))
    (fun accumulator i => accumulator + e.get i.succ * (powers α).get i) (fun a i => by rw [hget]; rfl) (e.get 0)
  rw [Fin.sum_univ_succ, Fin.val_zero, pow_zero, mul_one]
  exact hfold

/-- The factor of the power `k` of alpha and the power `j` of the gate challenge: the lookup's sum counts for row 0. -/
def coefficient (tables : Trace) (rp : RelationParameters Field) (n : Nat) (k : Fin NUMBER_OF_SUBRELATIONS) (j : Nat) : Field :=
  if k = 5 then if j = 0 then ∑ i ∈ Trace.enabledRows n, tables.subrelation rp 5 i else 0 else tables.subrelation rp k j

/-- A row as a polynomial in alpha. -/
noncomputable def alphaPolynomial (tables : Trace) (rp : RelationParameters Field) (n j : Nat) : Field[X] :=
  ∑ k : Fin NUMBER_OF_SUBRELATIONS, C (coefficient tables rp n k j) * X ^ k.val

/-- The rows as a polynomial in the gate challenge. -/
noncomputable def gatePolynomial (tables : Trace) (rp : RelationParameters Field) (n : Nat) (α : Field) : Field[X] :=
  ∑ j ∈ Trace.enabledRows n, C ((alphaPolynomial tables rp n j).eval α) * X ^ j

theorem coeff_alphaPolynomial (j : Nat) (k : Fin NUMBER_OF_SUBRELATIONS) :
    (alphaPolynomial tables rp n j).coeff k = coefficient tables rp n k j := by
  rw [alphaPolynomial, finsetSum_coeff]
  simp only [coeff_C_mul_X_pow]
  rw [Finset.sum_eq_single k]
  · rw [if_pos rfl]
  · intro k' _ hne
    exact if_neg fun h => hne (Fin.ext h.symm)
  · intro h
    exact absurd (Finset.mem_univ k) h

theorem natDegree_alphaPolynomial_le (j : Nat) : (alphaPolynomial tables rp n j).natDegree ≤ 27 := by
  refine natDegree_sum_le_of_forall_le _ _ ?_
  intro k _
  exact (natDegree_C_mul_X_pow_le _ _).trans (Nat.le_of_lt_succ k.isLt)

theorem coeff_gatePolynomial (α : Field) {j : Nat} (hj : j ∈ Trace.enabledRows n) :
    (gatePolynomial tables rp n α).coeff j = (alphaPolynomial tables rp n j).eval α := by
  rw [gatePolynomial, finsetSum_coeff]
  simp only [coeff_C_mul_X_pow]
  rw [Finset.sum_ite_eq, if_pos hj]

theorem natDegree_gatePolynomial_lt (α : Field) : (gatePolynomial tables rp n α).natDegree < 2 ^ n := by
  have hle : (gatePolynomial tables rp n α).natDegree ≤ 2 ^ n - 1 := by
    refine natDegree_sum_le_of_forall_le _ _ ?_
    intro j hj
    have hlt := Finset.mem_range.1 hj
    exact (natDegree_C_mul_X_pow_le _ _).trans (by omega)
  have hpos : 0 < 2 ^ n := Nat.two_pow_pos n
  omega

/-- A violation shows in some row. -/
theorem exists_coefficient_ne_zero (h : ¬ tables.Satisfied rp n) :
    ∃ j ∈ Trace.enabledRows n, ∃ k, coefficient tables rp n k j ≠ 0 := by
  by_contra hall
  push Not at hall
  refine h ⟨?_, ?_⟩
  · intro j hj k hk
    have hjk := hall j hj k
    rwa [coefficient, if_neg hk] at hjk
  · rcases Finset.eq_empty_or_nonempty (Trace.enabledRows n) with hempty | ⟨j, hj⟩
    · rw [hempty, Finset.sum_empty]
    · have h0 : 0 ∈ Trace.enabledRows n := Finset.mem_range.2 ((Nat.zero_le j).trans_lt (Finset.mem_range.1 hj))
      have hlookup := hall 0 h0 5
      rwa [coefficient, if_pos rfl, if_pos rfl] at hlookup

theorem relationAt_corner (α g : Field) {j : Nat} (h : j < 2 ^ n) :
    relationAt tables rp (powers α) (squares g n) (corner Field n j) =
      (∑ k ∈ Finset.univ.erase 5, tables.subrelation rp k j * α ^ k.val) * g ^ j + tables.subrelation rp 5 j * α ^ 5 := by
  have hscaled : ∀ k ∈ Finset.univ.erase 5,
      (relationEvaluations (tables.row j) rp (g ^ j)).get k = g ^ j * tables.subrelation rp k j := fun k hk =>
    relationEvaluations_scaled _ _ _ _ (Finset.ne_of_mem_erase hk)
  have hlookup : (relationEvaluations (tables.row j) rp (g ^ j)).get 5 = tables.subrelation rp 5 j :=
    relationEvaluations_unscaled _ _ _
  rw [relationAt, accumulateRelationEvaluations, scaleAndBatch_powers, evalAt_corner h, powAt_corner g h]
  generalize relationEvaluations (tables.row j) rp (g ^ j) = e at hscaled hlookup ⊢
  have hrest : ∑ k ∈ Finset.univ.erase 5, e.get k * α ^ k.val =
      (∑ k ∈ Finset.univ.erase 5, tables.subrelation rp k j * α ^ k.val) * g ^ j := by
    rw [Finset.sum_mul]
    refine Finset.sum_congr rfl ?_
    intro k hk
    rw [hscaled k hk]
    ring
  have hfive : (5 : Fin NUMBER_OF_SUBRELATIONS).val = 5 := rfl
  rw [← Finset.sum_erase_add _ _ (Finset.mem_univ 5), hrest, hlookup, hfive]

theorem eval_alphaPolynomial (α : Field) (j : Nat) : (alphaPolynomial tables rp n j).eval α =
    ∑ k ∈ Finset.univ.erase 5, tables.subrelation rp k j * α ^ k.val +
      (if j = 0 then ∑ i ∈ Trace.enabledRows n, tables.subrelation rp 5 i else 0) * α ^ 5 := by
  have hfive : (5 : Fin NUMBER_OF_SUBRELATIONS).val = 5 := rfl
  have hrest : ∑ k ∈ Finset.univ.erase 5, coefficient tables rp n k j * α ^ k.val =
      ∑ k ∈ Finset.univ.erase 5, tables.subrelation rp k j * α ^ k.val := by
    refine Finset.sum_congr rfl ?_
    intro k hk
    rw [coefficient, if_neg (Finset.ne_of_mem_erase hk)]
  rw [alphaPolynomial, eval_finsetSum]
  simp only [eval_mul, eval_C, eval_pow, eval_X]
  rw [← Finset.sum_erase_add _ _ (Finset.mem_univ 5), hrest, coefficient, if_pos rfl, hfive]

theorem eval_gatePolynomial (α g : Field) : (gatePolynomial tables rp n α).eval g =
    ∑ j ∈ Trace.enabledRows n, relationAt tables rp (powers α) (squares g n) (corner Field n j) := by
  have hlookup : ∑ j ∈ Trace.enabledRows n,
      (if j = 0 then ∑ i ∈ Trace.enabledRows n, tables.subrelation rp 5 i else 0) * α ^ 5 * g ^ j =
      ∑ j ∈ Trace.enabledRows n, tables.subrelation rp 5 j * α ^ 5 := by
    rw [← Finset.sum_mul]
    rcases Finset.eq_empty_or_nonempty (Trace.enabledRows n) with hempty | ⟨j, hj⟩
    · rw [hempty, Finset.sum_empty, Finset.sum_empty, zero_mul]
    · have h0 : 0 ∈ Trace.enabledRows n := Finset.mem_range.2 ((Nat.zero_le j).trans_lt (Finset.mem_range.1 hj))
      rw [Finset.sum_eq_single_of_mem 0 h0, if_pos rfl, pow_zero, mul_one]
      intro i _ hne
      rw [if_neg hne, zero_mul, zero_mul]
  have hrows : ∀ j ∈ Trace.enabledRows n, relationAt tables rp (powers α) (squares g n) (corner Field n j) =
      (∑ k ∈ Finset.univ.erase 5, tables.subrelation rp k j * α ^ k.val) * g ^ j + tables.subrelation rp 5 j * α ^ 5 := by
    intro j hj
    have hlt := Finset.mem_range.1 hj
    exact relationAt_corner α g (by omega)
  rw [Finset.sum_congr rfl hrows, Finset.sum_add_distrib, ← hlookup, ← Finset.sum_add_distrib, gatePolynomial,
    eval_finsetSum]
  refine Finset.sum_congr rfl ?_
  intro j _
  rw [eval_mul, eval_C, eval_pow, eval_X, eval_alphaPolynomial, add_mul]

/-- What the sumcheck is about is the value of the gate polynomial, and the hiding polynomial's sum. -/
theorem cubeSum_honkAt (α g : Field) (L : List Field → Field) (c : Field) :
    cubeSum n (honkAt tables rp (powers α) (squares g n) L c) = (gatePolynomial tables rp n α).eval g + cubeSum n L * c := by
  have hsub : Trace.enabledRows n ⊆ Finset.range (2 ^ n) := Finset.range_subset_range.2 (Nat.sub_le ..)
  have hcorners : cubeSum n (fun us => relationAt tables rp (powers α) (squares g n) us * enabledAt us) =
      ∑ j ∈ Trace.enabledRows n, relationAt tables rp (powers α) (squares g n) (corner Field n j) := by
    rw [cubeSum_eq_sum_corner, ← Finset.sum_subset hsub]
    · refine Finset.sum_congr rfl ?_
      intro j hj
      rw [enabledAt_corner (Finset.mem_range.1 (hsub hj)), if_pos hj, mul_one]
    · intro j hj hnot
      rw [enabledAt_corner (Finset.mem_range.1 hj), if_neg hnot, mul_zero]
  rw [eval_gatePolynomial, ← hcorners, ← cubeSum_mul_right, ← cubeSum_add]
  rfl

/-! ### Soundness -/

/-- A prover that answers every round's challenges by `respond`, and whose evaluations are those of the committed tables and
of the committed polynomial `L`, against the challenges alpha, `g` and `c`. -/
structure Plays (tables : Trace) (rp : RelationParameters Field) (α g : Field) (L : List Field → Field) (libraSum c : Field)
    (respond : List Field → Vector Fr ZK_BATCHED_RELATION_PARTIAL_LENGTH) (proof : ZKProof n) (tp : ZKTranscript n) :
    Prop where
  univariates : ∀ i : Fin n, proof.sumcheckUnivariates.get i = respond ((challenges tp).take i)
  evaluations : (relationsEvaluations proof).map toField = tables.evalAt (challenges tp)
  libraSum : proof.libraSum.toField = libraSum
  libraEvaluation : proof.libraEvaluation.toField = L (challenges tp)
  relationParameters : tp.relationParameters.map toField = rp
  alphas : tp.alphas.map toField = powers α
  gateChallenges : gates tp = squares g n
  libraChallenge : tp.libraChallenge.toField = c

/-- The challenges that `splitChallenge` makes. -/
def challengeSet : Finset Field := (Finset.range (2 ^ 127)).image Nat.cast

theorem card_challengeSet : challengeSet.card = 2 ^ 127 := by
  rw [challengeSet, Finset.card_image_of_injOn, Finset.card_range]
  intro a ha b hb h
  have hP : 2 ^ 127 ≤ P := by decide
  have hlt {x : Nat} (hx : x ∈ (Finset.range (2 ^ 127) : Set Nat)) : x < P := (Finset.mem_range.1 hx).trans_le hP
  exact (natCast_inj (hlt ha) (hlt hb)).1 h

section
variable {proof : ZKProof n} {tp : ZKTranscript n} {α g c libraSum : Field} {L : List Field → Field}
  {respond : List Field → Vector Fr ZK_BATCHED_RELATION_PARTIAL_LENGTH}

theorem rounds_eq_play (h : Plays tables rp α g L libraSum c respond proof tp) :
    rounds proof tp (List.finRange n) = play (fun us => roundPolynomial (respond us)) (challenges tp) := by
  refine eq_play (by simp [rounds, challenges]) ?_
  intro i hi hi'
  have hn : i < n := by simpa [rounds] using hi
  have hround : (rounds proof tp (List.finRange n))[i] =
      (roundPolynomial (proof.sumcheckUnivariates.get ⟨i, hn⟩), (challenges tp)[i]) := by
    simp [rounds, challenges, get_eq]
  rw [hround, h.univariates]

theorem grandHonkSum_eq (h : Plays tables rp α g L libraSum c respond proof tp) :
    grandHonkSum proof tp = honkAt tables rp (powers α) (squares g n) L c (challenges tp) := by
  rw [grandHonkSum, h.evaluations, h.relationParameters, h.alphas, h.gateChallenges, h.libraEvaluation, h.libraChallenge]
  rfl

/-- What the contract accepts, the protocol accepts. -/
theorem accepts_of_verifySumcheck (h : Plays tables rp α g L libraSum c respond proof tp)
    (hv : verifySumcheck proof tp = .ok true) :
    Accepts 8 (c * libraSum) (play (fun us => roundPolynomial (respond us)) (challenges tp))
      (honkAt tables rp (powers α) (squares g n) L c (challenges tp)) := by
  have haccepts := (verifySumcheck_eq_ok.1 hv).2
  rwa [rounds_eq_play h, grandHonkSum_eq h, h.libraChallenge, h.libraSum] at haccepts

end

open Classical in
/-- Either the trace satisfies the relations, or hardly any challenges are accepted: all but 27 values of alpha, all but
`2 ^ n` gate challenges for each, and all but one libra challenge for each hiding polynomial leave a claim that is false,
and a prover gets a false claim through at 8 in `2 ^ 127` of the challenges of each round. -/
theorem sumcheck_soundness (tables : Trace) (rp : RelationParameters Field) (n : Nat) :
    tables.Satisfied rp n ∨
    ∃ A : Finset Field, A.card ≤ 27 ∧ ∀ α ∉ A, ∃ B : Finset Field, B.card < 2 ^ n ∧ ∀ g ∉ B,
      ∀ (L : List Field → Field) (libraSum : Field), DegreeLE 8 n L → ∃ c₀, ∀ c ≠ c₀,
      ∀ respond : List Field → Vector Fr ZK_BATCHED_RELATION_PARTIAL_LENGTH,
        ((tapes challengeSet n).filter fun us => ∃ (proof : ZKProof n) (tp : ZKTranscript n),
          Plays tables rp α g L libraSum c respond proof tp ∧ challenges tp = us ∧
          verifySumcheck proof tp = .ok true).card ≤ n * 8 * (2 ^ 127) ^ (n - 1) := by
  refine or_iff_not_imp_left.2 ?_
  intro hviolated
  obtain ⟨j, hj, k, hjk⟩ := exists_coefficient_ne_zero hviolated
  have halpha : alphaPolynomial tables rp n j ≠ 0 := by
    intro hzero
    rw [← coeff_alphaPolynomial, hzero, coeff_zero] at hjk
    exact hjk rfl
  have hroots (q : Field[X]) : q.roots.toFinset.card ≤ q.natDegree := (Multiset.toFinset_card_le _).trans (card_roots' q)
  have hmem {q : Field[X]} (hq : q ≠ 0) {x : Field} (hx : x ∉ q.roots.toFinset) : q.eval x ≠ 0 := by
    rwa [Multiset.mem_toFinset, mem_roots hq] at hx
  refine ⟨(alphaPolynomial tables rp n j).roots.toFinset, (hroots _).trans (natDegree_alphaPolynomial_le j), ?_⟩
  intro α hα
  have hgate : gatePolynomial tables rp n α ≠ 0 := by
    intro hzero
    have hcoeff := @coeff_gatePolynomial tables rp n α j hj
    rw [hzero, coeff_zero] at hcoeff
    exact hmem halpha hα hcoeff.symm
  refine ⟨(gatePolynomial tables rp n α).roots.toFinset, (hroots _).trans_lt (natDegree_gatePolynomial_lt α), ?_⟩
  intro g hg L libraSum hL
  have hvalue := hmem hgate hg
  refine ⟨(gatePolynomial tables rp n α).eval g / (libraSum - cubeSum n L), ?_⟩
  intro c hc respond
  have hclaim : c * libraSum ≠ cubeSum n (honkAt tables rp (powers α) (squares g n) L c) := by
    rw [cubeSum_honkAt α g L c]
    intro heq
    have hprod : c * (libraSum - cubeSum n L) = (gatePolynomial tables rp n α).eval g := by
      rw [mul_sub, heq]
      ring
    rcases eq_or_ne (libraSum - cubeSum n L) 0 with hzero | hne
    · rw [hzero, mul_zero] at hprod
      exact hvalue hprod.symm
    · exact hc ((eq_div_iff hne).2 hprod)
  have hcount := card_accepted_le challengeSet (fun us => roundPolynomial (respond us))
    (degreeLE_honkAt tables rp (powers α) (squares g n) hL c) hclaim
  rw [card_challengeSet] at hcount
  refine (Finset.card_le_card ?_).trans hcount
  intro us hus
  obtain ⟨htape, proof, tp, hplays, rfl, hv⟩ := Finset.mem_filter.1 hus
  exact Finset.mem_filter.2 ⟨htape, accepts_of_verifySumcheck hplays hv⟩

/-! ### Completeness -/

/-- The values of the partial sum that a round is about. -/
def honestRound (n : Nat) (G : List Field → Field) (us : List Field) : Vector Fr ZK_BATCHED_RELATION_PARTIAL_LENGTH :=
  Vector.ofFn fun j => ofField (cubeSum (n - 1 - us.length) fun xs => G (us ++ node j :: xs))

/-- A polynomial of degree at most 8 is read back from its values. -/
theorem roundPolynomial_ofFn {s : Field[X]} (hs : s.natDegree ≤ 8) :
    roundPolynomial (Vector.ofFn fun j => ofField (s.eval (node j))) = s := by
  refine (Lagrange.eq_interpolate_of_eval_eq _ node_injective.injOn ?_ ?_).symm
  · have hlt : s.degree < (9 : ℕ) := (degree_le_natDegree).trans_lt (by exact_mod_cast Nat.lt_succ_of_le hs)
    exact hlt
  · intro j _
    rw [Fin.getElem_fin, Vector.getElem_ofFn, toField_ofField]

theorem honest_play {G : List Field → Field} {us : List Field} (hlen : us.length = n) (hG : DegreeLE 8 n G) :
    Honest G (play (fun pre => roundPolynomial (honestRound n G pre)) us) := by
  subst hlen
  induction us generalizing G with
  | nil => trivial
  | cons u us ih =>
    obtain ⟨s, hs, heval⟩ := hG.exists_round
    have hfirst : roundPolynomial (honestRound (us.length + 1) G []) = s := by
      rw [← roundPolynomial_ofFn hs]
      simp only [honestRound, heval]
      rfl
    have hnext (pre : List Field) : honestRound (us.length + 1) G (u :: pre) =
        honestRound us.length (fun xs => G (u :: xs)) pre := by
      have hsub : us.length + 1 - 1 - (u :: pre).length = us.length - 1 - pre.length := by
        rw [List.length_cons]
        omega
      rw [honestRound, hsub]
      rfl
    refine ⟨?_, ?_⟩
    · intro x
      rw [length_play, ← heval, ← hfirst]
      rfl
    · simp only [List.length_cons, hnext]
      exact ih (hG.cons u)

theorem gatePolynomial_of_satisfied (h : tables.Satisfied rp n) (α : Field) : gatePolynomial tables rp n α = 0 := by
  refine Finset.sum_eq_zero ?_
  intro j hj
  have hzero (k : Fin NUMBER_OF_SUBRELATIONS) : coefficient tables rp n k j = 0 := by
    rw [coefficient]
    split
    · split
      · exact h.lookup
      · rfl
    · next hk => exact h.row j hj k hk
  have hrow : alphaPolynomial tables rp n j = 0 := by
    refine Finset.sum_eq_zero ?_
    intro k _
    rw [hzero, C_0, zero_mul]
  rw [hrow, eval_zero, C_0, zero_mul]

/-- The part of a proof that the sumcheck and the check of its hiding polynomial read. -/
def proofOf (respond : List Field → Vector Fr ZK_BATCHED_RELATION_PARTIAL_LENGTH) (evaluations : Entities Field)
    (libraSum libraEvaluation : Field) (libraPolyEvals : Vector Field NUM_LIBRA_EVALUATIONS) (us : List Field) : ZKProof n :=
  { (default : ZKProof n) with
    libraSum := ofField libraSum
    sumcheckUnivariates := Vector.ofFn fun i => respond (us.take i)
    libraEvaluation := ofField libraEvaluation
    sumcheckEvaluations := Vector.ofFn fun i => Fin.cases (wrap 0) (fun i => ofField (evaluations.get i)) i
    libraPolyEvals := libraPolyEvals.map ofField }

theorem plays_proofOf {respond : List Field → Vector Fr ZK_BATCHED_RELATION_PARTIAL_LENGTH} {tp : ZKTranscript n}
    {α g libraSum : Field} {L : List Field → Field} (libraPolyEvals : Vector Field NUM_LIBRA_EVALUATIONS)
    (halphas : tp.alphas.map toField = powers α) (hgates : gates tp = squares g n) :
    Plays tables (tp.relationParameters.map toField) α g L libraSum tp.libraChallenge.toField respond
      (proofOf respond (tables.evalAt (challenges tp)) libraSum (L (challenges tp)) libraPolyEvals (challenges tp)) tp where
  univariates i := Vector.getElem_ofFn i.isLt
  evaluations := by
    refine Vector.ext ?_
    intro i hi
    have hget : (proofOf (n := n) respond (tables.evalAt (challenges tp)) libraSum (L (challenges tp)) libraPolyEvals
        (challenges tp)).sumcheckEvaluations.get (Fin.succ ⟨i, hi⟩) =
        ofField ((tables.evalAt (challenges tp)).get ⟨i, hi⟩) := Vector.getElem_ofFn _
    rw [Vector.getElem_map, relationsEvaluations, Vector.getElem_ofFn, hget, toField_ofField]
    rfl
  libraSum := toField_ofField _
  libraEvaluation := toField_ofField _
  relationParameters := rfl
  alphas := halphas
  gateChallenges := hgates
  libraChallenge := rfl

/-- The honest prover's part of a proof that the sumcheck reads. -/
def honestProof (tables : Trace) (rp : RelationParameters Field) (α g : Field) (L : List Field → Field) (c : Field)
    (us : List Field) : ZKProof n :=
  proofOf (honestRound n (honkAt tables rp (powers α) (squares g n) L c)) (tables.evalAt us) (cubeSum n L) (L us)
    (Vector.replicate _ 0) us

theorem plays_honestProof {tp : ZKTranscript n} {α g : Field} {L : List Field → Field}
    (halphas : tp.alphas.map toField = powers α) (hgates : gates tp = squares g n) :
    let rp := tp.relationParameters.map toField
    let c := tp.libraChallenge.toField
    Plays tables rp α g L (cubeSum n L) c (honestRound n (honkAt tables rp (powers α) (squares g n) L c))
      (honestProof tables rp α g L c (challenges tp)) tp :=
  plays_proofOf _ halphas hgates

/-- The honest prover of a satisfied trace is accepted, unless a challenge is one of the points 0 to 8. -/
theorem sumcheck_completeness {tp : ZKTranscript n} {α g : Field} {L : List Field → Field}
    (hsat : tables.Satisfied (tp.relationParameters.map toField) n) (hL : DegreeLE 8 n L)
    (halphas : tp.alphas.map toField = powers α) (hgates : gates tp = squares g n) :
    verifySumcheck (honestProof tables (tp.relationParameters.map toField) α g L tp.libraChallenge.toField (challenges tp))
      tp = .ok true ↔ OffNodes tp (List.finRange n) := by
  have hplays := @plays_honestProof tables n tp α g L halphas hgates
  have hlen : (challenges tp).length = n := by simp [challenges]
  have hdeg := degreeLE_honkAt tables (tp.relationParameters.map toField) (powers α) (squares g n) hL
    tp.libraChallenge.toField
  have hhonest := honest_play hlen hdeg
  have haccepts := accepts_of_honest (d := 8) (fun m hm => by
    obtain ⟨pre, hpre⟩ := exists_of_mem_play hm
    rw [hpre]
    exact natDegree_roundPolynomial_le _) hhonest
  rw [length_play, hlen, map_snd_play, cubeSum_honkAt, gatePolynomial_of_satisfied hsat, eval_zero, zero_add,
    mul_comm] at haccepts
  rw [verifySumcheck_eq_ok, rounds_eq_play hplays, grandHonkSum_eq hplays, hplays.libraSum]
  exact and_iff_left haccepts

/-! ### The transcript's challenges -/

section
open ZKTranscriptLib
variable {keccak : Bytes → Bytes32}

theorem toField_mem_challengeSet {a : Fr} (h : a.unwrap < 2 ^ 127) : a.toField ∈ challengeSet :=
  Finset.mem_image.2 ⟨a.unwrap, Finset.mem_range.2 h, rfl⟩

theorem toField_iterate_mul (α : Fr) (i : Nat) : ((· * α)^[i] α).toField = α.toField ^ (i + 1) := by
  induction i with
  | zero => rw [Function.iterate_zero, id_eq, zero_add, pow_one]
  | succ i ih => rw [Function.iterate_succ_apply', toField_mul, ih, ← pow_succ]

theorem map_iterate_sqr (g : Fr) (n : Nat) :
    (Vector.ofFn fun i : Fin n => (fun a => a * a)^[i] g).toList.map toField = squares g.toField n := by
  induction n generalizing g with
  | zero => rfl
  | succ n ih =>
    have htail : (List.ofFn fun i : Fin n => (fun a : Fr => a * a)^[i.succ] g) =
        (Vector.ofFn fun i : Fin n => (fun a : Fr => a * a)^[i] (g * g)).toList := by
      rw [Vector.toList_ofFn]
      rfl
    rw [Vector.toList_ofFn, List.ofFn_succ, List.map_cons, htail, ih, toField_mul, ← sq]
    rfl

theorem generateSumcheckChallenges_lt (prevChallenge : Fr)
    (univariates : Vector (Vector Fr ZK_BATCHED_RELATION_PARTIAL_LENGTH) n) :
    ∀ a ∈ (generateSumcheckChallenges keccak prevChallenge univariates).1.toList, a.unwrap < 2 ^ 127 := by
  induction n with
  | zero =>
    intro a ha
    simp [generateSumcheckChallenges] at ha
  | succ n ih =>
    intro a ha
    simp only [generateSumcheckChallenges, Vector.toList_push, List.mem_append, List.mem_singleton] at ha
    rcases ha with ha | rfl
    · exact ih _ a ha
    · exact splitChallenge_lt _

theorem generateAlphaChallenges_eq (previousChallenge : Fr) (proof : ZKProof n) :
    ∃ α ∈ challengeSet, (generateAlphaChallenges keccak previousChallenge proof).1.map toField = powers α := by
  refine ⟨(nextChallenge keccak (alphaWords previousChallenge proof)).1.toField,
    toField_mem_challengeSet (splitChallenge_lt _), ?_⟩
  refine Vector.ext ?_
  intro i hi
  rw [generateAlphaChallenges, powers, Vector.getElem_map, Vector.getElem_ofFn, Vector.getElem_ofFn, toField_iterate_mul]

theorem generateGateChallenges_eq (previousChallenge : Fr) (n : Nat) :
    ∃ g ∈ challengeSet, (generateGateChallenges keccak previousChallenge n).1.toList.map toField = squares g n :=
  ⟨(nextChallenge keccak (gateWords previousChallenge)).1.toField, toField_mem_challengeSet (splitChallenge_lt _),
    map_iterate_sqr _ n⟩

/-- The transcript makes its challenges in the way that the soundness counts them. -/
theorem generateTranscript_schedule (proof : ZKProof n) (publicInputs : List Bytes32) (vkHash : Bytes32) :
    let tp := ZKTranscriptLib.generateTranscript keccak proof publicInputs vkHash
    (∃ α ∈ challengeSet, tp.alphas.map toField = powers α) ∧ (∃ g ∈ challengeSet, gates tp = squares g n) ∧
      tp.libraChallenge.toField ∈ challengeSet ∧ challenges tp ∈ tapes challengeSet n := by
  refine ⟨generateAlphaChallenges_eq _ _, generateGateChallenges_eq _ _, toField_mem_challengeSet (splitChallenge_lt _), ?_⟩
  rw [mem_tapes, challenges, List.length_map, Vector.length_toList]
  refine ⟨rfl, ?_⟩
  intro u hu
  obtain ⟨a, ha, rfl⟩ := List.mem_map.1 hu
  exact toField_mem_challengeSet (generateSumcheckChallenges_lt _ _ a ha)

end

/-! ### Constant rows -/

section
open Parametric

/-- A trace whose rows are all alike. -/
def constantTrace (row : Entities Fr) : Trace := row.map fun a _ => a.toField

theorem subrelation_constantTrace (row : Entities Fr) (rp : RelationParameters Fr) (k : Fin NUMBER_OF_SUBRELATIONS) (j : Nat) :
    (constantTrace row).subrelation (rp.map toField) k j = ((relationEvaluations row rp (wrap 1)).get k).toField := by
  have hrow : Pointwise (fun a x => toField a = x) row ((constantTrace row).row j) := by
    refine ⟨?_⟩
    intro i hi
    rw [Trace.row, constantTrace, Vector.getElem_map, Vector.getElem_map]
  have hone : (wrap 1).toField = 1 := by rw [toField_wrap, Nat.cast_one]
  exact ((relationEvaluations_related respects_toField hrow ⟨rfl, rfl, rfl, rfl⟩ hone).getElem k k.isLt).symm

/-- Constant rows satisfy the relations that one of them does. -/
theorem satisfied_constantTrace {row : Entities Fr} {rp : RelationParameters Fr}
    (h : ∀ k, ((relationEvaluations row rp (wrap 1)).get k).toField = 0) (n : Nat) :
    (constantTrace row).Satisfied (rp.map toField) n := by
  have hzero (k : Fin NUMBER_OF_SUBRELATIONS) (j : Nat) : (constantTrace row).subrelation (rp.map toField) k j = 0 := by
    rw [subrelation_constantTrace, h]
  exact ⟨fun j _ k _ => hzero k j, Finset.sum_eq_zero fun j _ => hzero 5 j⟩

theorem map_map_ofField {m : Nat} (v : Vector Field m) : (v.map ofField).map toField = v := by
  refine Vector.ext ?_
  intro i hi
  rw [Vector.getElem_map, Vector.getElem_map, toField_ofField]

def sampleTranscript : ZKTranscript LOG_N where
  relationParameters := ⟨wrap 1, wrap 1, wrap 1, wrap 1⟩
  alphas := (powers 1).map ofField
  gateChallenges := Vector.ofFn fun i => (fun a => a * a)^[i] (wrap 1)
  libraChallenge := wrap 1
  sumCheckUChallenges := Vector.replicate LOG_N (wrap 9)
  rho := wrap 1
  geminiR := wrap 1
  shplonkNu := wrap 1
  shplonkZ := wrap 1

theorem offNodes_sampleTranscript : OffNodes sampleTranscript (List.finRange LOG_N) := by
  intro i _ j
  have hlt : (j : Nat) < P := j.isLt.trans (by decide)
  rw [Fin.getElem_fin, sampleTranscript, Vector.getElem_replicate, toField_wrap, node, Ne, natCast_inj (by decide) hlt]
  exact j.isLt.ne'

end

end HonkVerifier
end InfraVeritas
