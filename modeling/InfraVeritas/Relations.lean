import InfraVeritas.Fr

/-!
# `RelationsLib`

The nine relations of the proof system with their 28 subrelations. They only add, subtract, multiply and use constants, so
they are written over any type with these operations: over `Fr` they are the contract's functions, over the field what
these compute (`toField_accumulate`), over polynomials what a row of the trace becomes in one variable, and over degree
bounds what degree that has (`natDegree_accumulate_le`).
-/

namespace InfraVeritas
open Parametric

/-- The wires, in the order of the enumeration. -/
inductive WIRE
  | Q_M | Q_C | Q_L | Q_R | Q_O | Q_4 | Q_LOOKUP | Q_ARITH | Q_RANGE | Q_ELLIPTIC | Q_MEMORY | Q_NNF
  | Q_POSEIDON2_EXTERNAL | Q_POSEIDON2_INTERNAL
  | SIGMA_1 | SIGMA_2 | SIGMA_3 | SIGMA_4 | ID_1 | ID_2 | ID_3 | ID_4 | TABLE_1 | TABLE_2 | TABLE_3 | TABLE_4
  | LAGRANGE_FIRST | LAGRANGE_LAST
  | W_L | W_R | W_O | W_4 | Z_PERM | LOOKUP_INVERSES | LOOKUP_READ_COUNTS | LOOKUP_READ_TAGS
  | W_L_SHIFT | W_R_SHIFT | W_O_SHIFT | W_4_SHIFT | Z_PERM_SHIFT
deriving DecidableEq, Repr

abbrev NUMBER_OF_SUBRELATIONS : Nat := 28
abbrev NUMBER_OF_ENTITIES : Nat := 41
abbrev NUMBER_OF_ALPHAS : Nat := NUMBER_OF_SUBRELATIONS - 1

/-- `Honk.RelationParameters` -/
structure RelationParameters (K : Type) where
  eta : K
  beta : K
  gamma : K
  publicInputsDelta : K

def RelationParameters.map {K L : Type} (f : K → L) (rp : RelationParameters K) : RelationParameters L :=
  ⟨f rp.eta, f rp.beta, f rp.gamma, f rp.publicInputsDelta⟩

abbrev Entities (K : Type) := Vector K NUMBER_OF_ENTITIES
abbrev Evaluations (K : Type) := Vector K NUMBER_OF_SUBRELATIONS
abbrev Alphas (K : Type) := Vector K NUMBER_OF_ALPHAS

namespace RelationsLib

theorem ctorIdx_lt (w : WIRE) : w.ctorIdx < NUMBER_OF_ENTITIES := by cases w <;> decide

section
variable {K : Type} [Add K] [Sub K] [Mul K] [NatCast K]

abbrev ZERO : K := ((0 : Nat) : K)
abbrev ONE : K := ((1 : Nat) : K)
abbrev MINUS_ONE : K := ((P - 1 : Nat) : K)

/-- `-(-17)` -/
abbrev GRUMPKIN_CURVE_B_PARAMETER_NEGATED : K := ((17 : Nat) : K)
def NEG_HALF_MODULO_P : Nat := 0x183227397098d014dc2822db40c0ac2e9419f4243cdcb848a1f0fac9f8000000
abbrev LIMB_SIZE : K := ((2 ^ 68 : Nat) : K)
abbrev SUBLIMB_SHIFT : K := ((2 ^ 14 : Nat) : K)

def wire (p : Entities K) (w : WIRE) : K := p.get ⟨w.ctorIdx, ctorIdx_lt w⟩

def accumulateArithmeticRelation (p : Entities K) (evals : Evaluations K) (domainSep : K) : Evaluations K :=
  -- Relation 0
  let q_arith := wire p .Q_ARITH
  let evals :=
    let neg_half : K := (NEG_HALF_MODULO_P : Nat)
    let accum := (q_arith - ((3 : Nat) : K)) * (wire p .Q_M * wire p .W_R * wire p .W_L) * neg_half
    let accum := accum + (wire p .Q_L * wire p .W_L) + (wire p .Q_R * wire p .W_R) + (wire p .Q_O * wire p .W_O) +
      (wire p .Q_4 * wire p .W_4) + wire p .Q_C
    let accum := accum + (q_arith - ONE) * wire p .W_4_SHIFT
    let accum := accum * q_arith
    let accum := accum * domainSep
    evals.set 0 accum
  -- Relation 1
  let accum := wire p .W_L + wire p .W_4 - wire p .W_L_SHIFT + wire p .Q_M
  let accum := accum * (q_arith - ((2 : Nat) : K))
  let accum := accum * (q_arith - ONE)
  let accum := accum * q_arith
  let accum := accum * domainSep
  evals.set 1 accum

def permutationNumerator (p : Entities K) (rp : RelationParameters K) : K :=
  let num := wire p .W_L + wire p .ID_1 * rp.beta + rp.gamma
  let num := num * (wire p .W_R + wire p .ID_2 * rp.beta + rp.gamma)
  let num := num * (wire p .W_O + wire p .ID_3 * rp.beta + rp.gamma)
  num * (wire p .W_4 + wire p .ID_4 * rp.beta + rp.gamma)

def permutationDenominator (p : Entities K) (rp : RelationParameters K) : K :=
  let den := wire p .W_L + wire p .SIGMA_1 * rp.beta + rp.gamma
  let den := den * (wire p .W_R + wire p .SIGMA_2 * rp.beta + rp.gamma)
  let den := den * (wire p .W_O + wire p .SIGMA_3 * rp.beta + rp.gamma)
  den * (wire p .W_4 + wire p .SIGMA_4 * rp.beta + rp.gamma)

def accumulatePermutationRelation (p : Entities K) (rp : RelationParameters K) (evals : Evaluations K)
    (domainSep : K) : Evaluations K :=
  let grand_product_numerator := permutationNumerator p rp
  let grand_product_denominator := permutationDenominator p rp
  -- Contribution 2
  let evals :=
    let acc := (wire p .Z_PERM + wire p .LAGRANGE_FIRST) * grand_product_numerator
    let acc := acc - ((wire p .Z_PERM_SHIFT + (wire p .LAGRANGE_LAST * rp.publicInputsDelta)) *
      grand_product_denominator)
    let acc := acc * domainSep
    evals.set 2 acc
  -- Contribution 3
  evals.set 3 ((wire p .LAGRANGE_LAST * wire p .Z_PERM_SHIFT) * domainSep)

def accumulateLogDerivativeLookupRelation (p : Entities K) (rp : RelationParameters K) (evals : Evaluations K)
    (domainSep : K) : Evaluations K :=
  let table_term :=
    let beta_sqr := rp.beta * rp.beta
    wire p .TABLE_1 + rp.gamma + (wire p .TABLE_2 * rp.beta) + (wire p .TABLE_3 * beta_sqr) +
      (wire p .TABLE_4 * beta_sqr * rp.beta)
  let lookup_term :=
    let beta_sqr := rp.beta * rp.beta
    let derived_entry_1 := wire p .W_L + rp.gamma + (wire p .Q_R * wire p .W_L_SHIFT)
    let derived_entry_2 := wire p .W_R + wire p .Q_M * wire p .W_R_SHIFT
    let derived_entry_3 := wire p .W_O + wire p .Q_C * wire p .W_O_SHIFT
    derived_entry_1 + (derived_entry_2 * rp.beta) + (derived_entry_3 * beta_sqr) + (wire p .Q_O * beta_sqr * rp.beta)
  let lookup_inverse := wire p .LOOKUP_INVERSES * table_term
  let table_inverse := wire p .LOOKUP_INVERSES * lookup_term
  let inverse_exists_xor := wire p .LOOKUP_READ_TAGS + wire p .Q_LOOKUP - (wire p .LOOKUP_READ_TAGS * wire p .Q_LOOKUP)
  let accumulatorNone := lookup_term * table_term * wire p .LOOKUP_INVERSES - inverse_exists_xor
  let accumulatorNone := accumulatorNone * domainSep
  -- the one subrelation that is not scaled: it holds for the sum of the rows only
  let accumulatorOne := wire p .Q_LOOKUP * lookup_inverse - wire p .LOOKUP_READ_COUNTS * table_inverse
  let read_tag := wire p .LOOKUP_READ_TAGS
  let read_tag_boolean_relation := read_tag * read_tag - read_tag
  let evals := evals.set 4 accumulatorNone
  let evals := evals.set 5 accumulatorOne
  evals.set 6 (read_tag_boolean_relation * domainSep)

/-- The four contributions of the next relation, which are the same for four differences. -/
def deltaRangeContribution (p : Entities K) (domainSep delta : K) : K :=
  let minus_one : K := ZERO - ONE
  let minus_two : K := ZERO - ((2 : Nat) : K)
  let minus_three : K := ZERO - ((3 : Nat) : K)
  let acc := delta
  let acc := acc * (delta + minus_one)
  let acc := acc * (delta + minus_two)
  let acc := acc * (delta + minus_three)
  let acc := acc * wire p .Q_RANGE
  acc * domainSep

def accumulateDeltaRangeRelation (p : Entities K) (evals : Evaluations K) (domainSep : K) : Evaluations K :=
  let delta_1 := wire p .W_R - wire p .W_L
  let delta_2 := wire p .W_O - wire p .W_R
  let delta_3 := wire p .W_4 - wire p .W_O
  let delta_4 := wire p .W_L_SHIFT - wire p .W_4
  let evals := evals.set 7 (deltaRangeContribution p domainSep delta_1)
  let evals := evals.set 8 (deltaRangeContribution p domainSep delta_2)
  let evals := evals.set 9 (deltaRangeContribution p domainSep delta_3)
  evals.set 10 (deltaRangeContribution p domainSep delta_4)

def accumulateEllipticRelation (p : Entities K) (evals : Evaluations K) (domainSep : K) : Evaluations K :=
  let x_1 := wire p .W_R
  let y_1 := wire p .W_O
  let x_2 := wire p .W_L_SHIFT
  let y_2 := wire p .W_4_SHIFT
  let y_3 := wire p .W_O_SHIFT
  let x_3 := wire p .W_R_SHIFT
  let q_sign := wire p .Q_L
  let q_is_double := wire p .Q_M
  let x_diff := x_2 - x_1
  let y1_sqr := y_1 * y_1
  -- point addition, x-coordinate check
  let evals :=
    let partialEval := domainSep
    let y2_sqr := y_2 * y_2
    let y1y2 := y_1 * y_2 * q_sign
    let x_add_identity := x_3 + x_2 + x_1
    let x_add_identity := x_add_identity * x_diff * x_diff
    let x_add_identity := x_add_identity - y2_sqr - y1_sqr + y1y2 + y1y2
    evals.set 11 (x_add_identity * partialEval * wire p .Q_ELLIPTIC * (ONE - q_is_double))
  -- point addition, y-coordinate check
  let evals :=
    let y1_plus_y3 := y_1 + y_3
    let y_diff := y_2 * q_sign - y_1
    let y_add_identity := y1_plus_y3 * x_diff + (x_3 - x_1) * y_diff
    evals.set 12 (y_add_identity * domainSep * wire p .Q_ELLIPTIC * (ONE - q_is_double))
  -- point doubling, x-coordinate check
  let evals :=
    let x_pow_4 := (y1_sqr + GRUMPKIN_CURVE_B_PARAMETER_NEGATED) * x_1
    let y1_sqr_mul_4 := y1_sqr + y1_sqr
    let y1_sqr_mul_4 := y1_sqr_mul_4 + y1_sqr_mul_4
    let x1_pow_4_mul_9 := x_pow_4 * ((9 : Nat) : K)
    let x_double_identity := (x_3 + x_1 + x_1) * y1_sqr_mul_4 - x1_pow_4_mul_9
    let acc := x_double_identity * domainSep * wire p .Q_ELLIPTIC * q_is_double
    evals.set 11 (evals[11] + acc)
  -- point doubling, y-coordinate check
  let x1_sqr_mul_3 := (x_1 + x_1 + x_1) * x_1
  let y_double_identity := x1_sqr_mul_3 * (x_1 - x_3) - (y_1 + y_1) * (y_1 + y_3)
  evals.set 12 (evals[12] + y_double_identity * domainSep * wire p .Q_ELLIPTIC * q_is_double)

def accumulateMemoryRelation (p : Entities K) (rp : RelationParameters K) (evals : Evaluations K)
    (domainSep : K) : Evaluations K :=
  let eta_two := rp.eta * rp.eta
  let eta_three := eta_two * rp.eta
  let memory_record_check := wire p .W_O * eta_three
  let memory_record_check := memory_record_check + (wire p .W_R * eta_two)
  let memory_record_check := memory_record_check + (wire p .W_L * rp.eta)
  let memory_record_check := memory_record_check + wire p .Q_C
  let partial_record_check := memory_record_check
  let memory_record_check := memory_record_check - wire p .W_4
  -- ROM consistency check
  let index_delta := wire p .W_L_SHIFT - wire p .W_L
  let record_delta := wire p .W_4_SHIFT - wire p .W_4
  let index_is_monotonically_increasing := index_delta * (index_delta - ((1 : Nat) : K))
  let adjacent_values_match_if_adjacent_indices_match := (index_delta * MINUS_ONE + ONE) * record_delta
  let evals := evals.set 14 (adjacent_values_match_if_adjacent_indices_match * (wire p .Q_L * wire p .Q_R) *
    (wire p .Q_MEMORY * domainSep))
  let evals := evals.set 15 (index_is_monotonically_increasing * (wire p .Q_L * wire p .Q_R) *
    (wire p .Q_MEMORY * domainSep))
  let ROM_consistency_check_identity := memory_record_check * (wire p .Q_L * wire p .Q_R)
  -- RAM consistency check
  let access_type := wire p .W_4 - partial_record_check
  let access_check := access_type * (access_type - ((1 : Nat) : K))
  let next_gate_access_type := wire p .W_O_SHIFT * eta_three
  let next_gate_access_type := next_gate_access_type + (wire p .W_R_SHIFT * eta_two)
  let next_gate_access_type := next_gate_access_type + (wire p .W_L_SHIFT * rp.eta)
  let next_gate_access_type := wire p .W_4_SHIFT - next_gate_access_type
  let value_delta := wire p .W_O_SHIFT - wire p .W_O
  let adjacent_values_match_if_adjacent_indices_match_and_next_access_is_a_read_operation :=
    (index_delta * MINUS_ONE + ONE) * value_delta * (next_gate_access_type * MINUS_ONE + ONE)
  let next_gate_access_type_is_boolean := next_gate_access_type * next_gate_access_type - next_gate_access_type
  let evals := evals.set 16 (adjacent_values_match_if_adjacent_indices_match_and_next_access_is_a_read_operation *
    wire p .Q_O * (wire p .Q_MEMORY * domainSep))
  let evals := evals.set 17 (index_is_monotonically_increasing * wire p .Q_O * (wire p .Q_MEMORY * domainSep))
  let evals := evals.set 18 (next_gate_access_type_is_boolean * wire p .Q_O * (wire p .Q_MEMORY * domainSep))
  let RAM_consistency_check_identity := access_check * wire p .Q_O
  -- RAM timestamp consistency check
  let timestamp_delta := wire p .W_R_SHIFT - wire p .W_R
  let RAM_timestamp_check_identity := (index_delta * MINUS_ONE + ONE) * timestamp_delta - wire p .W_O
  let memory_identity := ROM_consistency_check_identity
  let memory_identity := memory_identity + RAM_timestamp_check_identity * (wire p .Q_4 * wire p .Q_L)
  let memory_identity := memory_identity + memory_record_check * (wire p .Q_M * wire p .Q_L)
  let memory_identity := memory_identity + RAM_consistency_check_identity
  let memory_identity := memory_identity * (wire p .Q_MEMORY * domainSep)
  evals.set 13 memory_identity

def accumulateNnfRelation (p : Entities K) (evals : Evaluations K) (domainSep : K) : Evaluations K :=
  let limb_subproduct := wire p .W_L * wire p .W_R_SHIFT + wire p .W_L_SHIFT * wire p .W_R
  let non_native_field_gate_2 := wire p .W_L * wire p .W_4 + wire p .W_R * wire p .W_O - wire p .W_O_SHIFT
  let non_native_field_gate_2 := non_native_field_gate_2 * LIMB_SIZE
  let non_native_field_gate_2 := non_native_field_gate_2 - wire p .W_4_SHIFT
  let non_native_field_gate_2 := non_native_field_gate_2 + limb_subproduct
  let non_native_field_gate_2 := non_native_field_gate_2 * wire p .Q_4
  let limb_subproduct := limb_subproduct * LIMB_SIZE
  let limb_subproduct := limb_subproduct + (wire p .W_L_SHIFT * wire p .W_R_SHIFT)
  let non_native_field_gate_1 := limb_subproduct
  let non_native_field_gate_1 := non_native_field_gate_1 - (wire p .W_O + wire p .W_4)
  let non_native_field_gate_1 := non_native_field_gate_1 * wire p .Q_O
  let non_native_field_gate_3 := limb_subproduct
  let non_native_field_gate_3 := non_native_field_gate_3 + wire p .W_4
  let non_native_field_gate_3 := non_native_field_gate_3 - (wire p .W_O_SHIFT + wire p .W_4_SHIFT)
  let non_native_field_gate_3 := non_native_field_gate_3 * wire p .Q_M
  let non_native_field_identity := non_native_field_gate_1 + non_native_field_gate_2 + non_native_field_gate_3
  let non_native_field_identity := non_native_field_identity * wire p .Q_R
  let limb_accumulator_1 := wire p .W_R_SHIFT * SUBLIMB_SHIFT
  let limb_accumulator_1 := limb_accumulator_1 + wire p .W_L_SHIFT
  let limb_accumulator_1 := limb_accumulator_1 * SUBLIMB_SHIFT
  let limb_accumulator_1 := limb_accumulator_1 + wire p .W_O
  let limb_accumulator_1 := limb_accumulator_1 * SUBLIMB_SHIFT
  let limb_accumulator_1 := limb_accumulator_1 + wire p .W_R
  let limb_accumulator_1 := limb_accumulator_1 * SUBLIMB_SHIFT
  let limb_accumulator_1 := limb_accumulator_1 + wire p .W_L
  let limb_accumulator_1 := limb_accumulator_1 - wire p .W_4
  let limb_accumulator_1 := limb_accumulator_1 * wire p .Q_4
  let limb_accumulator_2 := wire p .W_O_SHIFT * SUBLIMB_SHIFT
  let limb_accumulator_2 := limb_accumulator_2 + wire p .W_R_SHIFT
  let limb_accumulator_2 := limb_accumulator_2 * SUBLIMB_SHIFT
  let limb_accumulator_2 := limb_accumulator_2 + wire p .W_L_SHIFT
  let limb_accumulator_2 := limb_accumulator_2 * SUBLIMB_SHIFT
  let limb_accumulator_2 := limb_accumulator_2 + wire p .W_4
  let limb_accumulator_2 := limb_accumulator_2 * SUBLIMB_SHIFT
  let limb_accumulator_2 := limb_accumulator_2 + wire p .W_O
  let limb_accumulator_2 := limb_accumulator_2 - wire p .W_4_SHIFT
  let limb_accumulator_2 := limb_accumulator_2 * wire p .Q_M
  let limb_accumulator_identity := limb_accumulator_1 + limb_accumulator_2
  let limb_accumulator_identity := limb_accumulator_identity * wire p .Q_O
  let nnf_identity := non_native_field_identity + limb_accumulator_identity
  let nnf_identity := nnf_identity * (wire p .Q_NNF * domainSep)
  evals.set 19 nnf_identity

def accumulatePoseidonExternalRelation (p : Entities K) (evals : Evaluations K) (domainSep : K) : Evaluations K :=
  let s1 := wire p .W_L + wire p .Q_L
  let s2 := wire p .W_R + wire p .Q_R
  let s3 := wire p .W_O + wire p .Q_O
  let s4 := wire p .W_4 + wire p .Q_4
  let u1 := s1 * s1 * s1 * s1 * s1
  let u2 := s2 * s2 * s2 * s2 * s2
  let u3 := s3 * s3 * s3 * s3 * s3
  let u4 := s4 * s4 * s4 * s4 * s4
  let t0 := u1 + u2
  let t1 := u3 + u4
  let t2 := u2 + u2 + t1
  let t3 := u4 + u4 + t0
  let v4 := t1 + t1
  let v4 := v4 + v4 + t3
  let v2 := t0 + t0
  let v2 := v2 + v2 + t2
  let v1 := t3 + v2
  let v3 := t2 + v4
  let q_pos_by_scaling := wire p .Q_POSEIDON2_EXTERNAL * domainSep
  let evals := evals.set 20 (evals[20] + q_pos_by_scaling * (v1 - wire p .W_L_SHIFT))
  let evals := evals.set 21 (evals[21] + q_pos_by_scaling * (v2 - wire p .W_R_SHIFT))
  let evals := evals.set 22 (evals[22] + q_pos_by_scaling * (v3 - wire p .W_O_SHIFT))
  evals.set 23 (evals[23] + q_pos_by_scaling * (v4 - wire p .W_4_SHIFT))

def accumulatePoseidonInternalRelation (p : Entities K) (evals : Evaluations K) (domainSep : K) : Evaluations K :=
  let internal_matrix_diagonal_0 : K :=
    (0x10dc6e9c006ea38b04b1e03b4bd9490c0d03f98929ca1d7fb56821fd19d3b6e7 : Nat)
  let internal_matrix_diagonal_1 : K :=
    (0x0c28145b6a44df3e0149b3d0a30b3bb599df9756d4dd9b84a86b38cfb45a740b : Nat)
  let internal_matrix_diagonal_2 : K :=
    (0x00544b8338791518b2c7645a50392798b21f75bb60e3596170067d00141cac15 : Nat)
  let internal_matrix_diagonal_3 : K :=
    (0x222c01175718386f2e2e82eb122789e352e105a3b8fa852613bc534433ee428b : Nat)
  let s1 := wire p .W_L + wire p .Q_L
  let u1 := s1 * s1 * s1 * s1 * s1
  let u2 := wire p .W_R
  let u3 := wire p .W_O
  let u4 := wire p .W_4
  let u_sum := u1 + u2 + u3 + u4
  let q_pos_by_scaling := wire p .Q_POSEIDON2_INTERNAL * domainSep
  let v1 := u1 * internal_matrix_diagonal_0 + u_sum
  let evals := evals.set 24 (evals[24] + q_pos_by_scaling * (v1 - wire p .W_L_SHIFT))
  let v2 := u2 * internal_matrix_diagonal_1 + u_sum
  let evals := evals.set 25 (evals[25] + q_pos_by_scaling * (v2 - wire p .W_R_SHIFT))
  let v3 := u3 * internal_matrix_diagonal_2 + u_sum
  let evals := evals.set 26 (evals[26] + q_pos_by_scaling * (v3 - wire p .W_O_SHIFT))
  let v4 := u4 * internal_matrix_diagonal_3 + u_sum
  evals.set 27 (evals[27] + q_pos_by_scaling * (v4 - wire p .W_4_SHIFT))

/-- The first subrelation is scaled by 1, the others by the powers of alpha. -/
def scaleAndBatchSubrelations (evaluations : Evaluations K) (subrelationChallenges : Alphas K) : K :=
  (List.finRange NUMBER_OF_ALPHAS).foldl
    (fun accumulator i => accumulator + evaluations.get i.succ * subrelationChallenges.get i) evaluations[0]

/-- The subrelations before they are batched. -/
def relationEvaluations (purportedEvaluations : Entities K) (rp : RelationParameters K) (powPartialEval : K) :
    Evaluations K :=
  let evaluations : Evaluations K := Vector.replicate NUMBER_OF_SUBRELATIONS ZERO
  let evaluations := accumulateArithmeticRelation purportedEvaluations evaluations powPartialEval
  let evaluations := accumulatePermutationRelation purportedEvaluations rp evaluations powPartialEval
  let evaluations := accumulateLogDerivativeLookupRelation purportedEvaluations rp evaluations powPartialEval
  let evaluations := accumulateDeltaRangeRelation purportedEvaluations evaluations powPartialEval
  let evaluations := accumulateEllipticRelation purportedEvaluations evaluations powPartialEval
  let evaluations := accumulateMemoryRelation purportedEvaluations rp evaluations powPartialEval
  let evaluations := accumulateNnfRelation purportedEvaluations evaluations powPartialEval
  let evaluations := accumulatePoseidonExternalRelation purportedEvaluations evaluations powPartialEval
  accumulatePoseidonInternalRelation purportedEvaluations evaluations powPartialEval

def accumulateRelationEvaluations (purportedEvaluations : Entities K) (rp : RelationParameters K)
    (subrelationChallenges : Alphas K) (powPartialEval : K) : K :=
  scaleAndBatchSubrelations (relationEvaluations purportedEvaluations rp powPartialEval) subrelationChallenges

end

/-! ### Related arguments -/

section
variable {K L : Type} {R : K → L → Prop}

structure RelatedParameters (R : K → L → Prop) (rp : RelationParameters K) (rp' : RelationParameters L) : Prop where
  eta : R rp.eta rp'.eta
  beta : R rp.beta rp'.beta
  gamma : R rp.gamma rp'.gamma
  publicInputsDelta : R rp.publicInputsDelta rp'.publicInputsDelta

variable {p : Entities K} {p' : Entities L}

theorem wire_related (hp : Pointwise R p p') (w : WIRE) : R (wire p w) (wire p' w) := hp.getElem _ (ctorIdx_lt w)

variable [Add K] [Sub K] [Mul K] [NatCast K] [Add L] [Sub L] [Mul L] [NatCast L] {rp : RelationParameters K}
  {rp' : RelationParameters L} {evals : Evaluations K} {evals' : Evaluations L} {d : K} {d' : L}

theorem arithmetic_related (h : Respects R) (hp : Pointwise R p p') (he : Pointwise R evals evals') (hd : R d d') :
    Pointwise R (accumulateArithmeticRelation p evals d) (accumulateArithmeticRelation p' evals' d') := by
  have hw := wire_related hp
  simp only [accumulateArithmeticRelation]
  repeat' with_reducible first | exact hw _ | apply h.mul | apply h.add | apply h.sub | exact h.natCast _ | assumption |
    apply Pointwise.set

theorem permutation_related (h : Respects R) (hp : Pointwise R p p') (hrp : RelatedParameters R rp rp')
    (he : Pointwise R evals evals') (hd : R d d') :
    Pointwise R (accumulatePermutationRelation p rp evals d) (accumulatePermutationRelation p' rp' evals' d') := by
  have hw := wire_related hp
  obtain ⟨heta, hbeta, hgamma, hdelta⟩ := hrp
  simp only [accumulatePermutationRelation, permutationNumerator, permutationDenominator]
  repeat' with_reducible first | exact hw _ | apply h.mul | apply h.add | apply h.sub | exact h.natCast _ | assumption |
    apply Pointwise.set

theorem lookup_related (h : Respects R) (hp : Pointwise R p p') (hrp : RelatedParameters R rp rp')
    (he : Pointwise R evals evals') (hd : R d d') :
    Pointwise R (accumulateLogDerivativeLookupRelation p rp evals d)
      (accumulateLogDerivativeLookupRelation p' rp' evals' d') := by
  have hw := wire_related hp
  obtain ⟨heta, hbeta, hgamma, hdelta⟩ := hrp
  simp only [accumulateLogDerivativeLookupRelation]
  repeat' with_reducible first | exact hw _ | apply h.mul | apply h.add | apply h.sub | exact h.natCast _ | assumption |
    apply Pointwise.set

theorem deltaRange_related (h : Respects R) (hp : Pointwise R p p') (he : Pointwise R evals evals') (hd : R d d') :
    Pointwise R (accumulateDeltaRangeRelation p evals d) (accumulateDeltaRangeRelation p' evals' d') := by
  have hw := wire_related hp
  have hcontribution {x : K} {x' : L} (hx : R x x') :
      R (deltaRangeContribution p d x) (deltaRangeContribution p' d' x') := by
    simp only [deltaRangeContribution]
    repeat' with_reducible first | exact hw _ | apply h.mul | apply h.add | apply h.sub | exact h.natCast _ | assumption
  simp only [accumulateDeltaRangeRelation]
  repeat' with_reducible first | exact hw _ | apply hcontribution | apply h.sub | assumption | apply Pointwise.set

theorem elliptic_related (h : Respects R) (hp : Pointwise R p p') (he : Pointwise R evals evals') (hd : R d d') :
    Pointwise R (accumulateEllipticRelation p evals d) (accumulateEllipticRelation p' evals' d') := by
  have hw := wire_related hp
  simp only [accumulateEllipticRelation]
  repeat' with_reducible first | exact hw _ | apply h.mul | apply h.add | apply h.sub | exact h.natCast _ | assumption |
    apply Pointwise.accumulate h.add | apply Pointwise.set

theorem memory_related (h : Respects R) (hp : Pointwise R p p') (hrp : RelatedParameters R rp rp')
    (he : Pointwise R evals evals') (hd : R d d') :
    Pointwise R (accumulateMemoryRelation p rp evals d) (accumulateMemoryRelation p' rp' evals' d') := by
  have hw := wire_related hp
  obtain ⟨heta, hbeta, hgamma, hdelta⟩ := hrp
  simp only [accumulateMemoryRelation]
  repeat' with_reducible first | exact hw _ | apply h.mul | apply h.add | apply h.sub | exact h.natCast _ | assumption |
    apply Pointwise.set

theorem nnf_related (h : Respects R) (hp : Pointwise R p p') (he : Pointwise R evals evals') (hd : R d d') :
    Pointwise R (accumulateNnfRelation p evals d) (accumulateNnfRelation p' evals' d') := by
  have hw := wire_related hp
  simp only [accumulateNnfRelation]
  repeat' with_reducible first | exact hw _ | apply h.mul | apply h.add | apply h.sub | exact h.natCast _ | assumption |
    apply Pointwise.set

theorem poseidonExternal_related (h : Respects R) (hp : Pointwise R p p') (he : Pointwise R evals evals')
    (hd : R d d') :
    Pointwise R (accumulatePoseidonExternalRelation p evals d) (accumulatePoseidonExternalRelation p' evals' d') := by
  have hw := wire_related hp
  simp only [accumulatePoseidonExternalRelation]
  repeat' with_reducible first | exact hw _ | apply h.mul | apply h.add | apply h.sub | exact h.natCast _ | assumption |
    apply Pointwise.accumulate h.add

theorem poseidonInternal_related (h : Respects R) (hp : Pointwise R p p') (he : Pointwise R evals evals')
    (hd : R d d') :
    Pointwise R (accumulatePoseidonInternalRelation p evals d) (accumulatePoseidonInternalRelation p' evals' d') := by
  have hw := wire_related hp
  simp only [accumulatePoseidonInternalRelation]
  repeat' with_reducible first | exact hw _ | apply h.mul | apply h.add | apply h.sub | exact h.natCast _ | assumption |
    apply Pointwise.accumulate h.add

theorem scaleAndBatch_related (h : Respects R) (he : Pointwise R evals evals') {alphas : Alphas K} {alphas' : Alphas L}
    (ha : Pointwise R alphas alphas') :
    R (scaleAndBatchSubrelations evals alphas) (scaleAndBatchSubrelations evals' alphas') := by
  have hfold (is : List (Fin NUMBER_OF_ALPHAS)) {x : K} {x' : L} (hx : R x x') :
      R (is.foldl (fun acc i => acc + evals.get i.succ * alphas.get i) x)
        (is.foldl (fun acc i => acc + evals'.get i.succ * alphas'.get i) x') := by
    induction is generalizing x x' with
    | nil => exact hx
    | cons i is ih => exact ih (h.add hx (h.mul (he.getElem _ i.succ.isLt) (ha.getElem _ i.isLt)))
  exact hfold _ (he.getElem 0 (by decide))

theorem relationEvaluations_related (h : Respects R) (hp : Pointwise R p p') (hrp : RelatedParameters R rp rp')
    (hd : R d d') : Pointwise R (relationEvaluations p rp d) (relationEvaluations p' rp' d') := by
  have he := arithmetic_related h hp (Pointwise.replicate (h.natCast 0)) hd
  have he := permutation_related h hp hrp he hd
  have he := lookup_related h hp hrp he hd
  have he := deltaRange_related h hp he hd
  have he := elliptic_related h hp he hd
  have he := memory_related h hp hrp he hd
  have he := nnf_related h hp he hd
  have he := poseidonExternal_related h hp he hd
  exact poseidonInternal_related h hp he hd

/-- Related rows, parameters and scalings have related batched relations. -/
theorem accumulate_related (h : Respects R) (hp : Pointwise R p p') (hrp : RelatedParameters R rp rp')
    {alphas : Alphas K} {alphas' : Alphas L} (ha : Pointwise R alphas alphas') (hd : R d d') :
    R (accumulateRelationEvaluations p rp alphas d) (accumulateRelationEvaluations p' rp' alphas' d') :=
  scaleAndBatch_related h (relationEvaluations_related h hp hrp hd) ha

end

/-! ### Words, polynomials and degrees -/

open Fr in
/-- What the batched relation computes on words. -/
theorem toField_accumulate (p : Entities Fr) (rp : RelationParameters Fr) (alphas : Alphas Fr) (d : Fr) :
    (accumulateRelationEvaluations p rp alphas d).toField =
      accumulateRelationEvaluations (p.map toField) (rp.map toField) (alphas.map toField) d.toField := by
  have hmap {n : Nat} (v : Vector Fr n) : Pointwise (fun a x => toField a = x) v (v.map toField) :=
    ⟨fun i hi => (Vector.getElem_map ..).symm⟩
  exact accumulate_related respects_toField (hmap p) ⟨rfl, rfl, rfl, rfl⟩ (hmap alphas) rfl

open Polynomial in
theorem eval_accumulate (x : Field) {p : Entities Field[X]} {p' : Entities Field}
    (hp : Pointwise (fun q y => q.eval x = y) p p') (rp : RelationParameters Field) (alphas : Alphas Field) (d : Field[X]) :
    (accumulateRelationEvaluations p (rp.map C) (alphas.map C) d).eval x =
      accumulateRelationEvaluations p' rp alphas (d.eval x) := by
  have halphas : Pointwise (fun q y => q.eval x = y) (alphas.map C) alphas :=
    ⟨fun i hi => by rw [Vector.getElem_map, eval_C]⟩
  have hrp : RelatedParameters (fun q y => q.eval x = y) (rp.map C) rp := ⟨eval_C, eval_C, eval_C, eval_C⟩
  exact accumulate_related (respects_ringHom (evalRingHom x)) hp hrp halphas rfl

open Polynomial in
/-- Where every wire and the scaling are linear, the batched relation has degree at most 7. -/
theorem natDegree_accumulate_le {p : Entities Field[X]} (hp : ∀ i (hi : i < NUMBER_OF_ENTITIES), p[i].natDegree ≤ 1)
    (rp : RelationParameters Field) (alphas : Alphas Field) {d : Field[X]} (hd : d.natDegree ≤ 1) :
    (accumulateRelationEvaluations p (rp.map C) (alphas.map C) d).natDegree ≤ 7 := by
  have hrow : Pointwise (fun (q : Field[X]) (b : DegreeBound) => q.natDegree ≤ b.bound) p
      (Vector.replicate NUMBER_OF_ENTITIES ⟨1⟩) := ⟨fun i hi => by rw [Vector.getElem_replicate]; exact hp i hi⟩
  have halphas : Pointwise (fun (q : Field[X]) (b : DegreeBound) => q.natDegree ≤ b.bound) (alphas.map C)
      (Vector.replicate NUMBER_OF_ALPHAS ⟨0⟩) := by
    refine ⟨?_⟩
    intro i hi
    rw [Vector.getElem_replicate, Vector.getElem_map, natDegree_C]
  have hC (c : Field) : (C c).natDegree ≤ 0 := (natDegree_C c).le
  have hrp : RelatedParameters (fun (q : Field[X]) (b : DegreeBound) => q.natDegree ≤ b.bound) (rp.map C)
      ⟨⟨0⟩, ⟨0⟩, ⟨0⟩, ⟨0⟩⟩ := ⟨hC _, hC _, hC _, hC _⟩
  have hone : d.natDegree ≤ (⟨1⟩ : DegreeBound).bound := hd
  refine (accumulate_related respects_natDegree hrow hrp halphas hone).trans ?_
  decide +kernel

/-! ### How the scaling enters -/

section
open Polynomial

/-- The subrelations as polynomials in the scaling alone. -/
noncomputable def inScaling (p : Entities Field) (rp : RelationParameters Field) (k : Fin NUMBER_OF_SUBRELATIONS) :
    Field[X] := (relationEvaluations (p.map C) (rp.map C) X).get k

variable (p : Entities Field) (rp : RelationParameters Field) (k : Fin NUMBER_OF_SUBRELATIONS)

theorem eval_inScaling (d : Field) : (inScaling p rp k).eval d = (relationEvaluations p rp d).get k := by
  have hp : Pointwise (fun q y => q.eval d = y) (p.map C) p := ⟨fun i hi => by rw [Vector.getElem_map, eval_C]⟩
  have hrp : RelatedParameters (fun q y => q.eval d = y) (rp.map C) rp := ⟨eval_C, eval_C, eval_C, eval_C⟩
  exact (relationEvaluations_related (respects_ringHom (evalRingHom d)) hp hrp eval_X).getElem k k.isLt

/-- Of degree 1, and constant for the subrelation that is not scaled. -/
theorem natDegree_inScaling_le : (inScaling p rp k).natDegree ≤ if k = 5 then 0 else 1 := by
  have hC (c : Field) : (C c).natDegree ≤ 0 := (natDegree_C c).le
  have hp : Pointwise (fun (q : Field[X]) (b : DegreeBound) => q.natDegree ≤ b.bound) (p.map C)
      (Vector.replicate NUMBER_OF_ENTITIES ⟨0⟩) := by
    refine ⟨?_⟩
    intro i hi
    rw [Vector.getElem_replicate, Vector.getElem_map]
    exact hC _
  have hrp : RelatedParameters (fun (q : Field[X]) (b : DegreeBound) => q.natDegree ≤ b.bound) (rp.map C)
      ⟨⟨0⟩, ⟨0⟩, ⟨0⟩, ⟨0⟩⟩ := ⟨hC _, hC _, hC _, hC _⟩
  have hX : (X : Field[X]).natDegree ≤ (⟨1⟩ : DegreeBound).bound := natDegree_X_le
  refine ((relationEvaluations_related respects_natDegree hp hrp hX).getElem k k.isLt).trans ?_
  revert k
  decide +kernel

/-- Without the scaling nothing but that one subrelation is left. -/
theorem relationEvaluations_zero (hk : k ≠ 5) : (relationEvaluations p rp 0).get k = 0 := by
  have hany (a : Field) : (⟨false⟩ : Vanishing).zero = true → a = 0 := nofun
  have hp : Pointwise (fun (a : Field) (v : Vanishing) => v.zero = true → a = 0) p
      (Vector.replicate NUMBER_OF_ENTITIES ⟨false⟩) := by
    refine ⟨?_⟩
    intro i hi
    rw [Vector.getElem_replicate]
    exact hany _
  have hrp : RelatedParameters (fun (a : Field) (v : Vanishing) => v.zero = true → a = 0) rp
      ⟨⟨false⟩, ⟨false⟩, ⟨false⟩, ⟨false⟩⟩ := ⟨hany _, hany _, hany _, hany _⟩
  have hzero : (⟨true⟩ : Vanishing).zero = true → (0 : Field) = 0 := fun _ => rfl
  refine (relationEvaluations_related respects_zero hp hrp hzero).getElem k k.isLt ?_
  revert k
  decide +kernel

theorem relationEvaluations_scaled (d : Field) (hk : k ≠ 5) :
    (relationEvaluations p rp d).get k = d * (relationEvaluations p rp 1).get k := by
  have hdeg := natDegree_inScaling_le p rp k
  rw [if_neg hk] at hdeg
  obtain ⟨a, b, hab⟩ := exists_eq_X_add_C_of_natDegree_le_one hdeg
  have heval (x : Field) : (relationEvaluations p rp x).get k = a * x + b := by
    refine (eval_inScaling p rp k x).symm.trans ?_
    rw [hab]
    simp
  have hb : b = 0 := by
    have h0 := heval 0
    rw [mul_zero, zero_add] at h0
    exact h0.symm.trans (relationEvaluations_zero p rp k hk)
  rw [heval d, heval 1, hb]
  ring

theorem relationEvaluations_unscaled (d : Field) :
    (relationEvaluations p rp d).get 5 = (relationEvaluations p rp 1).get 5 := by
  have hdeg := natDegree_inScaling_le p rp 5
  rw [if_pos rfl] at hdeg
  have heval (x : Field) : (relationEvaluations p rp x).get 5 = (inScaling p rp 5).coeff 0 := by
    refine (eval_inScaling p rp 5 x).symm.trans ?_
    rw [eq_C_of_natDegree_le_zero hdeg, eval_C, coeff_C_zero]
  rw [heval d, heval 1]

end

/-! ### The subrelations of the permutation and of the lookups -/

section
variable {K : Type}

theorem get_set_ne {n : Nat} (v : Vector K n) (a : K) {i : Nat} (hi : i < n) {j : Fin n} (h : i ≠ j) :
    (v.set i a hi).get j = v.get j :=
  Vector.getElem_set_ne hi j.isLt h

theorem get_set_self {n : Nat} (v : Vector K n) (a : K) {i : Nat} (hi : i < n) : (v.set i a hi).get ⟨i, hi⟩ = a :=
  Vector.getElem_set_self hi

variable [Add K] [Sub K] [Mul K] [NatCast K] (p : Entities K) (rp : RelationParameters K) (d : K)
  {j : Fin NUMBER_OF_SUBRELATIONS}

/-- The later relations leave the first seven subrelations alone. -/
theorem relationEvaluations_of_lt (hj : j.val < 7) : (relationEvaluations p rp d).get j =
    (accumulateLogDerivativeLookupRelation p rp (accumulatePermutationRelation p rp
      (accumulateArithmeticRelation p (Vector.replicate NUMBER_OF_SUBRELATIONS ZERO) d) d) d).get j := by
  have hrange (evals : Evaluations K) : (accumulateDeltaRangeRelation p evals d).get j = evals.get j := by
    simp (disch := omega) only [accumulateDeltaRangeRelation, get_set_ne]
  have helliptic (evals : Evaluations K) : (accumulateEllipticRelation p evals d).get j = evals.get j := by
    simp (disch := omega) only [accumulateEllipticRelation, get_set_ne]
  have hmemory (evals : Evaluations K) : (accumulateMemoryRelation p rp evals d).get j = evals.get j := by
    simp (disch := omega) only [accumulateMemoryRelation, get_set_ne]
  have hnnf (evals : Evaluations K) : (accumulateNnfRelation p evals d).get j = evals.get j := by
    simp (disch := omega) only [accumulateNnfRelation, get_set_ne]
  have hexternal (evals : Evaluations K) : (accumulatePoseidonExternalRelation p evals d).get j = evals.get j := by
    simp (disch := omega) only [accumulatePoseidonExternalRelation, get_set_ne]
  have hinternal (evals : Evaluations K) : (accumulatePoseidonInternalRelation p evals d).get j = evals.get j := by
    simp (disch := omega) only [accumulatePoseidonInternalRelation, get_set_ne]
  rw [relationEvaluations, hinternal, hexternal, hnnf, hmemory, helliptic, hrange]

theorem relationEvaluations_of_lt_four (hj : j.val < 4) : (relationEvaluations p rp d).get j =
    (accumulatePermutationRelation p rp
      (accumulateArithmeticRelation p (Vector.replicate NUMBER_OF_SUBRELATIONS ZERO) d) d).get j := by
  rw [relationEvaluations_of_lt p rp d (by omega)]
  simp (disch := omega) only [accumulateLogDerivativeLookupRelation, get_set_ne]

theorem relationEvaluations_two : (relationEvaluations p rp d).get 2 =
    ((wire p .Z_PERM + wire p .LAGRANGE_FIRST) * permutationNumerator p rp -
      (wire p .Z_PERM_SHIFT + wire p .LAGRANGE_LAST * rp.publicInputsDelta) * permutationDenominator p rp) * d := by
  have h3 : 3 ≠ (2 : Fin NUMBER_OF_SUBRELATIONS).val := by decide
  rw [relationEvaluations_of_lt_four p rp d (by decide)]
  simp only [accumulatePermutationRelation]
  rw [get_set_ne _ _ _ h3]
  exact get_set_self _ _ _

theorem relationEvaluations_three :
    (relationEvaluations p rp d).get 3 = wire p .LAGRANGE_LAST * wire p .Z_PERM_SHIFT * d := by
  rw [relationEvaluations_of_lt_four p rp d (by decide)]
  simp only [accumulatePermutationRelation]
  exact get_set_self _ _ _

end

end RelationsLib
end InfraVeritas
