import InfraVeritas.HonkSoundness
import InfraVeritas.Lib.GrandProduct

/-!
# The permutation argument and the public inputs

`computePublicInputDelta` is a quotient of two fingerprints of the public inputs, under the labels of the public cells and of
the places that point to them. In a satisfied trace the grand product compares the fingerprints of all cells under their
own labels and under those they are wired to, up to that quotient. So for all but a few `beta` and `gamma`, every cell has
the value of the cell it is wired to, and a public cell has the value of its public input (`copy_constraints`).
-/

namespace InfraVeritas
open Checks Honk HonkVerifier Fr RelationsLib GrandProduct

namespace HonkVerifier

def PERMUTATION_ARGUMENT_VALUE_SEPARATOR : Nat := 1 <<< 28

/-- The locals of the loops of `computePublicInputDelta`. -/
structure DeltaState where
  numerator : Fr
  denominator : Fr
  numeratorAcc : Fr
  denominatorAcc : Fr

def deltaStep (beta : Fr) (st : DeltaState) (pubInput : Fr) : DeltaState where
  numerator := st.numerator * (st.numeratorAcc + pubInput)
  denominator := st.denominator * (st.denominatorAcc + pubInput)
  numeratorAcc := st.numeratorAcc + beta
  denominatorAcc := st.denominatorAcc - beta

def computePublicInputDelta (publicInputs : List Bytes32) (pairingPointObject : Vector Fr PAIRING_POINTS_SIZE)
    (beta gamma : Fr) (offset : Nat) : Except HonkError Fr := do
  let numeratorAcc := gamma + beta * (← ofUInt256 (PERMUTATION_ARGUMENT_VALUE_SEPARATOR + offset))
  let denominatorAcc := gamma - beta * (← ofUInt256 (offset + 1))
  let st ← publicInputs.foldlM (fun st publicInput => do return deltaStep beta st (← fromBytes32 publicInput))
    ⟨wrap 1, wrap 1, numeratorAcc, denominatorAcc⟩
  let st := pairingPointObject.toList.foldl (deltaStep beta) st
  st.numerator.div st.denominator

/-! ### The closed form -/

/-- Values under the labels `l`, `l + step`, `l + 2 step`, … -/
def labelled (l step : Field) : List Field → Multiset (Field × Field)
  | [] => 0
  | x :: xs => (x, l) ::ₘ labelled (l + step) step xs

theorem fingerprint_labelled_cons (β γ l step x : Field) (xs : List Field) : fingerprint β γ (labelled l step (x :: xs)) =
    (x + β * l + γ) * fingerprint β γ (labelled (l + step) step xs) := by
  rw [labelled, fingerprint, Multiset.map_cons, Multiset.prod_cons]
  rfl

theorem card_labelled (l step : Field) (xs : List Field) : Multiset.card (labelled l step xs) = xs.length := by
  induction xs generalizing l with
  | nil => rfl
  | cons x xs ih => rw [labelled, Multiset.card_cons, ih, List.length_cons]

/-- The loops multiply up two fingerprints. -/
theorem foldl_deltaStep {beta : Fr} {γ l l' : Field} (xs : List Fr) {st : DeltaState}
    (hnum : st.numeratorAcc.toField = γ + beta.toField * l) (hden : st.denominatorAcc.toField = γ + beta.toField * l') :
    (xs.foldl (deltaStep beta) st).numerator.toField =
        st.numerator.toField * fingerprint beta.toField γ (labelled l 1 (xs.map toField)) ∧
      (xs.foldl (deltaStep beta) st).denominator.toField =
        st.denominator.toField * fingerprint beta.toField γ (labelled l' (-1) (xs.map toField)) := by
  induction xs generalizing st l l' with
  | nil => simp [labelled, fingerprint]
  | cons x xs ih =>
    have hnum' : (deltaStep beta st x).numeratorAcc.toField = γ + beta.toField * (l + 1) := by
      rw [deltaStep, toField_add, hnum]
      ring
    have hden' : (deltaStep beta st x).denominatorAcc.toField = γ + beta.toField * (l' + -1) := by
      rw [deltaStep, toField_sub, hden]
      ring
    obtain ⟨h₁, h₂⟩ := ih hnum' hden'
    rw [List.foldl_cons, h₁, h₂, List.map_cons, fingerprint_labelled_cons, fingerprint_labelled_cons, deltaStep, toField_mul,
      toField_mul, toField_add, toField_add, hnum, hden]
    constructor
    · ring
    · ring

theorem reduced_foldl_deltaStep {beta : Fr} (xs : List Fr) {st : DeltaState} (h : st.denominator.Reduced) :
    (xs.foldl (deltaStep beta) st).denominator.Reduced := by
  induction xs generalizing st with
  | nil => exact h
  | cons x xs ih => exact ih (reduced_mul _ _)

theorem foldlM_fromBytes32_eq_ok {beta : Fr} {ws : List Bytes32} {st st' : DeltaState} :
    ws.foldlM (fun st w => do return deltaStep beta st (← fromBytes32 w)) st = .ok st' ↔
      (∀ w ∈ ws, w.toNat < P) ∧ st' = (ws.map fun w => wrap w.toNat).foldl (deltaStep beta) st := by
  induction ws generalizing st with
  | nil =>
    rw [List.foldlM_nil, pure_eq_ok]
    simp [eq_comm]
  | cons w ws ih =>
    have hw {x : Fr} : fromBytes32 w = .ok x ↔ w.toNat < P ∧ x = wrap w.toNat := by
      rcases lt_or_ge w.toNat P with hlt | hge
      · rw [fromBytes32, ofUInt256_of_lt hlt, Except.ok.injEq]
        simp [hlt, eq_comm]
      · rw [fromBytes32, ofUInt256_of_le hge]
        simp [hge.not_gt]
    simp only [List.foldlM_cons, bind_eq_ok, pure_eq_ok, hw, ih, List.forall_mem_cons, List.map_cons, List.foldl_cons]
    constructor
    · rintro ⟨_, ⟨x, ⟨hlt, rfl⟩, rfl⟩, hrest, rfl⟩
      exact ⟨⟨hlt, hrest⟩, rfl⟩
    · rintro ⟨⟨hlt, hrest⟩, rfl⟩
      exact ⟨_, ⟨_, ⟨hlt, rfl⟩, rfl⟩, hrest, rfl⟩

/-- The values of the public inputs, those of the pairing points last. -/
def publicValues (publicInputs : List Bytes32) (pairingPointObject : Vector Fr PAIRING_POINTS_SIZE) : List Field :=
  publicInputs.map (fun w => (w.toNat : Field)) ++ pairingPointObject.toList.map toField

/-- The public inputs under the labels of their cells, and under the labels that those cells are wired to. -/
def publicCells (offset : Nat) (xs : List Field) : Multiset (Field × Field) :=
  labelled (PERMUTATION_ARGUMENT_VALUE_SEPARATOR + offset : Nat) 1 xs

def publicSigmas (offset : Nat) (xs : List Field) : Multiset (Field × Field) := labelled (-(offset + 1 : Nat)) (-1) xs

/-- The delta exists if the inputs are in range and the denominator is not zero, and is the quotient. -/
theorem computePublicInputDelta_eq_ok {publicInputs : List Bytes32} {pairing : Vector Fr PAIRING_POINTS_SIZE}
    {beta gamma d : Fr} {offset : Nat} (hoffset : PERMUTATION_ARGUMENT_VALUE_SEPARATOR + offset < P) :
    computePublicInputDelta publicInputs pairing beta gamma offset = .ok d ↔
      (∀ w ∈ publicInputs, w.toNat < P) ∧ d.Reduced ∧
      fingerprint beta.toField gamma.toField (publicSigmas offset (publicValues publicInputs pairing)) ≠ 0 ∧
      d.toField * fingerprint beta.toField gamma.toField (publicSigmas offset (publicValues publicInputs pairing)) =
        fingerprint beta.toField gamma.toField (publicCells offset (publicValues publicInputs pairing)) := by
  have hoffset' : offset + 1 < P := by
    have hsep : PERMUTATION_ARGUMENT_VALUE_SEPARATOR = 268435456 := rfl
    omega
  have hnum : (gamma + beta * wrap (PERMUTATION_ARGUMENT_VALUE_SEPARATOR + offset)).toField =
      gamma.toField + beta.toField * (PERMUTATION_ARGUMENT_VALUE_SEPARATOR + offset : Nat) := by
    rw [toField_add, toField_mul, toField_wrap]
  have hden : (gamma - beta * wrap (offset + 1)).toField = gamma.toField + beta.toField * -(offset + 1 : Nat) := by
    rw [toField_sub, toField_mul, toField_wrap]
    ring
  have hvalues : ((publicInputs.map fun w => wrap w.toNat) ++ pairing.toList).map toField =
      publicValues publicInputs pairing := by
    rw [List.map_append, List.map_map, publicValues]
    refine congrArg (· ++ _) (List.map_congr_left ?_)
    intro w _
    exact toField_wrap _
  have hfold (st : DeltaState) : pairing.toList.foldl (deltaStep beta)
      ((publicInputs.map fun w => wrap w.toNat).foldl (deltaStep beta) st) =
      ((publicInputs.map fun w => wrap w.toNat) ++ pairing.toList).foldl (deltaStep beta) st := List.foldl_append.symm
  unfold computePublicInputDelta
  simp only [ofUInt256_of_lt hoffset, ofUInt256_of_lt hoffset', ok_bind, bind_eq_ok, foldlM_fromBytes32_eq_ok]
  obtain ⟨hfnum, hfden⟩ := @foldl_deltaStep beta _ _ _ ((publicInputs.map fun w => wrap w.toNat) ++ pairing.toList)
    ⟨wrap 1, wrap 1, _, _⟩ hnum hden
  have hred := @reduced_foldl_deltaStep beta ((publicInputs.map fun w => wrap w.toNat) ++ pairing.toList)
    ⟨wrap 1, wrap 1, gamma + beta * wrap (PERMUTATION_ARGUMENT_VALUE_SEPARATOR + offset), gamma - beta * wrap (offset + 1)⟩
    (reduced_wrap 1)
  rw [toField_wrap, Nat.cast_one, one_mul, hvalues] at hfnum hfden
  simp only [and_assoc, exists_and_left, exists_eq_left, hfold, div_eq_ok hred, hfnum, hfden]
  rfl

/-! ### The grand product of a trace -/

/-- The four wires of every row, the labels of the cells, and the labels that the cells are wired to. -/
structure Wiring where
  wire : Fin 4 → Nat → Field
  label : Fin 4 → Nat → Field
  sigma : Fin 4 → Nat → Field

namespace Wiring
variable (W : Wiring) (last : Nat)

/-- The cells of the rows up to `last`. -/
def indices : Finset (Fin 4 × Nat) := Finset.univ ×ˢ Finset.range (last + 1)

def cells : Multiset (Field × Field) := (indices last).val.map fun p => (W.wire p.1 p.2, W.label p.1 p.2)

def sigmas : Multiset (Field × Field) := (indices last).val.map fun p => (W.wire p.1 p.2, W.sigma p.1 p.2)

theorem fingerprint_indices (β γ : Field) (l : Fin 4 → Nat → Field) :
    fingerprint β γ ((indices last).val.map fun p => (W.wire p.1 p.2, l p.1 p.2)) =
      ∏ j ∈ Finset.range (last + 1), ∏ c, (W.wire c j + β * l c j + γ) := by
  rw [fingerprint, Multiset.map_map, Finset.prod_comm]
  exact Finset.prod_product ..

theorem card_indices (l : Fin 4 × Nat → Field × Field) : Multiset.card ((indices last).val.map l) = 4 * (last + 1) := by
  rw [Multiset.card_map, Finset.card_val, indices, Finset.card_product, Finset.card_univ, Fintype.card_fin,
    Finset.card_range]

end Wiring

/-- The wires of a trace. -/
def wiring (tables : Trace) : Wiring where
  wire c j := RelationsLib.wire (tables.row j) (![.W_L, .W_R, .W_O, .W_4] c)
  label c j := RelationsLib.wire (tables.row j) (![.ID_1, .ID_2, .ID_3, .ID_4] c)
  sigma c j := RelationsLib.wire (tables.row j) (![.SIGMA_1, .SIGMA_2, .SIGMA_3, .SIGMA_4] c)

/-- The fixed columns mark the first row and row `last`; the shifted column of the grand product is the column shifted, and
begins with 0. -/
structure GrandProductColumns (tables : Trace) (last : Nat) : Prop where
  first : ∀ j, wire (tables.row j) .LAGRANGE_FIRST = if j = 0 then 1 else 0
  last : ∀ j, wire (tables.row j) .LAGRANGE_LAST = if j = last then 1 else 0
  shift : ∀ j, wire (tables.row j) .Z_PERM_SHIFT = wire (tables.row (j + 1)) .Z_PERM
  zero : wire (tables.row 0) .Z_PERM = 0

variable {tables : Trace} {rp : RelationParameters Field} {n last : Nat}

theorem permutationNumerator_eq (j : Nat) : permutationNumerator (tables.row j) rp =
    ∏ c, ((wiring tables).wire c j + rp.beta * (wiring tables).label c j + rp.gamma) := by
  rw [Fin.prod_univ_four]
  simp only [permutationNumerator, wiring, Matrix.cons_val]
  ring

theorem permutationDenominator_eq (j : Nat) : permutationDenominator (tables.row j) rp =
    ∏ c, ((wiring tables).wire c j + rp.beta * (wiring tables).sigma c j + rp.gamma) := by
  rw [Fin.prod_univ_four]
  simp only [permutationDenominator, wiring, Matrix.cons_val]
  ring

/-- The two subrelations of the permutation, row by row, make up the products of all rows. -/
theorem fingerprint_cells_eq (hsat : tables.Satisfied rp n) (hcols : GrandProductColumns tables last)
    (hlast : last ∈ Trace.enabledRows n) :
    fingerprint rp.beta rp.gamma ((wiring tables).cells last) =
      rp.publicInputsDelta * fingerprint rp.beta rp.gamma ((wiring tables).sigmas last) := by
  have henabled {j : Nat} (hj : j ≤ last) : j ∈ Trace.enabledRows n :=
    Finset.mem_range.2 (hj.trans_lt (Finset.mem_range.1 hlast))
  have hstep {j : Nat} (hj : j ≤ last) :
      ((wire (tables.row j) .Z_PERM + wire (tables.row j) .LAGRANGE_FIRST) * permutationNumerator (tables.row j) rp -
        (wire (tables.row j) .Z_PERM_SHIFT + wire (tables.row j) .LAGRANGE_LAST * rp.publicInputsDelta) *
          permutationDenominator (tables.row j) rp) * 1 = 0 :=
    (relationEvaluations_two _ _ _).symm.trans (hsat.row j (henabled hj) 2 (by decide))
  have hend : wire (tables.row last) .LAGRANGE_LAST * wire (tables.row last) .Z_PERM_SHIFT * 1 = 0 :=
    (relationEvaluations_three _ _ _).symm.trans (hsat.row last (henabled le_rfl) 3 (by decide))
  rw [hcols.last, if_pos rfl, one_mul, mul_one] at hend
  -- the running product starts with 1 where the column starts with 0
  have hz (j : Nat) : wire (tables.row j) .Z_PERM + wire (tables.row j) .LAGRANGE_FIRST =
      if j = 0 then 1 else wire (tables.row j) .Z_PERM := by
    rw [hcols.first]
    split
    · next h => rw [h, hcols.zero, zero_add]
    · rw [add_zero]
  have hproduct := @prod_eq_of_running _ _ (fun j => if j = 0 then 1 else wire (tables.row j) .Z_PERM)
    (fun j => permutationNumerator (tables.row j) rp) (fun j => permutationDenominator (tables.row j) rp) last
    rp.publicInputsDelta rfl ?_ ?_
  · rw [Wiring.cells, Wiring.sigmas, Wiring.fingerprint_indices, Wiring.fingerprint_indices]
    simpa only [permutationNumerator_eq, permutationDenominator_eq] using hproduct
  · intro j hj
    have hrow := hstep hj.le
    rw [hz, hcols.last, if_neg hj.ne, hcols.shift, zero_mul, add_zero, mul_one] at hrow
    rw [if_neg (Nat.succ_ne_zero j)]
    exact (sub_eq_zero.1 hrow).symm
  · have hrow := hstep le_rfl
    rw [hz, hcols.last, if_pos rfl, hend, one_mul, zero_add, mul_one] at hrow
    exact (sub_eq_zero.1 hrow).symm

/-! ### The copy constraints -/

namespace Wiring

/-- No two cells have one label, and none has a label that only public cells are wired to. -/
structure Proper (W : Wiring) (last offset count : Nat) : Prop where
  injective : ∀ p ∈ indices last, ∀ q ∈ indices last, W.label p.1 p.2 = W.label q.1 q.2 → p = q
  apart : ∀ p ∈ indices last, ∀ i < count, W.label p.1 p.2 ≠ -(offset + 1 + i : Nat)

/-- Cells have the values of the cells they are wired to, and the public cells those of the public inputs. -/
structure Respected (W : Wiring) (last offset : Nat) (xs : List Field) : Prop where
  copies : ∀ p ∈ indices last, ∀ q ∈ indices last, W.sigma p.1 p.2 = W.label q.1 q.2 → W.wire p.1 p.2 = W.wire q.1 q.2
  publicInputs : ∀ q ∈ indices last, ∀ i (hi : i < xs.length),
    W.label q.1 q.2 = (PERMUTATION_ARGUMENT_VALUE_SEPARATOR + offset + i : Nat) → W.wire q.1 q.2 = xs[i]

end Wiring

theorem mem_labelled {l step : Field} {xs : List Field} {a : Field × Field} :
    a ∈ labelled l step xs ↔ ∃ i, ∃ hi : i < xs.length, a = (xs[i], l + i * step) := by
  induction xs generalizing l with
  | nil => simp [labelled]
  | cons x xs ih =>
    rw [labelled, Multiset.mem_cons, ih]
    constructor
    · rintro (rfl | ⟨i, hi, rfl⟩)
      · exact ⟨0, Nat.succ_pos _, by simp⟩
      · exact ⟨i + 1, Nat.succ_lt_succ hi, by simp; ring⟩
    · rintro ⟨i, hi, rfl⟩
      rcases i with _ | i
      · exact .inl (by simp)
      · exact .inr ⟨i, Nat.lt_of_succ_lt_succ hi, by simp; ring⟩

theorem respected_of_eq {W : Wiring} {last offset : Nat} {xs : List Field} (hW : W.Proper last offset xs.length)
    (h : W.cells last + publicSigmas offset xs = W.sigmas last + publicCells offset xs) : W.Respected last offset xs := by
  -- what a pair of the right side says about the cell with its label
  have hread {x l : Field} (hmem : (x, l) ∈ W.sigmas last + publicCells offset xs) {q : Fin 4 × Nat}
      (hq : q ∈ Wiring.indices last) (hl : l = W.label q.1 q.2) : x = W.wire q.1 q.2 := by
    rw [← h, Multiset.mem_add] at hmem
    rcases hmem with hmem | hmem
    · obtain ⟨p, hp, heq⟩ := Multiset.mem_map.1 hmem
      obtain ⟨rfl, rfl⟩ := Prod.mk.inj heq
      rw [hW.injective p hp q hq hl]
    · obtain ⟨i, hi, heq⟩ := mem_labelled.1 hmem
      obtain ⟨rfl, rfl⟩ := Prod.mk.inj heq
      refine absurd ?_ (hW.apart q hq i hi)
      rw [← hl]
      push_cast
      ring
  refine ⟨?_, ?_⟩
  · intro p hp q hq hpq
    exact hread (Multiset.mem_add.2 (.inl (Multiset.mem_map.2 ⟨p, hp, rfl⟩))) hq hpq
  · intro q hq i hi hlabel
    refine (hread (Multiset.mem_add.2 (.inr (mem_labelled.2 ⟨i, hi, rfl⟩))) hq ?_).symm
    rw [hlabel]
    push_cast
    ring

/-- Unless every cell has the value of the cell it is wired to, and every public cell that of its public input, no trace with
these wires and the columns of a grand product satisfies the relations for all but a few `beta` and `gamma`. -/
theorem copy_constraints {W : Wiring} {last offset : Nat} {publicInputs : List Bytes32}
    {pairing : Vector Fr PAIRING_POINTS_SIZE} (hoffset : PERMUTATION_ARGUMENT_VALUE_SEPARATOR + offset < P)
    (hW : W.Proper last offset (publicValues publicInputs pairing).length) :
    W.Respected last offset (publicValues publicInputs pairing) ∨
    ∃ bad : Finset Field, bad.card ≤ (8 * (last + 1) + 2 * (publicInputs.length + PAIRING_POINTS_SIZE)) ^ 2 ∧
      ∀ beta : Fr, beta.toField ∉ bad → ∃ bad' : Finset Field,
        bad'.card ≤ 4 * (last + 1) + (publicInputs.length + PAIRING_POINTS_SIZE) ∧
        ∀ gamma : Fr, gamma.toField ∉ bad' → ∀ d, computePublicInputDelta publicInputs pairing beta gamma offset = .ok d →
          ∀ (tables : Trace) (eta : Field) (n : Nat), wiring tables = W → GrandProductColumns tables last →
            last ∈ Trace.enabledRows n → ¬ tables.Satisfied ⟨eta, beta.toField, gamma.toField, d.toField⟩ n := by
  have hlen : (publicValues publicInputs pairing).length = publicInputs.length + PAIRING_POINTS_SIZE := by
    simp [publicValues]
  have hcard (l step : Field) : Multiset.card (labelled l step (publicValues publicInputs pairing)) =
      publicInputs.length + PAIRING_POINTS_SIZE := by rw [card_labelled, hlen]
  by_cases heq : W.cells last + publicSigmas offset (publicValues publicInputs pairing) =
      W.sigmas last + publicCells offset (publicValues publicInputs pairing)
  · exact .inl (respected_of_eq hW heq)
  · right
    obtain ⟨bad, hbad, hrest⟩ := exists_challenges heq
    rw [Multiset.card_add, Multiset.card_add, Wiring.cells, Wiring.sigmas, Wiring.card_indices, Wiring.card_indices,
      publicSigmas, publicCells, hcard, hcard] at hbad
    refine ⟨bad, hbad.trans (le_of_eq (by ring)), ?_⟩
    intro beta hbeta
    obtain ⟨bad', hbad', hgamma⟩ := hrest beta.toField hbeta
    rw [Multiset.card_add, Multiset.card_add, Wiring.cells, Wiring.sigmas, Wiring.card_indices, Wiring.card_indices,
      publicSigmas, publicCells, hcard, hcard, max_self] at hbad'
    refine ⟨bad', hbad', ?_⟩
    intro gamma hne d hd tables eta n htables hcols hlast hsat
    refine hgamma gamma.toField hne ?_
    obtain ⟨-, -, -, hdelta⟩ := (computePublicInputDelta_eq_ok hoffset).1 hd
    have hcells := fingerprint_cells_eq hsat hcols hlast
    rw [htables] at hcells
    rw [fingerprint_add, fingerprint_add, hcells, ← hdelta]
    ring

namespace SampleWiring
open WIRE

def publicInputs : List Bytes32 := [7]
def pairing : Vector Fr PAIRING_POINTS_SIZE := Vector.ofFn fun i => wrap (10 + i)

/-- Row 0 copies its first two wires to each other, with the values 3 and 4; in rows 1 to 9 they hold a public value, which the
second one has from outside and the first one passes on to it. -/
def wires : Wiring where
  wire c j := if 2 ≤ c.val then 0 else if j = 0 then (3 + c.val : Nat) else if j = 1 then (7 : Nat) else (8 + j : Nat)
  label c j := (j + PERMUTATION_ARGUMENT_VALUE_SEPARATOR * c.val : Nat)
  sigma c j :=
    if 2 ≤ c.val then (j + PERMUTATION_ARGUMENT_VALUE_SEPARATOR * c.val : Nat)
    else if j = 0 then (PERMUTATION_ARGUMENT_VALUE_SEPARATOR * (1 - c.val) : Nat)
    else if c = 0 then -(j + 1 : Nat)
    else (j : Nat)

theorem proper_wires : wires.Proper 9 1 9 := by
  constructor
  · decide +kernel
  · decide +kernel

theorem not_respected_wires : ¬ wires.Respected 9 1 (publicValues publicInputs pairing) := by
  intro h
  have hcopy := h.copies (0, 0) (by decide) (1, 0) (by decide) rfl
  exact absurd ((natCast_inj (by decide) (by decide)).1 hcopy) (by decide)

def column : WIRE → Nat → Field
  | W_L => wires.wire 0
  | W_R => wires.wire 1
  | W_O => wires.wire 2
  | W_4 => wires.wire 3
  | ID_1 => wires.label 0
  | ID_2 => wires.label 1
  | ID_3 => wires.label 2
  | ID_4 => wires.label 3
  | SIGMA_1 => wires.sigma 0
  | SIGMA_2 => wires.sigma 1
  | SIGMA_3 => wires.sigma 2
  | SIGMA_4 => wires.sigma 3
  | LAGRANGE_FIRST => fun j => if j = 0 then 1 else 0
  | LAGRANGE_LAST => fun j => if j = 9 then 1 else 0
  | _ => fun _ => 0

def trace : Trace := Vector.ofFn fun i => column (ofNat i)

theorem wire_trace (j : Nat) (w : WIRE) : RelationsLib.wire (trace.row j) w = column w j := by
  have hof : ofNat w.ctorIdx = w := by cases w <;> rfl
  have hlt := ctorIdx_lt w
  have hget : RelationsLib.wire (trace.row j) w = (trace.row j)[w.ctorIdx] := rfl
  rw [hget, Trace.row, trace, Vector.getElem_map, Vector.getElem_ofFn, hof]

theorem wiring_trace : wiring trace = wires := by
  have hwire : (wiring trace).wire = wires.wire := by
    funext c j
    fin_cases c <;> exact wire_trace j _
  have hlabel : (wiring trace).label = wires.label := by
    funext c j
    fin_cases c <;> exact wire_trace j _
  have hsigma : (wiring trace).sigma = wires.sigma := by
    funext c j
    fin_cases c <;> exact wire_trace j _
  calc wiring trace = ⟨(wiring trace).wire, (wiring trace).label, (wiring trace).sigma⟩ := rfl
    _ = wires := by rw [hwire, hlabel, hsigma]

theorem columns_trace : GrandProductColumns trace 9 := by
  constructor <;> simp only [wire_trace] <;> simp [column]

end SampleWiring

open SampleWiring in
theorem copy_constraints_sample : (wiring trace = wires ∧ GrandProductColumns trace 9) ∧
    ∃ bad : Finset Field, bad.card ≤ (8 * (9 + 1) + 2 * (publicInputs.length + PAIRING_POINTS_SIZE)) ^ 2 ∧
      ∀ beta : Fr, beta.toField ∉ bad → ∃ bad' : Finset Field,
        bad'.card ≤ 4 * (9 + 1) + (publicInputs.length + PAIRING_POINTS_SIZE) ∧
        ∀ gamma : Fr, gamma.toField ∉ bad' → ∀ d, computePublicInputDelta publicInputs pairing beta gamma 1 = .ok d →
          ∀ (tables : Trace) (eta : Field) (n : Nat), wiring tables = wires → GrandProductColumns tables 9 →
            9 ∈ Trace.enabledRows n → ¬ tables.Satisfied ⟨eta, beta.toField, gamma.toField, d.toField⟩ n :=
  ⟨⟨wiring_trace, columns_trace⟩, (copy_constraints (by decide) proper_wires).resolve_left not_respected_wires⟩

end HonkVerifier
end InfraVeritas
