import InfraVeritas.Fr
import InfraVeritas.Lib.Reader

/-!
# The proof format of `HonkVerifier`

`loadProof` reads the parts of a proof one after the other and checks each: a limb of the pairing points is below its bound,
a scalar below the scalar field's order, a point's coordinates below the base field's, and a point is not the point at
infinity. So what it loads is well formed, and `load_canonical`: there is exactly one string of bytes for each well-formed
proof. The arrays have room for `CONST_PROOF_SIZE_LOG_N` rounds, and a proof has at least one.
-/

namespace InfraVeritas
open BigEndian Checks Reader

/-- The order of the base field. -/
def Q : Nat := 21888242871839275222246405745257275088696311157297823662689037894645226208583

namespace Honk

structure G1Point where
  x : UInt256
  y : UInt256
deriving DecidableEq, Inhabited

end Honk

namespace HonkVerifier
open Honk

def CONST_PROOF_SIZE_LOG_N : Nat := 25
def LIBRA_COMMITMENTS : Nat := 3
instance : NeZero LIBRA_COMMITMENTS := ⟨by decide⟩

def FIELD_ELEMENT_SIZE : Nat := 0x20

end HonkVerifier

namespace Honk
open HonkVerifier

/-- The arrays of `logN` rounds, up to 25 of them, without the rows behind that the code leaves zero. -/
structure ZKProof (logN : Nat) where
  pairingPointObject : Vector Fr PAIRING_POINTS_SIZE
  geminiMaskingPoly : G1Point
  w1 : G1Point
  w2 : G1Point
  w3 : G1Point
  w4 : G1Point
  lookupReadCounts : G1Point
  lookupReadTags : G1Point
  lookupInverses : G1Point
  zPerm : G1Point
  libraCommitments : Vector G1Point LIBRA_COMMITMENTS
  libraSum : Fr
  sumcheckUnivariates : Vector (Vector Fr ZK_BATCHED_RELATION_PARTIAL_LENGTH) logN
  libraEvaluation : Fr
  sumcheckEvaluations : Vector Fr NUMBER_OF_ENTITIES_ZK
  geminiFoldComms : Vector G1Point (logN - 1)
  geminiAEvaluations : Vector Fr logN
  libraPolyEvals : Vector Fr NUM_LIBRA_EVALUATIONS
  shplonkQ : G1Point
  kzgQuotient : G1Point
deriving Inhabited

end Honk

namespace ZKTranscriptLib
open Honk HonkVerifier
variable {logN : Nat} {proof : Bytes}

/-- What `loadProof` reverts with: an error of the verifier, or a panic of the compiled code. -/
inductive LoadError
  | honk (err : HonkError)
  | panic (code : Nat)
deriving DecidableEq, Repr

def LoadError.arithmetic : LoadError := .panic 0x11
def LoadError.outOfBounds : LoadError := .panic 0x32

abbrev Reading := Reader.Reading LoadError

/-- A call to the field library. -/
def ofHonk {α : Type} (x : Except HonkError α) : Reading α := liftM (x.mapError LoadError.honk)

/-- `bytes32(proof[boundary:boundary + FIELD_ELEMENT_SIZE])`, and on with the boundary; a slice beyond the end reverts. -/
def word (proof : Bytes) : Reading Bytes32 := fun boundary =>
  if boundary + FIELD_ELEMENT_SIZE ≤ proof.length then .ok (calldataload proof boundary, boundary + FIELD_ELEMENT_SIZE)
  else .error (.honk .empty)

def bytesToFr (proof : Bytes) : Reading Fr := do
  ofHonk (Fr.fromBytes32 (← word proof))

def bytesToG1Point (proof : Bytes) : Reading G1Point := do
  let x ← word proof
  let y ← word proof
  revertIf (¬ (x.toNat < Q ∧ y.toNat < Q)) (LoadError.honk .valueGeGroupOrder)
  -- the precompiles take (0, 0) for the identity
  revertIf (x ||| y = 0) (LoadError.honk .pointAtInfinity)
  return ⟨x, y⟩

/-- The low limb of a coordinate has 136 bits, the high limb 120. -/
def limbBits (i : Nat) : Nat := if i % 2 = 0 then 136 else 120

def limb (proof : Bytes) (i : Nat) : Reading Fr := do
  let limb ← word proof
  revertIf (¬ limb.toNat < 2 ^ limbBits i) (LoadError.honk .valueGeLimbMax)
  ofHonk (Fr.ofUInt256 limb.toNat)

/-- `v[i] = …` for an array `v` of `size` elements: the right side is read before the index is checked. -/
def store {α : Type} (size i : Nat) (r : Reading α) : Reading α := do
  let a ← r
  revertIf (size ≤ i) LoadError.outOfBounds
  return a

def bytesToFrs (proof : Bytes) (n : Nat) : Reading (Vector Fr n) := Vector.ofFnM fun _ => bytesToFr proof

/-- The loops over the rounds -/
def sumcheckUnivariates (proof : Bytes) (logN : Nat) :
    Reading (Vector (Vector Fr ZK_BATCHED_RELATION_PARTIAL_LENGTH) logN) :=
  Vector.ofFnM fun i : Fin logN => Vector.ofFnM fun _ => store CONST_PROOF_SIZE_LOG_N i (bytesToFr proof)

def geminiFoldComms (proof : Bytes) (logN : Nat) : Reading (Vector G1Point (logN - 1)) := do
  revertIf (logN = 0) LoadError.arithmetic
  Vector.ofFnM fun i : Fin (logN - 1) => store (CONST_PROOF_SIZE_LOG_N - 1) i (bytesToG1Point proof)

def geminiAEvaluations (proof : Bytes) (logN : Nat) : Reading (Vector Fr logN) :=
  Vector.ofFnM fun i : Fin logN => store CONST_PROOF_SIZE_LOG_N i (bytesToFr proof)

def limbs (proof : Bytes) : Reading (Vector Fr PAIRING_POINTS_SIZE) := Vector.ofFnM fun i => limb proof i

def loadProof (proof : Bytes) (logN : Nat) : Reading (ZKProof logN) := do
  let pairingPointObject ← limbs proof
  let geminiMaskingPoly ← bytesToG1Point proof
  let w1 ← bytesToG1Point proof
  let w2 ← bytesToG1Point proof
  let w3 ← bytesToG1Point proof
  let lookupReadCounts ← bytesToG1Point proof
  let lookupReadTags ← bytesToG1Point proof
  let w4 ← bytesToG1Point proof
  let lookupInverses ← bytesToG1Point proof
  let zPerm ← bytesToG1Point proof
  let libraCommitment0 ← bytesToG1Point proof
  let libraSum ← bytesToFr proof
  let sumcheckUnivariates ← sumcheckUnivariates proof logN
  let sumcheckEvaluations ← bytesToFrs proof NUMBER_OF_ENTITIES_ZK
  let libraEvaluation ← bytesToFr proof
  let libraCommitment1 ← bytesToG1Point proof
  let libraCommitment2 ← bytesToG1Point proof
  let geminiFoldComms ← geminiFoldComms proof logN
  let geminiAEvaluations ← geminiAEvaluations proof logN
  let libraPolyEvals ← bytesToFrs proof NUM_LIBRA_EVALUATIONS
  let shplonkQ ← bytesToG1Point proof
  let kzgQuotient ← bytesToG1Point proof
  return {
    pairingPointObject, geminiMaskingPoly, w1, w2, w3, w4, lookupReadCounts, lookupReadTags, lookupInverses, zPerm,
    libraCommitments := #v[libraCommitment0, libraCommitment1, libraCommitment2], libraSum, sumcheckUnivariates,
    libraEvaluation, sumcheckEvaluations, geminiFoldComms, geminiAEvaluations, libraPolyEvals, shplonkQ, kzgQuotient }

/-! ### The parts -/

def frBytes (a : Fr) : Bytes := wordBytes a.toBytes32

def pointBytes (point : G1Point) : Bytes := wordBytes point.x ++ wordBytes point.y

/-- What `bytesToG1Point` accepts. Whether the point is on the curve is left to the precompiles. -/
structure ValidPoint (point : G1Point) : Prop where
  lt : point.x.toNat < Q ∧ point.y.toNat < Q
  ne_zero : ¬ point.x ||| point.y = 0

theorem at_wordBytes {w : Bytes32} {boundary : Nat} :
    At proof boundary (wordBytes w) ↔ boundary + 32 ≤ proof.length ∧ calldataload proof boundary = w := by
  have hlen : (wordBytes w).length = 32 := length_toBE ..
  rw [At, hlen]
  constructor
  · intro h
    have hle := congrArg List.length h
    rw [List.length_take, List.length_drop, hlen] at hle
    have hbound : boundary + 32 ≤ proof.length := by omega
    rw [← wordBytes_inj, wordBytes_calldataload hbound]
    exact ⟨hbound, h⟩
  · rintro ⟨hbound, rfl⟩
    exact (wordBytes_calldataload hbound).symm

theorem reads_word : Reads proof (word proof) 32 wordBytes fun _ => True where
  length _ := length_toBE ..
  run_eq_ok {boundary b' w} := by
    have hrun : (word proof).run boundary = word proof boundary := rfl
    rw [hrun, word, at_wordBytes, FIELD_ELEMENT_SIZE]
    split
    · next h => simp [h, eq_comm]
    · next h => simp [h]

theorem run_lift_eq_ok {α : Type} {x : Except LoadError α} {b : Nat} {y : α × Nat} :
    (liftM x : Reading α).run b = .ok y ↔ x = .ok y.1 ∧ y.2 = b := by
  rcases x with e | a
  · constructor
    · nofun
    · nofun
  · obtain ⟨a', b'⟩ := y
    constructor
    · rintro ⟨⟩
      exact ⟨rfl, rfl⟩
    · rintro ⟨⟨⟩, rfl⟩
      rfl

theorem run_ofHonk_eq_ok {α : Type} {x : Except HonkError α} {b : Nat} {y : α × Nat} :
    (ofHonk x).run b = .ok y ↔ x = .ok y.1 ∧ y.2 = b := by
  rw [ofHonk, run_lift_eq_ok, mapError_eq_ok]

theorem reads_fr : Reads proof (bytesToFr proof) 32 frBytes Fr.Reduced where
  length _ := length_toBE ..
  run_eq_ok {b b' a} := by
    simp only [bytesToFr, run_bind_eq_ok, reads_word.run_eq_ok, run_ofHonk_eq_ok, Fr.fromBytes32, Fr.ofUInt256_eq_ok]
    constructor
    · rintro ⟨w, _, ⟨⟨-, hat⟩, rfl⟩, ⟨hlt, hw⟩, rfl⟩
      have hw' : a.toBytes32 = w := by
        refine BitVec.eq_of_toNat_eq ?_
        rw [Fr.toNat_toBytes32, hw]
      rw [frBytes, hw', Fr.Reduced, hw]
      exact ⟨⟨hlt, hat⟩, rfl⟩
    · rintro ⟨⟨hred, hat⟩, rfl⟩
      rw [Fr.Reduced] at hred
      refine ⟨a.toBytes32, _, ⟨⟨trivial, hat⟩, rfl⟩, ?_, rfl⟩
      rw [Fr.toNat_toBytes32]
      exact ⟨hred, rfl⟩

theorem reads_limb (i : Nat) : Reads proof (limb proof i) 32 frBytes fun a => a.unwrap < 2 ^ limbBits i where
  length _ := length_toBE ..
  run_eq_ok {b b' a} := by
    have hP : 2 ^ limbBits i ≤ P := by
      rw [limbBits]
      split <;> decide
    simp only [limb, run_bind_eq_ok, reads_word.run_eq_ok, run_lift_eq_ok, run_ofHonk_eq_ok, revertIf_eq_ok,
      Fr.ofUInt256_eq_ok, not_not]
    constructor
    · rintro ⟨w, _, ⟨⟨-, hat⟩, rfl⟩, ⟨⟩, _, ⟨hlt, rfl⟩, ⟨-, hw⟩, rfl⟩
      have hw' : a.toBytes32 = w := by
        refine BitVec.eq_of_toNat_eq ?_
        rw [Fr.toNat_toBytes32, hw]
      rw [frBytes, hw', hw]
      exact ⟨⟨hlt, hat⟩, rfl⟩
    · rintro ⟨⟨hlt, hat⟩, rfl⟩
      refine ⟨a.toBytes32, _, ⟨⟨trivial, hat⟩, rfl⟩, (), _, ⟨?_, rfl⟩, ?_, rfl⟩
      · rwa [Fr.toNat_toBytes32]
      · rw [Fr.toNat_toBytes32]
        exact ⟨hlt.trans_le hP, rfl⟩

theorem reads_point : Reads proof (bytesToG1Point proof) 64 pointBytes ValidPoint where
  length _ := by rw [pointBytes, List.length_append, wordBytes, wordBytes, length_toBE, length_toBE]
  run_eq_ok {b b' point} := by
    have hpair := reads_word.pair (@reads_word proof)
    simp only [bytesToG1Point, run_bind_eq_ok, reads_word.run_eq_ok, run_lift_eq_ok, revertIf_eq_ok, run_pure_eq_ok,
      not_not, Prod.mk.injEq]
    rw [pointBytes, at_append, wordBytes, length_toBE]
    constructor
    · rintro ⟨x, _, ⟨⟨-, hx⟩, rfl⟩, y, _, ⟨⟨-, hy⟩, rfl⟩, ⟨⟩, _, ⟨hlt, rfl⟩, ⟨⟩, _, ⟨hne, rfl⟩, rfl, rfl⟩
      exact ⟨⟨⟨hlt, hne⟩, hx, hy⟩, rfl⟩
    · rintro ⟨⟨⟨hlt, hne⟩, hx, hy⟩, rfl⟩
      exact ⟨point.x, _, ⟨⟨trivial, hx⟩, rfl⟩, point.y, _, ⟨⟨trivial, hy⟩, rfl⟩, (), _, ⟨hlt, rfl⟩, (), _, ⟨hne, rfl⟩, rfl,
        rfl⟩

/-! ### The loops over the rounds -/

theorem forall_lt_iff {m k : Nat} : (∀ i : Fin m, (i : Nat) < k) ↔ m ≤ k := by
  constructor
  · intro h
    rcases m with _ | m
    · exact Nat.zero_le k
    · exact h (Fin.last m)
  · intro h i
    exact i.isLt.trans_le h

section
variable {α : Type} {r : Reading α} {m : Nat} {w : α → Bytes} {V : α → Prop}

theorem reads_store (hr : Reads proof r m w V) (size i : Nat) :
    Reads proof (store size i r) m w fun a => V a ∧ i < size where
  length h := hr.length h.1
  run_eq_ok {b b' a} := by
    simp only [store, run_bind_eq_ok, run_lift_eq_ok, revertIf_eq_ok, run_pure_eq_ok, hr.run_eq_ok, not_le, Prod.mk.injEq]
    constructor
    · rintro ⟨_, _, ⟨⟨hV, hat⟩, rfl⟩, ⟨⟩, _, ⟨hlt, rfl⟩, rfl, rfl⟩
      exact ⟨⟨⟨hV, hlt⟩, hat⟩, rfl⟩
    · rintro ⟨⟨⟨hV, hlt⟩, hat⟩, rfl⟩
      exact ⟨a, _, ⟨⟨hV, hat⟩, rfl⟩, (), _, ⟨hlt, rfl⟩, rfl, rfl⟩

/-- A loop that fills the first `n` elements of an array of `size`. -/
theorem reads_stores (hr : Reads proof r m w V) (size n : Nat) :
    Reads proof (Vector.ofFnM fun i : Fin n => store size i r) (n * m) (fun as => as.toList.flatMap w) fun as =>
      (∀ i, V (as.get i)) ∧ n ≤ size :=
  (Reads.ofFnM fun i : Fin n => reads_store hr size i).congr (fun _ => rfl) fun as => by
    rw [forall_and, forall_lt_iff]

end

theorem reads_sumcheckUnivariates (proof : Bytes) (logN : Nat) :
    Reads proof (sumcheckUnivariates proof logN) (logN * (ZK_BATCHED_RELATION_PARTIAL_LENGTH * 32))
      (fun uss => uss.toList.flatMap fun us => us.toList.flatMap frBytes)
      fun uss => (∀ i j, ((uss.get i).get j).Reduced) ∧ logN ≤ CONST_PROOF_SIZE_LOG_N := by
  have hrow (i : Fin logN) := Reads.ofFnM fun _ : Fin ZK_BATCHED_RELATION_PARTIAL_LENGTH =>
    reads_store (@reads_fr proof) CONST_PROOF_SIZE_LOG_N i
  refine (Reads.ofFnM hrow).congr (fun _ => rfl) fun uss => ?_
  rw [← forall_lt_iff, ← forall_and]
  refine forall_congr' fun i => ?_
  have : Nonempty (Fin ZK_BATCHED_RELATION_PARTIAL_LENGTH) := ⟨⟨0, by decide⟩⟩
  rw [forall_and, forall_const]

theorem reads_geminiFoldComms (proof : Bytes) (logN : Nat) :
    Reads proof (geminiFoldComms proof logN) ((logN - 1) * 64) (fun points => points.toList.flatMap pointBytes)
      fun points => (∀ i, ValidPoint (points.get i)) ∧ 0 < logN ∧ logN ≤ CONST_PROOF_SIZE_LOG_N where
  length h := (reads_stores (@reads_point proof) (CONST_PROOF_SIZE_LOG_N - 1) (logN - 1)).length
    ⟨h.1, Nat.sub_le_sub_right h.2.2 1⟩
  run_eq_ok {b b' points} := by
    have hloop := reads_stores (@reads_point proof) (CONST_PROOF_SIZE_LOG_N - 1) (logN - 1)
    simp only [geminiFoldComms, run_bind_eq_ok, run_lift_eq_ok, revertIf_eq_ok, hloop.run_eq_ok]
    constructor
    · rintro ⟨⟨⟩, _, ⟨h0, rfl⟩, ⟨⟨hV, hle⟩, hat⟩, rfl⟩
      exact ⟨⟨⟨hV, Nat.pos_of_ne_zero h0, (Nat.sub_le_sub_iff_right (by decide)).1 hle⟩, hat⟩, rfl⟩
    · rintro ⟨⟨⟨hV, h0, hle⟩, hat⟩, rfl⟩
      exact ⟨(), _, ⟨h0.ne', rfl⟩, ⟨⟨hV, Nat.sub_le_sub_right hle 1⟩, hat⟩, rfl⟩

/-! ### The whole proof -/

/-- The bytes of a proof. -/
def encode (p : ZKProof logN) : Bytes :=
  p.pairingPointObject.toList.flatMap frBytes ++ (pointBytes p.geminiMaskingPoly ++ (pointBytes p.w1 ++
  (pointBytes p.w2 ++ (pointBytes p.w3 ++ (pointBytes p.lookupReadCounts ++ (pointBytes p.lookupReadTags ++
  (pointBytes p.w4 ++ (pointBytes p.lookupInverses ++ (pointBytes p.zPerm ++ (pointBytes p.libraCommitments[0] ++
  (frBytes p.libraSum ++ (p.sumcheckUnivariates.toList.flatMap (fun us => us.toList.flatMap frBytes) ++
  (p.sumcheckEvaluations.toList.flatMap frBytes ++ (frBytes p.libraEvaluation ++ (pointBytes p.libraCommitments[1] ++
  (pointBytes p.libraCommitments[2] ++ (p.geminiFoldComms.toList.flatMap pointBytes ++
  (p.geminiAEvaluations.toList.flatMap frBytes ++ (p.libraPolyEvals.toList.flatMap frBytes ++
  (pointBytes p.shplonkQ ++ pointBytes p.kzgQuotient))))))))))))))))))))

/-- The limbs are in range, the scalars reduced, the points have coordinates of the base field and are not (0, 0), and the
arrays have room for the rounds. -/
@[mk_iff wellFormed_iff]
structure WellFormed (p : ZKProof logN) : Prop where
  rounds : 0 < logN ∧ logN ≤ CONST_PROOF_SIZE_LOG_N
  pairingPointObject : ∀ i : Fin PAIRING_POINTS_SIZE, (p.pairingPointObject.get i).unwrap < 2 ^ limbBits i
  geminiMaskingPoly : ValidPoint p.geminiMaskingPoly
  w1 : ValidPoint p.w1
  w2 : ValidPoint p.w2
  w3 : ValidPoint p.w3
  lookupReadCounts : ValidPoint p.lookupReadCounts
  lookupReadTags : ValidPoint p.lookupReadTags
  w4 : ValidPoint p.w4
  lookupInverses : ValidPoint p.lookupInverses
  zPerm : ValidPoint p.zPerm
  libraCommitment0 : ValidPoint p.libraCommitments[0]
  libraSum : p.libraSum.Reduced
  sumcheckUnivariates : ∀ (i : Fin logN) (j : Fin ZK_BATCHED_RELATION_PARTIAL_LENGTH), ((p.sumcheckUnivariates.get i).get j).Reduced
  sumcheckEvaluations : ∀ i : Fin NUMBER_OF_ENTITIES_ZK, (p.sumcheckEvaluations.get i).Reduced
  libraEvaluation : p.libraEvaluation.Reduced
  libraCommitment1 : ValidPoint p.libraCommitments[1]
  libraCommitment2 : ValidPoint p.libraCommitments[2]
  geminiFoldComms : ∀ i : Fin (logN - 1), ValidPoint (p.geminiFoldComms.get i)
  geminiAEvaluations : ∀ i : Fin logN, (p.geminiAEvaluations.get i).Reduced
  libraPolyEvals : ∀ i : Fin NUM_LIBRA_EVALUATIONS, (p.libraPolyEvals.get i).Reduced
  shplonkQ : ValidPoint p.shplonkQ
  kzgQuotient : ValidPoint p.kzgQuotient

/-- The parts in their order. -/
abbrev Parts (logN : Nat) : Type :=
  Vector Fr PAIRING_POINTS_SIZE × G1Point × G1Point × G1Point × G1Point × G1Point × G1Point × G1Point × G1Point ×
  G1Point × G1Point × Fr × Vector (Vector Fr ZK_BATCHED_RELATION_PARTIAL_LENGTH) logN × Vector Fr NUMBER_OF_ENTITIES_ZK ×
  Fr × G1Point × G1Point × Vector G1Point (logN - 1) × Vector Fr logN × Vector Fr NUM_LIBRA_EVALUATIONS × G1Point × G1Point

def ofParts : Parts logN → ZKProof logN
  | (pairingPointObject, geminiMaskingPoly, w1, w2, w3, lookupReadCounts, lookupReadTags, w4, lookupInverses, zPerm,
      libraCommitment0, libraSum, sumcheckUnivariates, sumcheckEvaluations, libraEvaluation, libraCommitment1,
      libraCommitment2, geminiFoldComms, geminiAEvaluations, libraPolyEvals, shplonkQ, kzgQuotient) => {
    pairingPointObject, geminiMaskingPoly, w1, w2, w3, w4, lookupReadCounts, lookupReadTags, lookupInverses, zPerm,
    libraCommitments := #v[libraCommitment0, libraCommitment1, libraCommitment2], libraSum, sumcheckUnivariates,
    libraEvaluation, sumcheckEvaluations, geminiFoldComms, geminiAEvaluations, libraPolyEvals, shplonkQ, kzgQuotient }

def parts (p : ZKProof logN) : Parts logN :=
  (p.pairingPointObject, p.geminiMaskingPoly, p.w1, p.w2, p.w3, p.lookupReadCounts, p.lookupReadTags, p.w4,
    p.lookupInverses, p.zPerm, p.libraCommitments[0], p.libraSum, p.sumcheckUnivariates, p.sumcheckEvaluations,
    p.libraEvaluation, p.libraCommitments[1], p.libraCommitments[2], p.geminiFoldComms, p.geminiAEvaluations,
    p.libraPolyEvals, p.shplonkQ, p.kzgQuotient)

theorem ofParts_parts (p : ZKProof logN) : ofParts (parts p) = p := by
  have hlibra : #v[p.libraCommitments[0], p.libraCommitments[1], p.libraCommitments[2]] = p.libraCommitments := by
    ext i hi
    match i, hi with
    | 0, _ | 1, _ | 2, _ => rfl
  rw [parts, ofParts, hlibra]

theorem loadProof_eq_map (proof : Bytes) (logN : Nat) : loadProof proof logN =
    ofParts <$> pair (limbs proof) (pair (bytesToG1Point proof) (pair (bytesToG1Point proof)
      (pair (bytesToG1Point proof) (pair (bytesToG1Point proof) (pair (bytesToG1Point proof) (pair (bytesToG1Point proof)
      (pair (bytesToG1Point proof) (pair (bytesToG1Point proof) (pair (bytesToG1Point proof) (pair (bytesToG1Point proof)
      (pair (bytesToFr proof)
      (pair (sumcheckUnivariates proof logN)
      (pair (bytesToFrs proof NUMBER_OF_ENTITIES_ZK) (pair (bytesToFr proof) (pair (bytesToG1Point proof)
      (pair (bytesToG1Point proof) (pair (geminiFoldComms proof logN)
      (pair (geminiAEvaluations proof logN) (pair (bytesToFrs proof NUM_LIBRA_EVALUATIONS)
      (pair (bytesToG1Point proof) (bytesToG1Point proof))))))))))))))))))))) := by
  simp only [pair, loadProof, ofParts, map_bind, bind_assoc, pure_bind, map_pure]

/-- What `loadProof` reads is what `encode` writes, as many bytes as `verify` asks for. -/
theorem reads_loadProof (proof : Bytes) (logN : Nat) :
    Reads proof (loadProof proof logN) (calculateProofSize logN) encode WellFormed := by
  have hscalars (n : Nat) := Reads.ofFnM fun _ : Fin n => @reads_fr proof
  have hparts := (Reads.ofFnM fun i : Fin PAIRING_POINTS_SIZE => reads_limb i).pair <| (@reads_point proof).pair <| reads_point.pair <|
    reads_point.pair <| reads_point.pair <| reads_point.pair <| reads_point.pair <| reads_point.pair <|
    reads_point.pair <| reads_point.pair <| reads_point.pair <| reads_fr.pair <|
    (reads_sumcheckUnivariates proof logN).pair <|
    (hscalars NUMBER_OF_ENTITIES_ZK).pair <| reads_fr.pair <| reads_point.pair <| reads_point.pair <|
    (reads_geminiFoldComms proof logN).pair <| (reads_stores reads_fr CONST_PROOF_SIZE_LOG_N logN).pair <|
    (hscalars NUM_LIBRA_EVALUATIONS).pair <|
    reads_point.pair reads_point
  have hsize : calculateProofSize logN = PAIRING_POINTS_SIZE * 32 + (64 + (64 + (64 + (64 + (64 + (64 + (64 + (64 + (64 +
      (64 + (32 + (logN * (ZK_BATCHED_RELATION_PARTIAL_LENGTH * 32) + (NUMBER_OF_ENTITIES_ZK * 32 + (32 + (64 + (64 +
      ((logN - 1) * 64 + (logN * 32 + (NUM_LIBRA_EVALUATIONS * 32 + (64 + 64)))))))))))))))))))) := by
    simp only [calculateProofSize, NUM_WITNESS_ENTITIES, NUM_ELEMENTS_COMM, ZK_BATCHED_RELATION_PARTIAL_LENGTH,
      NUM_ELEMENTS_FR, NUMBER_OF_ENTITIES_ZK, NUM_LIBRA_EVALUATIONS, PAIRING_POINTS_SIZE]
    omega
  rw [loadProof_eq_map, hsize]
  refine (hparts.map ofParts_parts fun _ => rfl).congr (fun _ => rfl) fun p => ?_
  rw [wellFormed_iff]
  constructor
  · rintro ⟨h, h₁, h₂, h₃, h₄, h₅, h₆, h₇, h₈, h₉, h₁₀, h₁₁, h₁₂, h₁₃, h₁₄, h₁₅, h₁₆, h₁₇, h₁₈, h₁₉, h₂₀, h₂₁, h₂₂⟩
    exact ⟨h₁, h₂, h₃, h₄, h₅, h₆, h₇, h₈, h₉, h₁₀, h₁₁, h₁₂, ⟨h₁₃, h.2⟩, h₁₄, h₁₅, h₁₆, h₁₇, ⟨h₁₈, h⟩, ⟨h₁₉, h.2⟩, h₂₀,
      h₂₁, h₂₂⟩
  · rintro ⟨h₁, h₂, h₃, h₄, h₅, h₆, h₇, h₈, h₉, h₁₀, h₁₁, h₁₂, ⟨h₁₃, -⟩, h₁₄, h₁₅, h₁₆, h₁₇, ⟨h₁₈, h⟩, ⟨h₁₉, -⟩, h₂₀, h₂₁,
      h₂₂⟩
    exact ⟨h, h₁, h₂, h₃, h₄, h₅, h₆, h₇, h₈, h₉, h₁₀, h₁₁, h₁₂, h₁₃, h₁₄, h₁₅, h₁₆, h₁₇, h₁₈, h₁₉, h₂₀, h₂₁, h₂₂⟩

/-- `loadProof(proof, logN)`: the boundary starts at 0 and is dropped. -/
def load (proof : Bytes) (logN : Nat) : Except LoadError (ZKProof logN) := (loadProof proof logN).run' 0

variable {p : ZKProof logN}

/-! ### Panics -/

abbrev NoPanic {α : Type} (r : Reading α) : Prop := ErrorsIn (fun e => ∃ err, e = .honk err) r

theorem noPanic_ofHonk {α : Type} (x : Except HonkError α) : NoPanic (ofHonk x) := by
  refine .lift fun e h => ?_
  obtain ⟨err, -, rfl⟩ := mapError_eq_error.1 h
  exact ⟨err, rfl⟩

theorem noPanic_revertIf (c : Prop) [Decidable c] (err : HonkError) :
    NoPanic (liftM (revertIf c (LoadError.honk err)) : Reading PUnit) :=
  .lift fun _ h => ⟨err, (revertIf_eq_error.1 h).2.symm⟩

theorem noPanic_word : NoPanic (word proof) := by
  intro b e h
  have hrun : (word proof).run b = word proof b := rfl
  rw [hrun, word] at h
  split at h
  · cases h
  · cases h
    exact ⟨_, rfl⟩

theorem noPanic_fr : NoPanic (bytesToFr proof) := noPanic_word.bind fun _ => noPanic_ofHonk _

theorem noPanic_point : NoPanic (bytesToG1Point proof) :=
  noPanic_word.bind fun _ => noPanic_word.bind fun _ => (noPanic_revertIf _ _).bind fun _ =>
    (noPanic_revertIf _ _).bind fun _ => .pure _

theorem noPanic_limb (i : Nat) : NoPanic (limb proof i) :=
  noPanic_word.bind fun _ => (noPanic_revertIf _ _).bind fun _ => noPanic_ofHonk _

theorem noPanic_store {α : Type} {r : Reading α} (hr : NoPanic r) {size i : Nat} (h : i < size) :
    NoPanic (store size i r) := by
  refine hr.bind fun a => .bind (.lift ?_) fun _ => .pure a
  intro _ he
  exact absurd (revertIf_eq_error.1 he).1 h.not_ge

/-- The code does not panic for the number of rounds that its arrays have room for. -/
theorem exists_honk_of_load (h0 : 0 < logN) (hle : logN ≤ CONST_PROOF_SIZE_LOG_N) {e : LoadError}
    (h : load proof logN = .error e) : ∃ err, e = .honk err := by
  have hrow (i : Fin logN) : (i : Nat) < CONST_PROOF_SIZE_LOG_N := i.isLt.trans_le hle
  have hscalars (n : Nat) : NoPanic (bytesToFrs proof n) := .ofFnM fun _ => noPanic_fr
  have hcomms : NoPanic (geminiFoldComms proof logN) :=
    .bind (.lift fun _ he => absurd (revertIf_eq_error.1 he).1 h0.ne') fun _ => .ofFnM fun i =>
      noPanic_store noPanic_point (i.isLt.trans_le (Nat.sub_le_sub_right hle 1))
  have hload : NoPanic (loadProof proof logN) := by
    rw [loadProof_eq_map]
    exact .map (.pair (.ofFnM fun i => noPanic_limb i) <| noPanic_point.pair <| noPanic_point.pair <|
      noPanic_point.pair <| noPanic_point.pair <| noPanic_point.pair <| noPanic_point.pair <| noPanic_point.pair <|
      noPanic_point.pair <| noPanic_point.pair <| noPanic_point.pair <| noPanic_fr.pair <|
      .pair (.ofFnM fun i => .ofFnM fun _ => noPanic_store noPanic_fr (hrow i)) <| (hscalars _).pair <|
      noPanic_fr.pair <| noPanic_point.pair <| noPanic_point.pair <| hcomms.pair <|
      .pair (.ofFnM fun i => noPanic_store noPanic_fr (hrow i)) <| (hscalars _).pair <|
      noPanic_point.pair noPanic_point) _
  exact hload.run' h

/-! ### Strings and records -/

theorem load_eq_ok : load proof logN = .ok p ↔ WellFormed p ∧ encode p <+: proof := (reads_loadProof proof logN).run'_eq_ok

theorem length_encode (hp : WellFormed p) : (encode p).length = calculateProofSize logN := (reads_loadProof [] logN).length hp

/-- The strings of the length that `verify` asks for that load are, one for one, the well-formed records; outside the room of
the arrays there are none of either. -/
theorem load_canonical (proof : Bytes) (p : ZKProof logN) :
    (proof.length = calculateProofSize logN ∧ load proof logN = .ok p) ↔ WellFormed p ∧ encode p = proof := by
  rw [load_eq_ok]
  constructor
  · rintro ⟨hlen, hp, hprefix⟩
    exact ⟨hp, hprefix.eq_of_length ((length_encode hp).trans hlen.symm)⟩
  · rintro ⟨hp, rfl⟩
    exact ⟨length_encode hp, hp, List.prefix_rfl⟩

end ZKTranscriptLib
end InfraVeritas
