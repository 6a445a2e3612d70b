import InfraVeritas.Lib.HashChain
import InfraVeritas.ProofFormat
import InfraVeritas.Relations

/-!
# `generateTranscript`

Every challenge is the low half of a hash, and every hash takes the one before it and the next message of the prover. So the
last challenge is bound to all that came before: two runs that end in the same challenge have the same public inputs and the
same proof but for its last point, or one of the words they hash collide (`transcript_binding`).
-/

namespace InfraVeritas
open Honk HonkVerifier Fr

/-- Of a proof that `loadProof` has let through: up to 25 rounds. -/
structure ZKTranscript (logN : Nat) where
  relationParameters : RelationParameters Fr
  alphas : Alphas Fr
  gateChallenges : Vector Fr logN
  libraChallenge : Fr
  sumCheckUChallenges : Vector Fr logN
  rho : Fr
  geminiR : Fr
  shplonkNu : Fr
  shplonkZ : Fr

namespace ZKTranscriptLib
variable (keccak : Bytes → Bytes32) {logN : Nat}

/-! ### The words of every round -/

def points (ps : List G1Point) : List Bytes32 := ps.flatMap fun p => [p.x, p.y]

def scalars {n : Nat} (as : Vector Fr n) : List Bytes32 := as.toList.map toBytes32

def etaWords (proof : ZKProof logN) (publicInputs : List Bytes32) (vkHash : Bytes32) : List Bytes32 :=
  vkHash :: (publicInputs ++
    (scalars proof.pairingPointObject ++ points [proof.geminiMaskingPoly, proof.w1, proof.w2, proof.w3]))

def betaGammaWords (previousChallenge : Fr) (proof : ZKProof logN) : List Bytes32 :=
  previousChallenge.toBytes32 :: points [proof.lookupReadCounts, proof.lookupReadTags, proof.w4]

def alphaWords (previousChallenge : Fr) (proof : ZKProof logN) : List Bytes32 :=
  previousChallenge.toBytes32 :: points [proof.lookupInverses, proof.zPerm]

def gateWords (previousChallenge : Fr) : List Bytes32 := [previousChallenge.toBytes32]

def libraWords (previousChallenge : Fr) (proof : ZKProof logN) : List Bytes32 :=
  previousChallenge.toBytes32 :: (points [proof.libraCommitments.get 0] ++ [proof.libraSum.toBytes32])

def univariateWords (prevChallenge : Fr) (univariate : Vector Fr ZK_BATCHED_RELATION_PARTIAL_LENGTH) : List Bytes32 :=
  prevChallenge.toBytes32 :: scalars univariate

def rhoWords (prevChallenge : Fr) (proof : ZKProof logN) : List Bytes32 :=
  prevChallenge.toBytes32 :: (scalars proof.sumcheckEvaluations ++
    (proof.libraEvaluation.toBytes32 :: points [proof.libraCommitments.get 1, proof.libraCommitments.get 2]))

def geminiRWords (prevChallenge : Fr) (proof : ZKProof logN) : List Bytes32 :=
  prevChallenge.toBytes32 :: points proof.geminiFoldComms.toList

def shplonkNuWords (prevChallenge : Fr) (proof : ZKProof logN) : List Bytes32 :=
  prevChallenge.toBytes32 :: (scalars proof.geminiAEvaluations ++ scalars proof.libraPolyEvals)

def shplonkZWords (prevChallenge : Fr) (proof : ZKProof logN) : List Bytes32 :=
  prevChallenge.toBytes32 :: points [proof.shplonkQ]

/-! ### The challenges -/

/-- `FrLib.from(uint256(keccak256(abi.encodePacked(words))) % P)`, where `from` never reverts. -/
def hashToFr (words : List Bytes32) : Fr := wrap (keccak (abiEncode words)).toNat

/-- Two chunks of 127 bits. -/
def splitChallenge (challenge : Fr) : Fr × Fr :=
  (wrap (challenge.unwrap &&& 0x7FFFFFFFFFFFFFFFFFFFFFFFFFFFFFFF), wrap (challenge.unwrap >>> 127))

/-- The challenge and the hash that the next round starts with. -/
def nextChallenge (words : List Bytes32) : Fr × Fr :=
  let nextPreviousChallenge := hashToFr keccak words
  ((splitChallenge nextPreviousChallenge).1, nextPreviousChallenge)

def generateEtaChallenge (proof : ZKProof logN) (publicInputs : List Bytes32) (vkHash : Bytes32) : Fr × Fr :=
  nextChallenge keccak (etaWords proof publicInputs vkHash)

def generateBetaGammaChallenges (previousChallenge : Fr) (proof : ZKProof logN) : Fr × Fr × Fr :=
  let nextPreviousChallenge := hashToFr keccak (betaGammaWords previousChallenge proof)
  ((splitChallenge nextPreviousChallenge).1, (splitChallenge nextPreviousChallenge).2, nextPreviousChallenge)

/-- The powers of alpha, from the first on -/
def generateAlphaChallenges (previousChallenge : Fr) (proof : ZKProof logN) : Alphas Fr × Fr :=
  let (alpha, nextPreviousChallenge) := nextChallenge keccak (alphaWords previousChallenge proof)
  (Vector.ofFn fun i => (· * alpha)^[i] alpha, nextPreviousChallenge)

/-- The squares of one challenge -/
def generateGateChallenges (previousChallenge : Fr) (logN : Nat) : Vector Fr logN × Fr :=
  let (gateChallenge, nextPreviousChallenge) := nextChallenge keccak (gateWords previousChallenge)
  (Vector.ofFn fun i => (fun a => a * a)^[i] gateChallenge, nextPreviousChallenge)

def generateLibraChallenge (previousChallenge : Fr) (proof : ZKProof logN) : Fr × Fr :=
  nextChallenge keccak (libraWords previousChallenge proof)

/-- One challenge for the univariate of every round -/
def generateSumcheckChallenges (prevChallenge : Fr) :
    {n : Nat} → Vector (Vector Fr ZK_BATCHED_RELATION_PARTIAL_LENGTH) n → Vector Fr n × Fr
  | 0, _ => (#v[], prevChallenge)
  | _ + 1, univariates =>
    let (sumcheckChallenges, prevChallenge) := generateSumcheckChallenges prevChallenge univariates.pop
    let (challenge, prevChallenge) := nextChallenge keccak (univariateWords prevChallenge univariates.back)
    (sumcheckChallenges.push challenge, prevChallenge)

def generateRhoChallenge (prevChallenge : Fr) (proof : ZKProof logN) : Fr × Fr :=
  nextChallenge keccak (rhoWords prevChallenge proof)

def generateGeminiRChallenge (prevChallenge : Fr) (proof : ZKProof logN) : Fr × Fr :=
  nextChallenge keccak (geminiRWords prevChallenge proof)

def generateShplonkNuChallenge (prevChallenge : Fr) (proof : ZKProof logN) : Fr × Fr :=
  nextChallenge keccak (shplonkNuWords prevChallenge proof)

def generateShplonkZChallenge (prevChallenge : Fr) (proof : ZKProof logN) : Fr × Fr :=
  nextChallenge keccak (shplonkZWords prevChallenge proof)

/-- `generateTranscript` for public inputs in range; `publicInputsDelta` is set later on. -/
def generateTranscript (proof : ZKProof logN) (publicInputs : List Bytes32) (vkHash : Bytes32) : ZKTranscript logN :=
  let (eta, previousChallenge) := generateEtaChallenge keccak proof publicInputs vkHash
  let (beta, gamma, previousChallenge) := generateBetaGammaChallenges keccak previousChallenge proof
  let (alphas, previousChallenge) := generateAlphaChallenges keccak previousChallenge proof
  let (gateChallenges, previousChallenge) := generateGateChallenges keccak previousChallenge logN
  let (libraChallenge, previousChallenge) := generateLibraChallenge keccak previousChallenge proof
  let (sumCheckUChallenges, previousChallenge) := generateSumcheckChallenges keccak previousChallenge
    proof.sumcheckUnivariates
  let (rho, previousChallenge) := generateRhoChallenge keccak previousChallenge proof
  let (geminiR, previousChallenge) := generateGeminiRChallenge keccak previousChallenge proof
  let (shplonkNu, previousChallenge) := generateShplonkNuChallenge keccak previousChallenge proof
  let (shplonkZ, _) := generateShplonkZChallenge keccak previousChallenge proof
  { relationParameters := ⟨eta, beta, gamma, wrap 0⟩, alphas, gateChallenges, libraChallenge, sumCheckUChallenges, rho,
    geminiR, shplonkNu, shplonkZ }

/-! ### Ranges -/

variable {keccak}

theorem unwrap_wrap_of_lt {n : Nat} (h : n < P) : (wrap n).unwrap = n := Nat.mod_eq_of_lt h

theorem splitChallenge_lt (challenge : Fr) : (splitChallenge challenge).1.unwrap < 2 ^ 127 := by
  have hand : challenge.unwrap &&& 0x7FFFFFFFFFFFFFFFFFFFFFFFFFFFFFFF < 2 ^ 127 := Nat.and_lt_two_pow _ (by decide)
  rw [splitChallenge, unwrap_wrap_of_lt (hand.trans (by decide))]
  exact hand

/-- The two chunks make up the hash, so `from` never reverts on them. -/
theorem splitChallenge_eq (challenge : Fr) :
    (splitChallenge challenge).1.unwrap + 2 ^ 127 * (splitChallenge challenge).2.unwrap = challenge.unwrap := by
  have hmask : challenge.unwrap &&& 0x7FFFFFFFFFFFFFFFFFFFFFFFFFFFFFFF = challenge.unwrap % 2 ^ 127 :=
    Nat.and_two_pow_sub_one_eq_mod challenge.unwrap 127
  have hlo : challenge.unwrap % 2 ^ 127 < P := (Nat.mod_lt _ (by decide)).trans (by decide)
  have hhi : challenge.unwrap / 2 ^ 127 < P := by
    have hle := challenge.le
    have hP : P / 2 ^ 127 < P := by decide
    exact (Nat.div_le_div_right hle).trans_lt hP
  rw [splitChallenge, hmask, Nat.shiftRight_eq_div_pow, unwrap_wrap_of_lt hlo, unwrap_wrap_of_lt hhi, Nat.mod_add_div]

/-! ### Binding -/

section
open HashChain

/-- What the prover sends between two challenges, the last point apart. -/
def messages (proof : ZKProof logN) : List (List Bytes32) :=
  [points [proof.lookupReadCounts, proof.lookupReadTags, proof.w4], points [proof.lookupInverses, proof.zPerm], [],
    points [proof.libraCommitments.get 0] ++ [proof.libraSum.toBytes32]] ++
  (proof.sumcheckUnivariates.toList.map scalars ++
  [scalars proof.sumcheckEvaluations ++
      (proof.libraEvaluation.toBytes32 :: points [proof.libraCommitments.get 1, proof.libraCommitments.get 2]),
    points proof.geminiFoldComms.toList, scalars proof.geminiAEvaluations ++ scalars proof.libraPolyEvals,
    points [proof.shplonkQ]])

/-- Everything that `generateTranscript` hashes. -/
def hashedWords (keccak : Bytes → Bytes32) (proof : ZKProof logN) (publicInputs : List Bytes32) (vkHash : Bytes32) :
    List (List Bytes32) :=
  hashed (hashToFr keccak) toBytes32 (etaWords proof publicInputs vkHash) (messages proof)

theorem generateSumcheckChallenges_snd (prevChallenge : Fr) {n : Nat}
    (univariates : Vector (Vector Fr ZK_BATCHED_RELATION_PARTIAL_LENGTH) n) :
    (generateSumcheckChallenges keccak prevChallenge univariates).2 =
      (univariates.toList.map scalars).foldl (fun previous m => hashToFr keccak (previous.toBytes32 :: m)) prevChallenge := by
  induction n generalizing prevChallenge with
  | zero =>
    obtain rfl := univariates.eq_empty
    rfl
  | succ n ih =>
    obtain ⟨us, u, rfl⟩ : ∃ us u, univariates = Vector.push us u :=
      ⟨univariates.pop, univariates.back, univariates.push_pop_back.symm⟩
    have hback : (us.push u).back = u := by simp [Vector.back]
    rw [generateSumcheckChallenges, Vector.pop_push, hback, Vector.toList_push, List.map_append, List.foldl_append, ← ih]
    rfl

theorem shplonkZ_eq (proof : ZKProof logN) (publicInputs : List Bytes32) (vkHash : Bytes32) :
    (generateTranscript keccak proof publicInputs vkHash).shplonkZ = (splitChallenge
      (chain (hashToFr keccak) toBytes32 (etaWords proof publicInputs vkHash) (messages proof))).1 := by
  have hsum (prev : Fr) := @generateSumcheckChallenges_snd keccak prev _ proof.sumcheckUnivariates
  rw [messages, chain_append, List.foldl_append, ← hsum]
  rfl

@[simp] theorem length_points (ps : List G1Point) : (points ps).length = ps.length * 2 := by
  simp [points]

@[simp] theorem length_scalars {n : Nat} (as : Vector Fr n) : (scalars as).length = n := by simp [scalars]

theorem points_injective : Function.Injective points := by
  intro ps qs h
  induction ps generalizing qs with
  | nil =>
    cases qs with
    | nil => rfl
    | cons q qs => cases h
  | cons p ps ih =>
    cases qs with
    | nil => cases h
    | cons q qs =>
      obtain ⟨px, py⟩ := p
      obtain ⟨qx, qy⟩ := q
      simp only [points, List.flatMap_cons, List.cons_append, List.nil_append, List.cons.injEq] at h
      obtain ⟨rfl, rfl, h⟩ := h
      rw [ih h]

theorem scalars_injective {n : Nat} : Function.Injective (scalars : Vector Fr n → List Bytes32) := by
  intro as bs h
  have hinj : Function.Injective toBytes32 := fun _ _ => toBytes32_inj.1
  exact Vector.toList_inj.1 (hinj.list_map h)

/-- The messages determine the proof, the last point apart. -/
theorem eq_of_messages {proof proof' : ZKProof logN} {publicInputs publicInputs' : List Bytes32} {vkHash vkHash' : Bytes32}
    (hfirst : etaWords proof publicInputs vkHash = etaWords proof' publicInputs' vkHash')
    (hmessages : messages proof = messages proof') :
    vkHash = vkHash' ∧ publicInputs = publicInputs' ∧ proof' = { proof with kzgQuotient := proof'.kzgQuotient } := by
  obtain ⟨hvk, hwords⟩ := List.cons.inj hfirst
  obtain ⟨hinputs, hrest⟩ := List.append_inj' hwords (by simp)
  obtain ⟨hpairing, hwires⟩ := List.append_inj hrest (by simp)
  obtain ⟨hinit, htail⟩ := List.append_inj hmessages rfl
  obtain ⟨hunivariates, hend⟩ := List.append_inj htail (by simp)
  simp only [List.cons.injEq, and_true, true_and] at hinit hend
  obtain ⟨hbetaGamma, halpha, hlibra⟩ := hinit
  obtain ⟨hrho, hgemini, hnu, hz⟩ := hend
  obtain ⟨hlibra0, hsum⟩ := List.append_inj hlibra rfl
  obtain ⟨hevals, hrho'⟩ := List.append_inj hrho (by simp)
  obtain ⟨hclaim, hlibra12⟩ := List.cons.inj hrho'
  obtain ⟨ha, hlibraEvals⟩ := List.append_inj hnu (by simp)
  have hrows : proof.sumcheckUnivariates = proof'.sumcheckUnivariates :=
    Vector.toList_inj.1 (scalars_injective.list_map hunivariates)
  have hfolds : proof.geminiFoldComms = proof'.geminiFoldComms := Vector.toList_inj.1 (points_injective hgemini)
  have hcommitments : proof.libraCommitments = proof'.libraCommitments := by
    have h0 := points_injective hlibra0
    have h12 := points_injective hlibra12
    simp only [List.cons.injEq, and_true] at h0 h12
    ext i hi
    match i, hi with
    | 0, _ => exact h0
    | 1, _ => exact h12.1
    | 2, _ => exact h12.2
  have hmask := points_injective hwires
  have hwitness := points_injective hbetaGamma
  have hperm := points_injective halpha
  have hq := points_injective hz
  simp only [List.cons.injEq, and_true] at hmask hwitness hperm hq hsum
  obtain ⟨hgemini, hw1, hw2, hw3⟩ := hmask
  obtain ⟨hcounts, htags, hw4⟩ := hwitness
  refine ⟨hvk, hinputs, ?_⟩
  obtain ⟨⟩ := proof
  obtain ⟨⟩ := proof'
  rw [ZKProof.mk.injEq]
  exact ⟨(scalars_injective hpairing).symm, hgemini.symm, hw1.symm, hw2.symm, hw3.symm, hw4.symm, hcounts.symm, htags.symm,
    hperm.1.symm, hperm.2.symm, hcommitments.symm, (toBytes32_inj.1 hsum).symm, hrows.symm, (toBytes32_inj.1 hclaim).symm,
    (scalars_injective hevals).symm, hfolds.symm, (scalars_injective ha).symm, (scalars_injective hlibraEvals).symm, hq.symm,
    rfl⟩

/-- Two runs with the same last challenge have the same public inputs and the same proof, the last point apart, unless two
of the words they hash have the same challenge. -/
theorem transcript_binding {proof proof' : ZKProof logN} {publicInputs publicInputs' : List Bytes32}
    {vkHash vkHash' : Bytes32} (h : (generateTranscript keccak proof publicInputs vkHash).shplonkZ =
      (generateTranscript keccak proof' publicInputs' vkHash').shplonkZ) :
    (vkHash = vkHash' ∧ publicInputs = publicInputs' ∧ proof' = { proof with kzgQuotient := proof'.kzgQuotient }) ∨
      Collide (fun words => (nextChallenge keccak words).1) (hashedWords keccak proof publicInputs vkHash)
        (hashedWords keccak proof' publicInputs' vkHash') := by
  rw [shplonkZ_eq, shplonkZ_eq] at h
  have hlen : (messages proof).length = (messages proof').length := by simp [messages]
  have hinj : Function.Injective toBytes32 := fun _ _ => toBytes32_inj.1
  rcases binding (fun a => (splitChallenge a).1) hinj hlen h with ⟨hfirst, hmessages⟩ | hcollide
  · exact .inl (eq_of_messages hfirst hmessages)
  · exact .inr hcollide

/-- No two points and no two evaluations of the proof are alike. -/
def sampleProof (kzgQuotient : G1Point) : ZKProof LOG_N where
  pairingPointObject := Vector.ofFn fun i => wrap (1 + i)
  geminiMaskingPoly := ⟨20, 21⟩
  w1 := ⟨22, 23⟩
  w2 := ⟨24, 25⟩
  w3 := ⟨26, 27⟩
  w4 := ⟨28, 29⟩
  lookupReadCounts := ⟨30, 31⟩
  lookupReadTags := ⟨32, 33⟩
  lookupInverses := ⟨34, 35⟩
  zPerm := ⟨36, 37⟩
  libraCommitments := Vector.ofFn fun i => ⟨38 + BitVec.ofNat 256 i, 42⟩
  libraSum := wrap 43
  sumcheckUnivariates := Vector.ofFn fun i => Vector.ofFn fun j => wrap (100 * i + j + 1000)
  libraEvaluation := wrap 44
  sumcheckEvaluations := Vector.ofFn fun i => wrap (3000 + i)
  geminiFoldComms := Vector.ofFn fun i => ⟨4000 + BitVec.ofNat 256 i, 45⟩
  geminiAEvaluations := Vector.ofFn fun i => wrap (5000 + i)
  libraPolyEvals := Vector.ofFn fun i => wrap (6000 + i)
  shplonkQ := ⟨46, 47⟩
  kzgQuotient := kzgQuotient

/-- The last point is in none of the messages. -/
theorem shplonkZ_sampleProof (p q : G1Point) (publicInputs : List Bytes32) (vkHash : Bytes32) :
    (generateTranscript lastWord (sampleProof p) publicInputs vkHash).shplonkZ =
      (generateTranscript lastWord (sampleProof q) publicInputs vkHash).shplonkZ := by
  rw [shplonkZ_eq, shplonkZ_eq]
  rfl

theorem transcript_binding_sample :
    ((11 : Bytes32) = 11 ∧ [5, 6, 7] = ([5, 6, 7] : List Bytes32) ∧
      sampleProof ⟨3, 4⟩ = { sampleProof ⟨1, 2⟩ with kzgQuotient := (sampleProof ⟨3, 4⟩).kzgQuotient }) ∨
    Collide (fun words => (nextChallenge lastWord words).1) (hashedWords lastWord (sampleProof ⟨1, 2⟩) [5, 6, 7] 11)
      (hashedWords lastWord (sampleProof ⟨3, 4⟩) [5, 6, 7] 11) :=
  transcript_binding (shplonkZ_sampleProof ⟨1, 2⟩ ⟨3, 4⟩ [5, 6, 7] 11)

end

end ZKTranscriptLib
end InfraVeritas
