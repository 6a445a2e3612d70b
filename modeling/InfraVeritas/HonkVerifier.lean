import InfraVeritas.Pipeline
import InfraVeritas.Recovery

/-!
# `HonkVerifier`

The control flow of `BaseZKHonkVerifier.verify`: it returns `true` or reverts, and never returns `false`. So V3
never gets to its own `InvalidZKProof` with this verifier: the revert data goes through V3, the client library
does not find its selector in V3's ABI, and `mapChainError` calls the error `UNKNOWN`.
-/

namespace InfraVeritas
open Checks

/-- What `verify` reverts with: an error of the library `Errors`, the selector that a failed modexp leaves, or
nothing at all after another precompile failed. -/
inductive HonkError
  | valueGeLimbMax
  | valueGeGroupOrder
  | valueGeFieldOrder
  | invertOfZero
  | notPowerOfTwo
  | publicInputsLengthWrong
  | sumcheckFailed
  | shpleminiFailed
  | pointAtInfinity
  | consistencyCheckFailed
  | geminiChallengeInSubgroup
  | proofLengthWrongWithLogN (logN actualLength expectedLength : Nat)
  | modexpFailed
  | empty
deriving DecidableEq, Repr

namespace HonkError

/-- The revert data: the selector, and the arguments where there are any. -/
def data : HonkError → Bytes
  | valueGeLimbMax => [0xeb, 0x73, 0xe0, 0xbd]
  | valueGeGroupOrder => [0x60, 0x7b, 0xe1, 0x3e]
  | valueGeFieldOrder => [0x20, 0xa3, 0x35, 0x89]
  | invertOfZero => [0xb2, 0xc9, 0x52, 0xe2]
  | notPowerOfTwo => [0x24, 0xe8, 0xe7, 0x42]
  | publicInputsLengthWrong => [0xfa, 0x06, 0x65, 0x93]
  | sumcheckFailed => [0x9f, 0xc3, 0xa2, 0x18]
  | shpleminiFailed => [0xa5, 0xd8, 0x2e, 0x8a]
  | pointAtInfinity => [0x4d, 0xda, 0xa5, 0xe5]
  | consistencyCheckFailed => [0xa2, 0xa2, 0xac, 0x83]
  | geminiChallengeInSubgroup => [0x83, 0x5e, 0xb8, 0xf7]
  | proofLengthWrongWithLogN logN actualLength expectedLength =>
    [0x59, 0x89, 0x5a, 0x53] ++ BigEndian.toBE 32 logN ++ BigEndian.toBE 32 actualLength ++
      BigEndian.toBE 32 expectedLength
  | modexpFailed => [0xf8, 0xd6, 0x17, 0x09]
  | empty => []

end HonkError

namespace HonkVerifier

def LOG_N : Nat := 18
def NUMBER_OF_PUBLIC_INPUTS : Nat := 17
def PAIRING_POINTS_SIZE : Nat := 8
def NUM_WITNESS_ENTITIES : Nat := 9
def NUM_ELEMENTS_COMM : Nat := 2
def NUM_ELEMENTS_FR : Nat := 1
def NUM_LIBRA_EVALUATIONS : Nat := 4
def ZK_BATCHED_RELATION_PARTIAL_LENGTH : Nat := 9
def NUMBER_OF_ENTITIES_ZK : Nat := 42

def calculateProofSize (logN : Nat) : Nat :=
  (NUM_WITNESS_ENTITIES * NUM_ELEMENTS_COMM + NUM_ELEMENTS_COMM * 3 +
    logN * ZK_BATCHED_RELATION_PARTIAL_LENGTH * NUM_ELEMENTS_FR + NUMBER_OF_ENTITIES_ZK * NUM_ELEMENTS_FR +
    NUM_ELEMENTS_FR * 2 + logN * NUM_ELEMENTS_FR + NUM_LIBRA_EVALUATIONS * NUM_ELEMENTS_FR +
    (logN - 1) * NUM_ELEMENTS_COMM + NUM_ELEMENTS_COMM * 2 + PAIRING_POINTS_SIZE) * 32

/-- The arithmetic of the proof system, as far as `verify` calls it. -/
structure Arithmetic where
  ZKProof : Type
  ZKTranscript : Type
  loadProof : Bytes → Except HonkError ZKProof
  /-- `generateTranscript` without the range check of the public inputs -/
  challenges : ZKProof → List Bytes32 → Except HonkError ZKTranscript
  computePublicInputDelta : List Bytes32 → ZKProof → ZKTranscript → Except HonkError ZKTranscript
  verifySumcheck : ZKProof → ZKTranscript → Except HonkError Bool
  verifyShplemini : ZKProof → ZKTranscript → Except HonkError Bool

variable (ar : Arithmetic)

/-- `generateTranscript`; the first challenge checks that every public input is below the field order. -/
def generateTranscript (p : ar.ZKProof) (publicInputs : List Bytes32) : Except HonkError ar.ZKTranscript := do
  revertIf (∃ w ∈ publicInputs, ¬ w.toNat < P) .valueGeFieldOrder
  ar.challenges p publicInputs

def verify (proof : Bytes) (publicInputs : List Bytes32) : Except HonkError Bool := do
  let expectedProofSize := calculateProofSize LOG_N
  revertIf (proof.length ≠ expectedProofSize) (.proofLengthWrongWithLogN LOG_N proof.length expectedProofSize)
  let p ← ar.loadProof proof
  revertIf (publicInputs.length ≠ NUMBER_OF_PUBLIC_INPUTS - PAIRING_POINTS_SIZE) .publicInputsLengthWrong
  let t ← generateTranscript ar p publicInputs
  let t ← ar.computePublicInputDelta publicInputs p t
  let sumcheck ← ar.verifySumcheck p t
  revertIf (¬ sumcheck) .sumcheckFailed
  let shplemini ← ar.verifyShplemini p t
  revertIf (¬ shplemini) .shpleminiFailed
  return true

def answer : Except HonkError Bool → CallResult
  | .ok b => .returned b
  | .error err => .reverted err.data

variable {ar} {proof : Bytes} {publicInputs : List Bytes32}

theorem eq_error_of_ne_true (h : verify ar proof publicInputs ≠ .ok true) :
    ∃ err, verify ar proof publicInputs = .error err := by
  rcases hv : verify ar proof publicInputs with err | b
  · exact ⟨err, rfl⟩
  · refine absurd ?_ h
    rw [hv]
    unfold verify at hv
    simp only [bind_eq_ok, exists_punit, revertIf_eq_ok, pure_eq_ok] at hv
    obtain ⟨-, p, -, -, t, -, t', -, sumcheck, -, -, shplemini, -, -, rfl⟩ := hv
    rfl

end HonkVerifier

/-! ### The error on its way to the worker -/

/-- The errors of `V3_ABI` with their selectors, and the two that the client library adds. -/
def V3_ABI_ERRORS : List (String × Bytes) :=
  [("AccessControlBadConfirmation", [0x66, 0x97, 0xb2, 0x32]),
    ("AccessControlUnauthorizedAccount", [0xe2, 0x51, 0x7d, 0x3f]),
    ("AddressEmptyCode", [0x99, 0x96, 0xb3, 0x15]), ("DeviceNotActive", [0x2b, 0x38, 0xe2, 0xea]),
    ("ERC1967InvalidImplementation", [0x4c, 0x9c, 0x8c, 0xe3]),
    ("ERC1967NonPayable", [0xb3, 0x98, 0x97, 0x9f]), ("EnforcedPause", [0xd9, 0x3c, 0x06, 0x65]),
    ("EpochInFuture", [0xa7, 0xe7, 0xa3, 0xb2]), ("ExpectedPause", [0x8d, 0xfc, 0x20, 0x2b]),
    ("FailedInnerCall", [0x14, 0x25, 0xea, 0x42]), ("InvalidInitialization", [0xf9, 0x2e, 0xe8, 0xa9]),
    ("InvalidP256Signature", [0x16, 0xa1, 0xbd, 0xef]), ("InvalidPubkeyLength", [0x0a, 0xa7, 0xfd, 0x2c]),
    ("InvalidSignatureLength", [0x2c, 0x33, 0xb5, 0x68]), ("InvalidTimestamp", [0x19, 0x7e, 0x4b, 0x85]),
    ("InvalidZKProof", [0x07, 0x64, 0x90, 0xf6]), ("NotInitializing", [0xd7, 0xe6, 0xbc, 0xf8]),
    ("PayloadHashMismatch", [0x1f, 0xa9, 0xca, 0x93]),
    ("ReentrancyGuardReentrantCall", [0x3e, 0xe5, 0xae, 0xb5]), ("SameAddress", [0x36, 0x75, 0x58, 0xc3]),
    ("SessionKeyAlreadyUsed", [0x7c, 0xea, 0xa1, 0xc8]),
    ("UUPSUnauthorizedCallContext", [0xe0, 0x7c, 0x8d, 0xba]),
    ("UUPSUnsupportedProxiableUUID", [0xaa, 0x1d, 0x49, 0xa4]), ("ZeroAddress", [0xd9, 0x2e, 0x23, 0x3d]),
    ("Error", [0x08, 0xc3, 0x79, 0xa0]), ("Panic", [0x4e, 0x48, 0x7b, 0x71])]

/-- The name under which the client library decodes revert data. -/
def decodeErrorName (data : Bytes) : Option String :=
  (V3_ABI_ERRORS.find? fun item => item.2 = data.take 4).map (·.1)

/-- What `simulateContract` throws for revert data. -/
def revertError (data : Bytes) : JsError := ⟨decodeErrorName data, none, none, none, none, "execution reverted"⟩

/-- None of the verifier's errors is in V3's ABI. -/
theorem decodeErrorName_data (err : HonkError) : decodeErrorName err.data = none := by
  cases err with
  | proofLengthWrongWithLogN logN actualLength expectedLength =>
    have htake : (HonkError.proofLengthWrongWithLogN logN actualLength expectedLength).data.take 4 =
        [0x59, 0x89, 0x5a, 0x53] := rfl
    rw [decodeErrorName, htake]
    decide
  | _ => decide

theorem thrown_bubbled (err : HonkError) : V3Error.thrown (.bubbled err.data) = revertError err.data := by
  rw [revertError, decodeErrorName_data]
  rfl

namespace V3
open HonkVerifier
variable {ar : Arithmetic} {cfg : Config} {env : Env} {s : V3State} {a : SubmitArgs}

def UsesHonkVerifier (ar : Arithmetic) (env : Env) (s : V3State) : Prop :=
  ∀ proof publicInputs, env.oracles.verifyHonk s.honkVerifier proof publicInputs = answer (verify ar proof publicInputs)

/-- The call passes every check before the proof, and the verifier does not accept the proof. -/
structure ProofRejected (ar : Arithmetic) (keccak : Bytes → Bytes32) (env : Env) (s : V3State) (a : SubmitArgs) : Prop where
  state : PassesState keccak env s a
  registry : registryAnswer env s a = .returned true
  p256 : p256Answer env s a = .returned true
  proof : verify ar a.proof (encodePublicInputs a.pubInputs) ≠ .ok true

/-- None of what should follow happens: V3 does not revert with `InvalidZKProof`, the simulation throws an error
that maps to `UNKNOWN`, and the job is put back, or failed after its last attempt. -/
theorem invalid_proof_unreported {q : InMemoryQueue SubmissionJob SubmissionResult} {job : String}
    {r : JobRecord SubmissionJob SubmissionResult} (hv : UsesHonkVerifier ar env s)
    (h : ProofRejected ar cfg.keccak { env with sender := cfg.operatorAddress } s a) (hr : q.get job = some r) :
    submitProof cfg.keccak { env with sender := cfg.operatorAddress } s a ≠ .error .invalidZKProof ∧
    ∃ err, Chain.simulateContract cfg s (some a) (.ok env) = .error err ∧ (mapChainError err).code = .UNKNOWN ∧
      ∃ r', (Worker.handleError q job (.chain (mapChainError err))).get job = some r' ∧
        r'.status = if r.attempts < InMemoryQueue.MAX_ATTEMPTS then .pending else .failed := by
  obtain ⟨err, herr⟩ := eq_error_of_ne_true h.proof
  have hhonk : honkAnswer { env with sender := cfg.operatorAddress } s a = .reverted err.data := by
    rw [honkAnswer, hv, herr]
    rfl
  have hs := submitProof_of_honkReverted h.state h.registry h.p256 hhonk
  have hcode : (mapChainError (revertError err.data)).code = .UNKNOWN := by
    rw [revertError, decodeErrorName_data]
    rfl
  refine ⟨?_, revertError err.data, ?_, hcode, ?_⟩
  · intro hz
    rw [hs] at hz
    cases hz
  · rw [← thrown_bubbled]
    exact Pipeline.simulateContract_error cfg hs
  · have hq : ¬ (WorkerError.chain (mapChainError (revertError err.data))).IsQuarantine := by
      rw [WorkerError.IsQuarantine, hcode]
      decide
    obtain ⟨code, message, he⟩ := @Worker.handleError_of_not_quarantine _ _ q job _ hq
    rw [he]
    split
    · next hlt => exact (InMemoryQueue.get_fail_of_lt code message hr hlt).1
    · next hlt => exact InMemoryQueue.get_fail_of_le code message hr hlt

namespace TestChain
open Pipeline.SampleJobs (config chain)

def acceptAll : Arithmetic :=
  ⟨Unit, Unit, fun _ => .ok (), fun _ _ => .ok (), fun _ _ _ => .ok (), fun _ _ => .ok true, fun _ _ => .ok true⟩

def honkChain : Env :=
  { chainA with
    sender := config.operatorAddress
    oracles := { openOracles with verifyHonk := fun _ proof words => answer (verify acceptAll proof words) } }

def claimed : InMemoryQueue SubmissionJob SubmissionResult :=
  ⟨[⟨"a", Pipeline.SampleJobs.job 1 100, .processing, 1, none, none⟩], []⟩

theorem usesHonkVerifier : UsesHonkVerifier acceptAll honkChain chain := fun _ _ => rfl

theorem proofRejected : ProofRejected acceptAll config.keccak honkChain chain (submission 7 1 100) :=
  ⟨⟨⟨by decide +kernel, by decide +kernel, by decide +kernel⟩, ⟨rfl, rfl⟩, ⟨by decide, by decide⟩, rfl,
    by decide +kernel, .inl (by decide +kernel)⟩, rfl, rfl, nofun⟩

end TestChain

open TestChain Pipeline.SampleJobs in
theorem invalid_proof_unreported_sample :
    submitProof config.keccak honkChain chain (submission 7 1 100) ≠ .error .invalidZKProof ∧
    ∃ err, Chain.simulateContract config chain (some (submission 7 1 100)) (.ok honkChain) = .error err ∧
      (mapChainError err).code = .UNKNOWN ∧
      ∃ r', (Worker.handleError claimed "a" (.chain (mapChainError err))).get "a" = some r' ∧ r'.status = .pending := by
  have hr : claimed.get "a" = some ⟨"a", Pipeline.SampleJobs.job 1 100, .processing, 1, none, none⟩ := rfl
  obtain ⟨hne, err, herr, hcode, r', hr', hstatus⟩ :=
    @invalid_proof_unreported acceptAll config honkChain chain _ _ _ _ usesHonkVerifier proofRejected hr
  exact ⟨hne, err, herr, hcode, r', hr', hstatus⟩

open TestChain Pipeline.SampleJobs in
/-- An empty proof: V3 passes on `ProofLengthWrongWithLogN`, and the job is pending after its first attempt. -/
theorem emptyProof_requeued :
    UsesHonkVerifier acceptAll honkChain chain ∧
    ProofRejected acceptAll config.keccak honkChain chain (submission 7 1 100) ∧
    submitProof config.keccak honkChain chain (submission 7 1 100) ≠ .error .invalidZKProof ∧
    ∃ err, Chain.simulateContract config chain (some (submission 7 1 100)) (.ok honkChain) = .error err ∧
      (mapChainError err).code = .UNKNOWN ∧
      ((Worker.handleError claimed "a" (.chain (mapChainError err))).get "a").map (·.status) = some .pending := by
  have hs : submitProof config.keccak honkChain chain (submission 7 1 100) =
      .error (.bubbled (HonkError.proofLengthWrongWithLogN 18 0 9536).data) :=
    eq_error (by decide +kernel)
  refine ⟨usesHonkVerifier, proofRejected, ?_, ⟨none, none, none, none, none, "execution reverted"⟩, ?_, rfl, rfl⟩
  · intro h
    rw [hs] at h
    cases h
  · exact @Pipeline.simulateContract_error config chain _ honkChain _ hs

end V3

end InfraVeritas
