import InfraVeritas.ChainErrors
import InfraVeritas.Encoders
import InfraVeritas.Worker

/-!
# `SubmissionWorker.process`

A submission job and what `process` computes before it talks to the chain: the payload hash, the P-256
pre-check, the witness and the proof. The libraries it calls are parameters; the circuit tools may answer
differently at every call.
-/

namespace InfraVeritas
open Checks

structure SubmissionJob where
  sessionKey : String
  payload : CanonicalPayload
  signature : Bytes
  pubkey : Bytes
deriving DecidableEq, Repr

/-- The Poseidon permutation, and `p256.verify` on a signature, a digest and a key with its prefix. -/
structure Libraries where
  perm : Poseidon.Permutation
  verify : Bytes → Bytes → Bytes → Except String Bool

structure HonkProof where
  proof : Bytes
  publicInputs : List String

/-- The circuit tools as one job's attempt finds them. -/
structure CircuitTools where
  execute : Prover.WitnessInputs → Except String Bytes
  generateProof : Bytes → Except String HonkProof
  verifyProof : HonkProof → Except String Bool

namespace Prover

def generateWitness (lib : Libraries) (tools : CircuitTools) (payload : CanonicalPayload) (signature pubkey : Bytes) :
    Except String Bytes := do
  let witnessInputs ← prepareWitnessInputs lib.perm payload signature pubkey
  tools.execute witnessInputs

def generateProof (tools : CircuitTools) (witness : Bytes) : Except String HonkProof := do
  let proof ← tools.generateProof witness
  let n := proof.publicInputs.length
  revertIf (n ≠ 9) (s!"Expected 9 external public inputs from bb.js, got {n} " ++
    "(check circuit NUMBER_OF_PUBLIC_INPUTS - PAIRING_POINTS_SIZE = 17 - 8 = 9)")
  return proof

def verifyProofLocally (tools : CircuitTools) (proof : HonkProof) : Except String Bool := tools.verifyProof proof

end Prover

namespace Process
open Prover

/-- `pubkeyWithPrefix`: 65 bytes from 0x04 on. -/
def pubkeyWithPrefix (pubkey : Bytes) : Except String Bytes := do
  revertIf (pubkey.length > 64) "offset is out of bounds"
  return 0x04 :: (pubkey ++ List.replicate (64 - pubkey.length) 0)

def precheck (lib : Libraries) (payloadHash : Bytes) (data : SubmissionJob) : Except String Bool := do
  let key ← pubkeyWithPrefix data.pubkey
  lib.verify data.signature payloadHash key

def invalidSignature : WorkerError :=
  .chain ⟨.InvalidP256Signature, "Pre-check failed: P-256 signature does not verify against payload hash"⟩

/-- `process` up to the chain call: the payload hash and the proof. -/
def prepare (lib : Libraries) (tools : CircuitTools) (data : SubmissionJob) : Except WorkerError (Bytes × HonkProof) := do
  let payloadHash ← (Aggregator.computePayloadHash lib.perm data.payload).mapError .other
  let sigValid ← (precheck lib payloadHash data).mapError .other
  revertIf (¬ sigValid) invalidSignature
  let witness ← (generateWitness lib tools data.payload data.signature data.pubkey).mapError .other
  let proof ← (generateProof tools witness).mapError .other
  let ok ← (verifyProofLocally tools proof).mapError .other
  revertIf (¬ ok)
    (.chain ⟨.InvalidZKProof, "Local proof verification failed (proof rejected before chain submit)"⟩)
  return (payloadHash, proof)

/-- The signature of the job verifies, under its own key, for its own payload. -/
def ValidSignature (lib : Libraries) (data : SubmissionJob) : Prop :=
  ∃ payloadHash, Aggregator.computePayloadHash lib.perm data.payload = .ok payloadHash ∧
    precheck lib payloadHash data = .ok true

/-- A job whose signature does not verify never reaches the chain. -/
theorem validSignature_of_prepare {lib : Libraries} {tools : CircuitTools} {data : SubmissionJob} {payloadHash : Bytes}
    {proof : HonkProof} (h : prepare lib tools data = .ok (payloadHash, proof)) : ValidSignature lib data := by
  simp only [prepare, bind_eq_ok, exists_punit, mapError_eq_ok, revertIf_eq_ok, pure_eq_ok, not_not] at h
  obtain ⟨payloadHash', hp, sigValid, hv, hs, -⟩ := h
  exact ⟨payloadHash', hp, hs ▸ hv⟩

theorem prepare_of_precheck {lib : Libraries} {data : SubmissionJob} {payloadHash : Bytes}
    (hp : Aggregator.computePayloadHash lib.perm data.payload = .ok payloadHash)
    (h : precheck lib payloadHash data = .ok false) (tools : CircuitTools) :
    prepare lib tools data = .error invalidSignature := by
  rw [prepare, hp]
  show ((precheck lib payloadHash data).mapError WorkerError.other >>= fun _ => _) = _
  rw [h]
  rfl

end Process

namespace Chain

/-- The arguments of the contract call; `none` if one of them has no ABI encoding. -/
def submitArgs (payload : CanonicalPayload) (payloadHash signature devicePubkey : Bytes) (proof : HonkProof) :
    Option SubmitArgs := do
  let pubInputs ← pubInputs payload payloadHash
  let payloadHash ← abiBytes32 payloadHash
  return ⟨pubInputs, payloadHash, signature, devicePubkey, proof.proof⟩

theorem submitArgs_holds {payload : CanonicalPayload} {payloadHash signature devicePubkey : Bytes} {proof : HonkProof}
    {a : SubmitArgs} (h : submitArgs payload payloadHash signature devicePubkey proof = some a) :
    Holds payload payloadHash a.pubInputs := by
  simp only [submitArgs, Option.bind_eq_bind, Option.bind_eq_some_iff, Option.pure_def, Option.some.injEq] at h
  obtain ⟨pi, hpi, word, -, rfl⟩ := h
  exact pubInputs_eq_some.1 hpi

end Chain
end InfraVeritas
