import InfraVeritas.Deduplication
import InfraVeritas.Encoders
import InfraVeritas.Rejections

/-!
# The signature statement

A job's signature is checked three times: by the worker's pre-check, by the circuit, and by V3 through
`P256VerifierAdapter`. Each lays the same five words out in its own way (`P256Statement`).
-/

namespace InfraVeritas
open BigEndian Checks

/-! ### `P256VerifierAdapter` -/

/-- The adapter; `verifier` is immutable. -/
structure P256VerifierAdapter where
  verifier : Address
  nonzero : verifier ≠ 0

namespace P256VerifierAdapter

def construct (verifier : Address) : Except String P256VerifierAdapter :=
  if h : verifier ≠ 0 then .ok ⟨verifier, h⟩ else .error "ZeroAddress"

/-- `bytes32(result)`: cut off after 32 bytes, or filled up with zeros. -/
def bytes32OfBytes (bs : Bytes) : Bytes32 := BitVec.ofNat 256 (ofBE ((bs ++ List.replicate 32 0).take 32))

def encodePacked (messageHash r s pubKeyX pubKeyY : Bytes32) : Bytes :=
  wordBytes messageHash ++ wordBytes r ++ wordBytes s ++ wordBytes pubKeyX ++ wordBytes pubKeyY

variable (staticcall : Address → Bytes → Bool × Bytes)

def verify (adapter : P256VerifierAdapter) (messageHash r s pubKeyX pubKeyY : Bytes32) : Bool :=
  let (ok, result) := staticcall adapter.verifier (encodePacked messageHash r s pubKeyX pubKeyY)
  ok && decide (result.length = 32) && decide (bytes32OfBytes result = 1)

variable {staticcall}

end P256VerifierAdapter

/-- What a P-256 check is about: a digest, a signature and a public key. -/
structure P256Statement where
  hash : Bytes32
  r : Bytes32
  s : Bytes32
  x : Bytes32
  y : Bytes32
deriving DecidableEq, Repr

namespace P256Statement

def signature (t : P256Statement) : Bytes := wordBytes t.r ++ wordBytes t.s

def pubkey (t : P256Statement) : Bytes := wordBytes t.x ++ wordBytes t.y

def bytes (t : P256Statement) : Bytes := wordBytes t.hash ++ t.signature ++ t.pubkey

/-- The calldata words of `submitProof`. -/
def ofCalldata (hash : Bytes32) (signature pubkey : Bytes) : P256Statement :=
  ⟨hash, calldataload signature 0, calldataload signature 32, calldataload pubkey 0, calldataload pubkey 32⟩

variable {t : P256Statement} {hash : Bytes32} {signature pubkey : Bytes}

@[simp] theorem length_bytes : t.bytes.length = 160 := by
  simp [bytes, P256Statement.signature, P256Statement.pubkey]

theorem signature_ofCalldata (h : signature.length = 64) : (ofCalldata hash signature pubkey).signature = signature :=
  (eq_words_of_length h).symm

end P256Statement

/-! ### The three checks -/

/-- What the server has made sure of when it enqueues a job. -/
structure WellFormed (data : SubmissionJob) : Prop where
  signature : data.signature.length = 64
  pubkey : data.pubkey.length = 64
  readings : data.payload.readings.length = 100

theorem wellFormed_submissionJob {keccak : Bytes → Bytes32} {req : SubmissionRequest}
    (h : Server.submissionSchema req = true) : WellFormed (Server.submissionJob keccak req) := by
  have hhex := Server.hex128_of_schema h
  exact ⟨Server.length_hexToBytes hhex.1, Server.length_hexToBytes hhex.2, (Server.parsePayload_validated h).encodable.readings⟩

section
variable {perm : Poseidon.Permutation} {data : SubmissionJob}

def jobStatement (perm : Poseidon.Permutation) (data : SubmissionJob) : P256Statement :=
  .ofCalldata (BitVec.ofNat 256 (Poseidon.poseidonSponge perm data.payload.words)) data.signature data.pubkey

theorem wordBytes_hash : wordBytes (jobStatement perm data).hash =
    toBE 32 (Poseidon.poseidonSponge perm data.payload.words) := by
  have hlt : Poseidon.poseidonSponge perm data.payload.words < 256 ^ 32 :=
    Aggregator.lt_pow_of_lt_P (Poseidon.poseidonSponge_lt _)
  refine (wordBytes_eq_toBE hlt).2 ?_
  exact (BitVec.toNat_ofNat ..).trans (Nat.mod_eq_of_lt hlt)

theorem arrays_of_prepareWitnessInputs {w : Prover.WitnessInputs}
    (h : Prover.prepareWitnessInputs perm data.payload data.signature data.pubkey = .ok w) :
    w.signature = data.signature ∧ w.pubkey_x = data.pubkey.take 32 ∧ w.pubkey_y = (data.pubkey.drop 32).take 32 := by
  simp only [Prover.prepareWitnessInputs, bind_eq_ok, exists_punit, pure_eq_ok] at h
  obtain ⟨-, -, -, -, -, -, -, -, -, rfl⟩ := h
  exact ⟨rfl, rfl, rfl⟩

theorem payload_hash_eq (hd : WellFormed data) {w : Prover.WitnessInputs}
    (h : Prover.prepareWitnessInputs perm data.payload data.signature data.pubkey = .ok w) :
    (Circuit.Public.ofList w.publicInputs).payload_hash = ((Poseidon.poseidonSponge perm data.payload.words : Nat) : Field) := by
  obtain ⟨w', hw', hpub, -⟩ := @Encoders.prepareWitnessInputs_spec perm _ _ _ hd.signature hd.pubkey hd.readings
  rw [h, Except.ok.injEq] at hw'
  subst hw'
  rw [hpub]
  exact Int.cast_natCast _

/-- The hash goes from bytes to an integer, to a field element and back to bytes unchanged. -/
theorem toBE_payload_hash (hd : WellFormed data) {w : Prover.WitnessInputs}
    (h : Prover.prepareWitnessInputs perm data.payload data.signature data.pubkey = .ok w) :
    toBE 32 (Circuit.Public.ofList w.publicInputs).payload_hash.val = wordBytes (jobStatement perm data).hash := by
  rw [payload_hash_eq hd h, ZMod.val_natCast_of_lt (Poseidon.poseidonSponge_lt _), wordBytes_hash]

theorem main_iff (hd : WellFormed data) {w : Prover.WitnessInputs}
    (h : Prover.prepareWitnessInputs perm data.payload data.signature data.pubkey = .ok w) {std : Circuit.Std}
    {priv : Circuit.Private} (hs : priv.signature = w.signature) (hx : priv.pubkey_x = w.pubkey_x)
    (hy : priv.pubkey_y = w.pubkey_y) :
    Circuit.main std (.ofList w.publicInputs) priv = .ok () ↔
      std.sponge priv.canonical_payload = (Circuit.Public.ofList w.publicInputs).payload_hash ∧
      priv.canonical_payload.take 7 = (Circuit.Public.ofList w.publicInputs).metadata ∧
      std.verify_signature (wordBytes (jobStatement perm data).x) (wordBytes (jobStatement perm data).y)
        (jobStatement perm data).signature (wordBytes (jobStatement perm data).hash) = true ∧
      Circuit.totalEnergy priv.canonical_payload = (Circuit.Public.ofList w.publicInputs).total_energy_mwh := by
  obtain ⟨hws, hwx, hwy⟩ := arrays_of_prepareWitnessInputs h
  have hpx : wordBytes (jobStatement perm data).x = priv.pubkey_x := by
    rw [hx, hwx]
    exact wordBytes_calldataload (by rw [hd.pubkey]; decide)
  have hpy : wordBytes (jobStatement perm data).y = priv.pubkey_y := by
    rw [hy, hwy]
    exact wordBytes_calldataload (by rw [hd.pubkey])
  have hsig : (jobStatement perm data).signature = priv.signature := by
    rw [hs, hws]
    exact P256Statement.signature_ofCalldata hd.signature
  rw [Circuit.main_eq_ok, hpx, hpy, hsig, ← toBE_payload_hash hd h]
  exact ⟨fun hm => ⟨hm.hash, hm.metadata, hm.signature, hm.energy⟩, fun ⟨h₁, h₂, h₃, h₄⟩ => ⟨h₁, h₂, h₃, h₄⟩⟩

end

end InfraVeritas
