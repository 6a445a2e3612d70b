import InfraVeritas.HonkPermutation

/-!
# `verify` with its parts

`verify` over the modelled loading, transcript, delta and sumcheck; `verifyShplemini` needs the curve and is left to a
parameter. What it accepts is the one encoding of a well-formed record, with public inputs below the modulus
(`verify_eq_ok_iff`). Behind it V3 takes no submission with a negative coordinate, in any run (`submissions_verified_iff`).
-/

namespace InfraVeritas
open Checks Honk Fr GrandProduct Sumcheck

namespace HonkVerifier

def VK_HASH : Bytes32 := 0x27861674f1aaf5acace3f38f25e4081efe29c487745cc66cd6efd7680ae8004c

/-- `t.relationParameters.publicInputsDelta = …` -/
def withDelta {logN : Nat} (t : ZKTranscript logN) (publicInputsDelta : Fr) : ZKTranscript logN :=
  { t with relationParameters := { t.relationParameters with publicInputsDelta } }

variable (keccak : Bytes → Bytes32) (verifyShplemini : ZKProof LOG_N → ZKTranscript LOG_N → Except HonkError Bool)

/-- With `LOG_N` rounds the code does not panic (`exists_honk_of_load`). -/
def loadRevert : ZKTranscriptLib.LoadError → HonkError
  | .honk err => err
  | .panic _ => .empty

/-- The modelled parts. -/
def arithmetic : Arithmetic where
  ZKProof := ZKProof LOG_N
  ZKTranscript := ZKTranscript LOG_N
  loadProof proof := (ZKTranscriptLib.load proof LOG_N).mapError loadRevert
  challenges p publicInputs := .ok (ZKTranscriptLib.generateTranscript keccak p publicInputs VK_HASH)
  computePublicInputDelta publicInputs p t := do
    return withDelta t (← computePublicInputDelta publicInputs p.pairingPointObject t.relationParameters.beta
      t.relationParameters.gamma 1)
  verifySumcheck := verifySumcheck
  verifyShplemini := verifyShplemini

/-- The checks that a record with the transcript `t` and the delta `d` passes. -/
structure Verified (p : ZKProof LOG_N) (publicInputs : List Bytes32) (t : ZKTranscript LOG_N) (d : Fr) : Prop where
  wellFormed : ZKTranscriptLib.WellFormed p
  length : publicInputs.length = NUMBER_OF_PUBLIC_INPUTS - PAIRING_POINTS_SIZE
  inRange : ∀ w ∈ publicInputs, w.toNat < P
  reduced : d.Reduced
  denominator : fingerprint t.relationParameters.beta.toField t.relationParameters.gamma.toField
    (publicSigmas 1 (publicValues publicInputs p.pairingPointObject)) ≠ 0
  delta : d.toField * fingerprint t.relationParameters.beta.toField t.relationParameters.gamma.toField
      (publicSigmas 1 (publicValues publicInputs p.pairingPointObject)) =
    fingerprint t.relationParameters.beta.toField t.relationParameters.gamma.toField
      (publicCells 1 (publicValues publicInputs p.pairingPointObject))
  offNodes : OffNodes (withDelta t d) (List.finRange LOG_N)
  sumcheck : Accepts 8 (t.libraChallenge.toField * p.libraSum.toField) (rounds p (withDelta t d) (List.finRange LOG_N))
    (grandHonkSum p (withDelta t d))
  shplemini : verifyShplemini p (withDelta t d) = .ok true

variable {keccak verifyShplemini} {proof : Bytes} {publicInputs : List Bytes32}

/-- The proofs that `verify` accepts are the encodings of the records that pass the checks. -/
theorem verify_eq_ok_iff : verify (arithmetic keccak verifyShplemini) proof publicInputs = .ok true ↔
    ∃ p d, ZKTranscriptLib.encode p = proof ∧
      Verified verifyShplemini p publicInputs (ZKTranscriptLib.generateTranscript keccak p publicInputs VK_HASH) d := by
  have hoffset : PERMUTATION_ARGUMENT_VALUE_SEPARATOR + 1 < P := by decide
  unfold verify generateTranscript
  simp only [arithmetic, bind_eq_ok, exists_punit, revertIf_eq_ok, pure_eq_ok, not_not, not_exists, not_and,
    Except.ok.injEq, and_true]
  constructor
  · rintro ⟨hlen, p, hload, hlength, _, ⟨-, rfl⟩, _, ⟨d, hd, rfl⟩, sumcheck, hsumcheck, hs, shplemini, hshplemini, hv⟩
    obtain ⟨hp, hprefix⟩ := ZKTranscriptLib.load_eq_ok.1 (mapError_eq_ok.1 hload)
    obtain ⟨hinputs, hred, hne, hdelta⟩ := (computePublicInputDelta_eq_ok hoffset).1 hd
    rw [hs] at hsumcheck
    rw [hv] at hshplemini
    obtain ⟨hoff, haccepts⟩ := verifySumcheck_eq_ok.1 hsumcheck
    have henc := hprefix.eq_of_length ((ZKTranscriptLib.length_encode hp).trans hlen.symm)
    exact ⟨p, d, henc, hp, hlength, hinputs, hred, hne, hdelta, hoff, haccepts, hshplemini⟩
  · rintro ⟨p, d, rfl, hv⟩
    have hd := (computePublicInputDelta_eq_ok hoffset).2 ⟨hv.inRange, hv.reduced, hv.denominator, hv.delta⟩
    have hload : (ZKTranscriptLib.load (ZKTranscriptLib.encode p) LOG_N).mapError loadRevert = .ok p :=
      mapError_eq_ok.2 (ZKTranscriptLib.load_eq_ok.2 ⟨hv.wellFormed, List.prefix_rfl⟩)
    exact ⟨ZKTranscriptLib.length_encode hv.wellFormed, p, hload, hv.length, _, ⟨hv.inRange, rfl⟩, _, ⟨d, hd, rfl⟩, true,
      verifySumcheck_eq_ok.2 ⟨hv.offNodes, hv.sumcheck⟩, rfl, true, hv.shplemini, rfl⟩

end HonkVerifier

namespace V3
open HonkVerifier

/-- The transaction where the modelled verifier answers, at whatever address V3 asks. -/
def served (ar : Arithmetic) (t : Tx) : Tx :=
  { t with env := { t.env with oracles := { t.env.oracles with
    verifyHonk := fun _ proof publicInputs => answer (verify ar proof publicInputs) } } }

variable {keccak : Bytes → Bytes32} {verifyShplemini : ZKProof LOG_N → ZKTranscript LOG_N → Except HonkError Bool}
  {s : V3State} {t : Tx} {a : SubmitArgs}

/-- The coordinates go in as sign-extended words, so the range check holds off the negative ones. -/
theorem nonneg_of_verified {pi : PublicInputs} {p : ZKProof LOG_N} {tp : ZKTranscript LOG_N} {d : Fr}
    (h : Verified verifyShplemini p (encodePublicInputs pi) tp d) :
    0 ≤ pi.lat_e7.toInt ∧ 0 ≤ pi.lon_e7.toInt ∧ pi.payloadHash.toNat < P := by
  have hlat : (bytes32OfI64 pi.lat_e7).toNat < P := h.inRange _ (by simp [encodePublicInputs])
  have hlon : (bytes32OfI64 pi.lon_e7).toNat < P := h.inRange _ (by simp [encodePublicInputs])
  have hhash : pi.payloadHash.toNat < P := h.inRange _ (by simp [encodePublicInputs])
  exact ⟨Encoders.nonneg_of_word_lt hlat, Encoders.nonneg_of_word_lt hlon, hhash⟩

theorem answer_eq_returned_iff {x : Except HonkError Bool} : answer x = .returned true ↔ x = .ok true := by
  rcases x with e | b
  · simp [answer]
  · simp [answer]

/-- One call over the modelled verifier. -/
theorem accepts_served_iff : Accepts keccak (served (arithmetic keccak verifyShplemini) t).env s a ↔
    PassesState keccak t.env s a ∧ registryAnswer t.env s a = .returned true ∧ p256Answer t.env s a = .returned true ∧
      ∃ p d, ZKTranscriptLib.encode p = a.proof ∧ Verified verifyShplemini p (encodePublicInputs a.pubInputs)
        (ZKTranscriptLib.generateTranscript keccak p (encodePublicInputs a.pubInputs) VK_HASH) d := by
  rw [← verify_eq_ok_iff, ← answer_eq_returned_iff]
  constructor
  · intro h
    exact ⟨⟨⟨h.notPaused, h.notEntered, h.operator⟩, ⟨h.signatureLength, h.pubkeyLength⟩, ⟨h.noOverflow, h.epoch⟩,
      h.payloadHash, h.unused, h.later⟩, h.authorized, h.p256, h.honk⟩
  · rintro ⟨⟨⟨hp, hn, ho⟩, ⟨hs, hk⟩, ⟨ht, he⟩, hh, hu, hl⟩, hr, h256, hhonk⟩
    exact ⟨hp, hn, ho, hs, hk, ht, he, hh, hu, hl, hr, h256, hhonk⟩

/-- Every run over the modelled verifier, from any state and with any callers: its accepted submissions are those that pass
the other checks in the state they meet and come with the encoding of a record that passes the verifier's; none of them has
a negative coordinate. -/
theorem submissions_verified_iff (keccak : Bytes → Bytes32)
    (verifyShplemini : ZKProof LOG_N → ZKTranscript LOG_N → Except HonkError Bool) (s : V3State) (txs : List Tx)
    (pi : PublicInputs) : pi ∈ submissions keccak s (txs.map (served (arithmetic keccak verifyShplemini))) ↔
      ∃ us t vs a, txs = us ++ t :: vs ∧ t.call = .submitProof a ∧ a.pubInputs = pi ∧
        PassesState keccak t.env (Runs.run (exec keccak) s (us.map (served (arithmetic keccak verifyShplemini)))) a ∧
        registryAnswer t.env (Runs.run (exec keccak) s (us.map (served (arithmetic keccak verifyShplemini)))) a =
          .returned true ∧
        p256Answer t.env (Runs.run (exec keccak) s (us.map (served (arithmetic keccak verifyShplemini)))) a =
          .returned true ∧
        (0 ≤ pi.lat_e7.toInt ∧ 0 ≤ pi.lon_e7.toInt ∧ pi.payloadHash.toNat < P) ∧
        ∃ p d, ZKTranscriptLib.encode p = a.proof ∧ Verified verifyShplemini p (encodePublicInputs pi)
          (ZKTranscriptLib.generateTranscript keccak p (encodePublicInputs pi) VK_HASH) d := by
  rw [submissions, List.mem_filterMap]
  constructor
  · rintro ⟨⟨s', t'⟩, hstep, hinputs⟩
    obtain ⟨us', vs', htxs, rfl⟩ := (Runs.mem_steps_iff _).1 hstep
    obtain ⟨us, rest, rfl, rfl, hrest⟩ := List.map_eq_append_iff.1 htxs
    obtain ⟨t, vs, rfl, rfl, rfl⟩ := List.map_eq_cons_iff.1 hrest
    rcases exec_cases (Runs.run (exec keccak) s (us.map (served (arithmetic keccak verifyShplemini))))
      (served (arithmetic keccak verifyShplemini) t) with ⟨a, hc, ha, -, hsome⟩ | ⟨hnone, -⟩
    · obtain rfl := Option.some.inj (hsome.symm.trans hinputs)
      obtain ⟨hpass, hr, h256, p, d, henc, hp⟩ := accepts_served_iff.1 ha
      exact ⟨us, t, vs, a, rfl, hc, rfl, hpass, hr, h256, nonneg_of_verified hp, p, d, henc, hp⟩
    · rw [hnone] at hinputs
      cases hinputs
  · rintro ⟨us, t, vs, a, rfl, hc, rfl, hpass, hr, h256, -, hproof⟩
    have hstep : (Runs.run (exec keccak) s (us.map (served (arithmetic keccak verifyShplemini))),
        served (arithmetic keccak verifyShplemini) t) ∈
          Runs.steps (exec keccak) s ((us ++ t :: vs).map (served (arithmetic keccak verifyShplemini))) :=
      (Runs.mem_steps_iff _).2 ⟨us.map (served (arithmetic keccak verifyShplemini)),
        vs.map (served (arithmetic keccak verifyShplemini)), by rw [List.map_append, List.map_cons], rfl⟩
    exact ⟨_, hstep, acceptedInputs_of_accepts hc (accepts_served_iff.2 ⟨hpass, hr, h256, hproof⟩)⟩

end V3
end InfraVeritas
