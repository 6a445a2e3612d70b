import InfraVeritas.Rejections
import InfraVeritas.V3Log

/-!
# What `submitProof` accepts

Its checks in order, each with the error it reverts with, and what an accepted submission writes.
`submitProof_guarded` matches the function with the list; success, the first failing check and the frame follow
from it. Besides the checks it documents there are two more: the reentrancy guard and the checked addition.
-/

namespace InfraVeritas
open Checks

namespace V3
variable {keccak : Bytes → Bytes32} {env : Env} {s s' : V3State} {a : SubmitArgs} {active valid proved : Bool}

/-- The checks, given the answers of the registry and the two verifiers. -/
def submissionChecks (keccak : Bytes → Bytes32) (env : Env) (s : V3State) (a : SubmitArgs) (active valid proved : Bool) :
    List (Bool × V3Error) :=
  let pi := a.pubInputs
  let key := sessionKey keccak pi.deviceId pi.sessionId
  let previous := s.lastSubmissionTimestamp (bytes32OfU64 pi.deviceId)
  [(!s.paused, .oz .enforcedPause),
    (decide (s.reentrancyStatus ≠ ReentrancyGuard.ENTERED), .oz .reentrancyGuardReentrantCall),
    (AccessControl.hasRole s.roles (OPERATOR_ROLE keccak) env.sender,
      .oz (.accessControlUnauthorizedAccount env.sender (OPERATOR_ROLE keccak))),
    (decide (a.signature.length = 64), .invalidSignatureLength a.signature.length),
    (decide (a.devicePubkey.length = 64), .invalidPubkeyLength a.devicePubkey.length),
    (decide (env.timestamp.toNat + 300 < 2 ^ 256), .panic 0x11),
    (decide (pi.epochStartTs.toNat ≤ env.timestamp.toNat + 300),
      .epochInFuture pi.epochStartTs (env.timestamp.setWidth 64)),
    (decide (pi.payloadHash = a.payloadHash), .payloadHashMismatch a.payloadHash pi.payloadHash),
    (!s.usedSessionKeys key, .sessionKeyAlreadyUsed key),
    (decide (previous = 0 ∨ previous < pi.epochStartTs), .invalidTimestamp pi.epochStartTs previous),
    (active, .deviceNotActive (bytes32OfU64 pi.deviceId)),
    (valid, .invalidP256Signature),
    (proved, .invalidZKProof)]

theorem gapCheck_eq (prev epoch : U64) : gapCheck prev epoch =
    (revertIf (¬ (prev = 0 ∨ prev < epoch)) (.invalidTimestamp epoch prev) >>= fun _ =>
      .ok (gapOf prev epoch, decide (gapOf prev epoch > MAX_GAP_SECONDS))) := by
  by_cases h : prev = 0 ∨ prev < epoch
  · rw [revertIf_of_not (not_not.2 h)]
    exact gapCheck_eq_ok_iff.2 ⟨h, rfl⟩
  · rw [revertIf_of h]
    exact gapCheck_eq_error_iff.2 ⟨h, rfl⟩

theorem mapError_revertIf {ε ε' : Type} (g : ε → ε') (c : Prop) [Decidable c] (e : ε) :
    (revertIf c e).mapError g = revertIf c (g e) := by
  by_cases h : c
  · rw [revertIf_of h, revertIf_of h, mapError_error]
  · rw [revertIf_of_not h, revertIf_of_not h, mapError_ok]

theorem nonReentrantBefore_eq (status : Nat) :
    (ReentrancyGuard.nonReentrantBefore status).mapError V3Error.oz =
      (revertIf (status = ReentrancyGuard.ENTERED) (.oz .reentrancyGuardReentrantCall) >>= fun _ =>
        .ok ReentrancyGuard.ENTERED) := by
  unfold ReentrancyGuard.nonReentrantBefore
  by_cases h : status = ReentrancyGuard.ENTERED
  · rw [revertIf_of h, revertIf_of h]
    rfl
  · rw [revertIf_of_not h, revertIf_of_not h]
    rfl

theorem checkedAdd_eq {ε : Type} {w : Nat} (panic : Nat → ε) (x y : BitVec w) :
    checkedAdd panic x y = (revertIf (¬ x.toNat + y.toNat < 2 ^ w) (panic 0x11) >>= fun _ => .ok (x + y)) := by
  unfold checkedAdd
  split
  · next h => rw [revertIf_of_not (not_not.2 h), ok_bind]
  · next h =>
    rw [revertIf_of h]
    rfl

theorem callBool_returned {ε : Type} (bubble : Bytes → ε) (b : Bool) : callBool bubble (.returned b) = .ok b := rfl

/-- Up to the numbers of the drift check, each guard of the function is an entry of the list. -/
theorem submitProof_guarded (hr : registryAnswer env s a = .returned active) (hp : p256Answer env s a = .returned valid)
    (hh : honkAnswer env s a = .returned proved) :
    Guarded (accepted keccak s a.pubInputs) (submissionChecks keccak env s a active valid proved)
      (submitProof keccak env s a) := by
  have hd : (bytes32OfU64 MAX_EPOCH_FUTURE_DRIFT).toNat = 300 := rfl
  unfold registryAnswer at hr
  unfold p256Answer at hp
  unfold honkAnswer at hh
  unfold submitProof Pausable.requireNotPaused AccessControl.checkRole
  simp only [mapError_revertIf, nonReentrantBefore_eq, checkedAdd_eq, gapCheck_eq, callBool_returned, hr, hp, hh,
    bind_assoc, ok_bind, hd]
  refine .cons (by simp) fun _ => ?_
  refine .cons (by simp) fun _ => ?_
  refine .cons (by simp) fun _ => ?_
  refine .cons (by simp [P256_SIGNATURE_LENGTH]) fun _ => ?_
  refine .cons (by simp [P256_PUBKEY_LENGTH]) fun _ => ?_
  refine .cons (decide_eq_true_iff.trans not_not.symm) ?_
  intro hov
  have hsum : (env.timestamp + bytes32OfU64 MAX_EPOCH_FUTURE_DRIFT).toNat = env.timestamp.toNat + 300 :=
    toNat_add_of_lt (not_not.1 hov)
  refine .cons (by simp [BitVec.lt_def, hsum]) fun _ => ?_
  refine .cons (by simp) fun _ => ?_
  refine .cons (by simp) fun _ => ?_
  refine .cons (decide_eq_true_iff.trans not_not.symm) fun _ => ?_
  refine .cons (by simp) fun _ => ?_
  refine .cons (by simp) fun _ => ?_
  refine .cons (by simp) fun _ => ?_
  exact .nil _

/-! ### What is written -/

/-- Two mappings at one key each and the guard's slot, and one event. -/
structure Writes (keccak : Bytes → Bytes32) (s s' : V3State) (pi : PublicInputs) : Prop where
  used : s.usedSessionKeys (sessionKey keccak pi.deviceId pi.sessionId) = false ∧
    s'.usedSessionKeys (sessionKey keccak pi.deviceId pi.sessionId) = true
  otherKeys : ∀ k, k ≠ sessionKey keccak pi.deviceId pi.sessionId → s'.usedSessionKeys k = s.usedSessionKeys k
  last : s'.lastSubmissionTimestamp (bytes32OfU64 pi.deviceId) = pi.epochStartTs
  lastChanged : pi.epochStartTs ≠ 0 → s.lastSubmissionTimestamp (bytes32OfU64 pi.deviceId) ≠ pi.epochStartTs
  otherDevices : ∀ d, d ≠ bytes32OfU64 pi.deviceId → s'.lastSubmissionTimestamp d = s.lastSubmissionTimestamp d
  guard : s'.reentrancyStatus = ReentrancyGuard.NOT_ENTERED
  log : s'.log = s.log ++ [.proofSubmitted (eventOf keccak s pi)]
  rest : { s' with
    usedSessionKeys := s.usedSessionKeys
    lastSubmissionTimestamp := s.lastSubmissionTimestamp
    reentrancyStatus := s.reentrancyStatus
    log := s.log } = s

theorem Accepts.writes (h : Accepts keccak env s a) : Writes keccak s (accepted keccak s a.pubInputs) a.pubInputs where
  used := ⟨h.unused, by simp [accepted]⟩
  otherKeys := fun k hk => by simp [accepted, Function.update_of_ne hk]
  last := by simp [accepted]
  lastChanged := fun hne heq => by
    rcases h.later with hzero | hlt
    · exact hne (heq.symm.trans hzero)
    · rw [heq] at hlt
      exact BitVec.lt_irrefl _ hlt
  otherDevices := fun d hd => by simp [accepted, Function.update_of_ne hd]
  guard := rfl
  log := rfl
  rest := rfl

theorem submitProof_spec (hr : registryAnswer env s a = .returned active) (hp : p256Answer env s a = .returned valid)
    (hh : honkAnswer env s a = .returned proved) :
    (∀ s', submitProof keccak env s a = .ok s' ↔
      (∀ c ∈ submissionChecks keccak env s a active valid proved, c.1 = true) ∧ s' = accepted keccak s a.pubInputs) ∧
    (∀ e, submitProof keccak env s a = .error e ↔ ∃ before after,
      submissionChecks keccak env s a active valid proved = before ++ (false, e) :: after ∧ ∀ c ∈ before, c.1 = true) ∧
    (∀ e, submitProof keccak env s a = .error e → exec keccak s ⟨env, .submitProof a⟩ = s) ∧
    (∀ s', submitProof keccak env s a = .ok s' → Writes keccak s s' a.pubInputs) := by
  have h := @submitProof_guarded keccak env s a active valid proved hr hp hh
  refine ⟨fun s' => h.eq_ok_iff, fun e => h.eq_error_iff, ?_, ?_⟩
  · intro e he
    exact exec_of_error (t := ⟨env, .submitProof a⟩) he
  · intro s' hs
    obtain ⟨ha, rfl⟩ := submitProof_eq_ok_iff.1 hs
    exact ha.writes

namespace TestChain

/-- Account 1 deployed the proxy and made itself operator. -/
def operated : V3State := exec packKeccak (deployed chainA) (grantOperator chainA)

/-- Device 7 has submitted session 1 at epoch 100. -/
def submitted : V3State := accepted packKeccak operated (submission 7 1 100).pubInputs

/-- Inside a guarded call. -/
def entered : V3State := { operated with reentrancyStatus := ReentrancyGuard.ENTERED }

/-- The last block with a time. -/
def lastBlock : Env := { chainA with timestamp := BitVec.ofNat 256 (2 ^ 256 - 1) }

theorem open_guarded {env : Env} (h : env.oracles = openOracles) (s : V3State) (a : SubmitArgs) :
    Guarded (accepted packKeccak s a.pubInputs) (submissionChecks packKeccak env s a true true true)
      (submitProof packKeccak env s a) := by
  refine submitProof_guarded ?_ ?_ ?_
  · rw [registryAnswer, h, openOracles]
  · rw [p256Answer, h, openOracles]
  · rw [honkAnswer, h, openOracles]

end TestChain

open TestChain in
/-- The session is used and the epoch is earlier: the session is checked first. -/
theorem submitProof_spec_sample :
    registryAnswer chainA submitted (submission 7 1 50) = .returned true ∧
    p256Answer chainA submitted (submission 7 1 50) = .returned true ∧
    honkAnswer chainA submitted (submission 7 1 50) = .returned true ∧
    ((submissionChecks packKeccak chainA submitted (submission 7 1 50) true true true).filter (!·.1)).length = 2 ∧
    submitProof packKeccak chainA submitted (submission 7 1 50) =
      .error (.sessionKeyAlreadyUsed (sessionKey packKeccak 7 1)) := by
  have hr : registryAnswer chainA submitted (submission 7 1 50) = .returned true := rfl
  obtain ⟨-, herror, -⟩ := @submitProof_spec packKeccak _ _ _ _ _ _ hr rfl rfl
  refine ⟨rfl, rfl, rfl, by decide +kernel, (herror _).2 ?_⟩
  refine ⟨(submissionChecks packKeccak chainA submitted (submission 7 1 50) true true true).take 8,
    (submissionChecks packKeccak chainA submitted (submission 7 1 50) true true true).drop 9, ?_, ?_⟩
  · decide +kernel
  · decide +kernel

open TestChain in
/-- Each of the two further checks can be the only one to fail, and a first epoch 0 leaves its slot at 0. -/
theorem submitProof_spec_fails :
    (submissionChecks packKeccak chainA entered (submission 7 1 100) true true true).filter (!·.1) =
      [(false, .oz .reentrancyGuardReentrantCall)] ∧
    submitProof packKeccak chainA entered (submission 7 1 100) = .error (.oz .reentrancyGuardReentrantCall) ∧
    (submissionChecks packKeccak lastBlock operated (submission 7 1 100) true true true).filter (!·.1) =
      [(false, .panic 0x11)] ∧
    submitProof packKeccak lastBlock operated (submission 7 1 100) = .error (.panic 0x11) ∧
    ∃ s', submitProof packKeccak chainA operated (submission 7 1 0) = .ok s' ∧
      ∀ d, s'.lastSubmissionTimestamp d = operated.lastSubmissionTimestamp d := by
  have hfirst : operated.lastSubmissionTimestamp (bytes32OfU64 7) = 0 := by decide +kernel
  have hentered := @open_guarded chainA rfl entered (submission 7 1 100)
  have hlast := @open_guarded lastBlock rfl operated (submission 7 1 100)
  have hzero := @open_guarded chainA rfl operated (submission 7 1 0)
  refine ⟨by decide +kernel, hentered.error (by decide +kernel), by decide +kernel, hlast.error (by decide +kernel),
    _, hzero.eq_ok_iff.2 ⟨by decide +kernel, rfl⟩, fun d => ?_⟩
  show Function.update operated.lastSubmissionTimestamp (bytes32OfU64 7) 0 d = operated.lastSubmissionTimestamp d
  rw [← hfirst, Function.update_eq_self]

end V3
end InfraVeritas
