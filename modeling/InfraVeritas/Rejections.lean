import InfraVeritas.V3Step

/-!
# Why a submission is rejected

`submitProof` makes its checks in one order and reverts with the error of the first that fails. `Rejects`
lists the errors, each with the checks that were passed before it, and by `rejects_of_error` there are no others.
-/

namespace InfraVeritas
open Checks

namespace V3
variable {keccak : Bytes → Bytes32} {env : Env} {s : V3State} {a : SubmitArgs}

theorem gapCheck_eq_error_iff {prev epoch : U64} {e : V3Error} :
    gapCheck prev epoch = .error e ↔ ¬ (prev = 0 ∨ prev < epoch) ∧ .invalidTimestamp epoch prev = e := by
  unfold gapCheck
  by_cases h0 : prev = 0
  · rw [if_neg (not_not.2 h0)]
    exact ⟨fun h => absurd h pure_ne_error, fun h => absurd (.inl h0) h.1⟩
  · rw [if_pos h0]
    by_cases hlt : prev < epoch
    · have hle : ¬ epoch ≤ prev := BitVec.not_le.2 hlt
      rw [revertIf_of_not hle, ok_bind, checkedSub, if_pos (BitVec.le_of_lt hlt), ok_bind]
      exact ⟨fun h => absurd h pure_ne_error, fun h => absurd (.inr hlt) h.1⟩
    · rw [revertIf_of (BitVec.not_lt.1 hlt)]
      refine ⟨fun h => ⟨fun ho => ho.elim h0 hlt, Except.error.inj h⟩, fun h => congrArg Except.error h.2⟩

/-- The modifiers let the caller in. -/
structure Entered (keccak : Bytes → Bytes32) (env : Env) (s : V3State) : Prop where
  notPaused : s.paused = false
  notEntered : s.reentrancyStatus ≠ ReentrancyGuard.ENTERED
  operator : AccessControl.hasRole s.roles (OPERATOR_ROLE keccak) env.sender = true

structure Sized (a : SubmitArgs) : Prop where
  signature : a.signature.length = 64
  pubkey : a.devicePubkey.length = 64

structure EpochOk (env : Env) (a : SubmitArgs) : Prop where
  noOverflow : env.timestamp.toNat + 300 < 2 ^ 256
  epoch : a.pubInputs.epochStartTs.toNat ≤ env.timestamp.toNat + 300

/-- The checks before the external calls: the modifiers, the lengths, and checks 6, 3, 5 and 7a. -/
structure PassesState (keccak : Bytes → Bytes32) (env : Env) (s : V3State) (a : SubmitArgs) : Prop where
  entered : Entered keccak env s
  sized : Sized a
  epochOk : EpochOk env a
  payloadHash : a.pubInputs.payloadHash = a.payloadHash
  unused : s.usedSessionKeys (sessionKey keccak a.pubInputs.deviceId a.pubInputs.sessionId) = false
  later : s.lastSubmissionTimestamp (bytes32OfU64 a.pubInputs.deviceId) = 0 ∨
    s.lastSubmissionTimestamp (bytes32OfU64 a.pubInputs.deviceId) < a.pubInputs.epochStartTs

/-- The answers of the three contracts to a submission. -/
def registryAnswer (env : Env) (s : V3State) (a : SubmitArgs) : CallResult :=
  env.oracles.isAuthorized s.deviceRegistry a.devicePubkey

def p256Answer (env : Env) (s : V3State) (a : SubmitArgs) : CallResult :=
  env.oracles.verifyP256 s.p256Verifier a.payloadHash (calldataload a.signature 0)
    (calldataload a.signature 32) (calldataload a.devicePubkey 0) (calldataload a.devicePubkey 32)

def honkAnswer (env : Env) (s : V3State) (a : SubmitArgs) : CallResult :=
  env.oracles.verifyHonk s.honkVerifier a.proof (encodePublicInputs a.pubInputs)

/-- A rejection with its error: the first check that fails, after those that pass. -/
inductive Rejects (keccak : Bytes → Bytes32) (env : Env) (s : V3State) (a : SubmitArgs) : V3Error → Prop
  | enforcedPause (h : s.paused = true) : Rejects keccak env s a (.oz .enforcedPause)
  | reentrantCall (hp : s.paused = false) (h : s.reentrancyStatus = ReentrancyGuard.ENTERED) :
      Rejects keccak env s a (.oz .reentrancyGuardReentrantCall)
  | unauthorizedAccount (hp : s.paused = false) (hg : s.reentrancyStatus ≠ ReentrancyGuard.ENTERED)
      (h : AccessControl.hasRole s.roles (OPERATOR_ROLE keccak) env.sender = false) :
      Rejects keccak env s a (.oz (.accessControlUnauthorizedAccount env.sender (OPERATOR_ROLE keccak)))
  | signatureLength (he : Entered keccak env s) (h : a.signature.length ≠ 64) :
      Rejects keccak env s a (.invalidSignatureLength a.signature.length)
  | pubkeyLength (he : Entered keccak env s) (hs : a.signature.length = 64) (h : a.devicePubkey.length ≠ 64) :
      Rejects keccak env s a (.invalidPubkeyLength a.devicePubkey.length)
  | overflow (he : Entered keccak env s) (hl : Sized a) (h : ¬ env.timestamp.toNat + 300 < 2 ^ 256) :
      Rejects keccak env s a (.panic 0x11)
  | epochInFuture (he : Entered keccak env s) (hl : Sized a) (ho : env.timestamp.toNat + 300 < 2 ^ 256)
      (h : env.timestamp.toNat + 300 < a.pubInputs.epochStartTs.toNat) :
      Rejects keccak env s a (.epochInFuture a.pubInputs.epochStartTs (env.timestamp.setWidth 64))
  | payloadHash (he : Entered keccak env s) (hl : Sized a) (ht : EpochOk env a)
      (h : a.pubInputs.payloadHash ≠ a.payloadHash) :
      Rejects keccak env s a (.payloadHashMismatch a.payloadHash a.pubInputs.payloadHash)
  | sessionKeyUsed (he : Entered keccak env s) (hl : Sized a) (ht : EpochOk env a)
      (hh : a.pubInputs.payloadHash = a.payloadHash)
      (h : s.usedSessionKeys (sessionKey keccak a.pubInputs.deviceId a.pubInputs.sessionId) = true) :
      Rejects keccak env s a (.sessionKeyAlreadyUsed (sessionKey keccak a.pubInputs.deviceId a.pubInputs.sessionId))
  | invalidTimestamp (he : Entered keccak env s) (hl : Sized a) (ht : EpochOk env a)
      (hh : a.pubInputs.payloadHash = a.payloadHash)
      (hu : s.usedSessionKeys (sessionKey keccak a.pubInputs.deviceId a.pubInputs.sessionId) = false)
      (h : ¬ (s.lastSubmissionTimestamp (bytes32OfU64 a.pubInputs.deviceId) = 0 ∨
        s.lastSubmissionTimestamp (bytes32OfU64 a.pubInputs.deviceId) < a.pubInputs.epochStartTs)) :
      Rejects keccak env s a (.invalidTimestamp a.pubInputs.epochStartTs
        (s.lastSubmissionTimestamp (bytes32OfU64 a.pubInputs.deviceId)))
  | registryReverted {data : Bytes} (hc : PassesState keccak env s a) (h : registryAnswer env s a = .reverted data) :
      Rejects keccak env s a (.bubbled data)
  | deviceNotActive (hc : PassesState keccak env s a) (h : registryAnswer env s a = .returned false) :
      Rejects keccak env s a (.deviceNotActive (bytes32OfU64 a.pubInputs.deviceId))
  | p256Reverted {data : Bytes} (hc : PassesState keccak env s a) (hr : registryAnswer env s a = .returned true)
      (h : p256Answer env s a = .reverted data) : Rejects keccak env s a (.bubbled data)
  | invalidSignature (hc : PassesState keccak env s a) (hr : registryAnswer env s a = .returned true)
      (h : p256Answer env s a = .returned false) : Rejects keccak env s a .invalidP256Signature
  | honkReverted {data : Bytes} (hc : PassesState keccak env s a) (hr : registryAnswer env s a = .returned true)
      (hp : p256Answer env s a = .returned true) (h : honkAnswer env s a = .reverted data) :
      Rejects keccak env s a (.bubbled data)
  | invalidProof (hc : PassesState keccak env s a) (hr : registryAnswer env s a = .returned true)
      (hp : p256Answer env s a = .returned true) (h : honkAnswer env s a = .returned false) :
      Rejects keccak env s a .invalidZKProof

theorem callBool_eq_error {ε : Type} {bubble : Bytes → ε} {c : CallResult} {e : ε} :
    callBool bubble c = .error e ↔ ∃ data, c = .reverted data ∧ bubble data = e := by
  cases c <;> simp [callBool]

theorem checkedAdd_eq_error {ε : Type} {w : Nat} {panic : Nat → ε} {x y : BitVec w} {e : ε} :
    checkedAdd panic x y = .error e ↔ ¬ x.toNat + y.toNat < 2 ^ w ∧ panic 0x11 = e := by
  unfold checkedAdd; split <;> rename_i h <;> simp [h]

theorem rejects_of_calls {e : V3Error} (hc : PassesState keccak env s a)
    (h : (∃ data, registryAnswer env s a = .reverted data ∧ V3Error.bubbled data = e) ∨
      ∃ active, registryAnswer env s a = .returned active ∧
        (active = false ∧ .deviceNotActive (bytes32OfU64 a.pubInputs.deviceId) = e ∨ active = true ∧
          ((∃ data, p256Answer env s a = .reverted data ∧ .bubbled data = e) ∨
            ∃ valid, p256Answer env s a = .returned valid ∧
              (valid = false ∧ .invalidP256Signature = e ∨ valid = true ∧
                ((∃ data, honkAnswer env s a = .reverted data ∧ .bubbled data = e) ∨
                  ∃ proved, honkAnswer env s a = .returned proved ∧
                    (proved = false ∧ .invalidZKProof = e ∨ proved = true ∧ False)))))) :
    Rejects keccak env s a e := by
  rcases h with ⟨data, hr, rfl⟩ | ⟨active, hr, ⟨rfl, rfl⟩ | ⟨rfl, h⟩⟩
  · exact .registryReverted hc hr
  · exact .deviceNotActive hc hr
  rcases h with ⟨data, hp, rfl⟩ | ⟨valid, hp, ⟨rfl, rfl⟩ | ⟨rfl, h⟩⟩
  · exact .p256Reverted hc hr hp
  · exact .invalidSignature hc hr hp
  rcases h with ⟨data, hh, rfl⟩ | ⟨proved, hh, ⟨rfl, rfl⟩ | ⟨-, hf⟩⟩
  · exact .honkReverted hc hr hp hh
  · exact .invalidProof hc hr hp hh
  · exact hf.elim

theorem rejects_of_error {e : V3Error} (h : submitProof keccak env s a = .error e) : Rejects keccak env s a e := by
  have hd : (bytes32OfU64 MAX_EPOCH_FUTURE_DRIFT).toNat = 300 := rfl
  unfold submitProof ReentrancyGuard.nonReentrantBefore Pausable.requireNotPaused AccessControl.checkRole at h
  simp only [bind_eq_error, bind_eq_ok, exists_punit, mapError_eq_ok, mapError_eq_error, revertIf_eq_ok,
    revertIf_eq_error, pure_eq_ok, pure_ne_error, checkedAdd_eq_ok, checkedAdd_eq_error, callBool_eq_ok,
    callBool_eq_error, gapCheck_eq_ok_iff, gapCheck_eq_error_iff, ne_eq, not_not, Bool.not_eq_true,
    Bool.not_eq_false, hd] at h
  rcases h with ⟨_, ⟨hp, rfl⟩, rfl⟩ | ⟨hp, h⟩
  · exact .enforcedPause hp
  rcases h with ⟨_, ⟨hg, rfl⟩ | ⟨-, hf⟩, rfl⟩ | ⟨_, ⟨hg, rfl⟩, h⟩
  · exact .reentrantCall hp hg
  · exact hf.elim
  rcases h with ⟨_, ⟨ho, rfl⟩, rfl⟩ | ⟨ho, h⟩
  · exact .unauthorizedAccount hp hg ho
  have he : Entered keccak env s := ⟨hp, hg, ho⟩
  rcases h with ⟨hs, rfl⟩ | ⟨hs, ⟨hk, rfl⟩ | ⟨hk, h⟩⟩
  · exact .signatureLength he hs
  · exact .pubkeyLength he hs hk
  have hl : Sized a := ⟨hs, hk⟩
  rcases h with ⟨hov, rfl⟩ | ⟨latest, hlatest, ⟨hlt, rfl⟩ | ⟨hle, h⟩⟩
  · exact .overflow he hl hov
  · refine .epochInFuture he hl hlatest.1 ?_
    by_contra hn
    obtain ⟨latest', hlatest', hle⟩ := drift_ok_iff.2 ⟨hlatest.1, Nat.not_lt.1 hn⟩
    rw [hlatest'.2, ← hlatest.2] at hle
    exact hle hlt
  obtain ⟨hov, hepoch⟩ := drift_ok_iff.1 ⟨latest, hlatest, hle⟩
  have ht : EpochOk env a := ⟨hov, hepoch⟩
  rcases h with ⟨hh, rfl⟩ | ⟨hh, ⟨hu, rfl⟩ | ⟨hu, h⟩⟩
  · exact .payloadHash he hl ht hh
  · exact .sessionKeyUsed he hl ht hh hu
  rcases h with ⟨hlater, rfl⟩ | ⟨_, ⟨hlater, -⟩, h⟩
  · exact .invalidTimestamp he hl ht hh hu hlater
  · exact rejects_of_calls ⟨he, hl, ht, hh, hu, hlater⟩ h

/-- A revert of the proof verifier reaches the caller when nothing else stops the call. -/
theorem submitProof_of_honkReverted {data : Bytes} (hc : PassesState keccak env s a)
    (hr : registryAnswer env s a = .returned true) (hp : p256Answer env s a = .returned true)
    (hh : honkAnswer env s a = .reverted data) : submitProof keccak env s a = .error (.bubbled data) := by
  obtain ⟨latest, hlatest, hle⟩ := drift_ok_iff.2 ⟨hc.epochOk.noOverflow, hc.epochOk.epoch⟩
  unfold submitProof ReentrancyGuard.nonReentrantBefore Pausable.requireNotPaused AccessControl.checkRole
  simp only [bind_eq_error, bind_eq_ok, exists_punit, mapError_eq_ok, mapError_eq_error, revertIf_eq_ok,
    revertIf_eq_error, pure_eq_ok, pure_ne_error, checkedAdd_eq_ok, checkedAdd_eq_error, callBool_eq_ok,
    callBool_eq_error, gapCheck_eq_ok_iff, gapCheck_eq_error_iff, ne_eq, not_not, Bool.not_eq_true,
    Bool.not_eq_false]
  refine .inr ⟨hc.entered.notPaused, .inr ⟨_, ⟨hc.entered.notEntered, rfl⟩, .inr ⟨hc.entered.operator, ?_⟩⟩⟩
  refine .inr ⟨hc.sized.signature, .inr ⟨hc.sized.pubkey, .inr ⟨latest, hlatest, .inr ⟨hle, ?_⟩⟩⟩⟩
  refine .inr ⟨hc.payloadHash, .inr ⟨hc.unused, .inr ⟨_, ⟨hc.later, rfl⟩, ?_⟩⟩⟩
  exact .inr ⟨true, hr, .inr ⟨rfl, .inr ⟨true, hp, .inr ⟨rfl, .inl ⟨data, hh, rfl⟩⟩⟩⟩⟩

end V3
end InfraVeritas
