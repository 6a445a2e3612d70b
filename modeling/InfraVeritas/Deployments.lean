import InfraVeritas.V3Log

/-!
# One submission and several deployments

The digest handed to the P-256 verifier is the payload hash itself, so neither the chain id nor the
proxy address takes part in a check (`Accepts.transfer`). What stops a replay is the used session key
of the one proxy (`rejected_after_accepted`); another proxy whose contracts answer alike gets to a
state that accepts the same arguments (`accepted_elsewhere`).
-/

namespace InfraVeritas
open Checks

namespace V3
variable {keccak : Bytes → Bytes32} {env env' : Env} {s s' : V3State} {a : SubmitArgs}

/-- The contracts of `s'` in `env'` answer every query as those of `s` in `env`. -/
structure SameAnswers (env : Env) (s : V3State) (env' : Env) (s' : V3State) : Prop where
  registry : env'.oracles.isAuthorized s'.deviceRegistry = env.oracles.isAuthorized s.deviceRegistry
  p256 : env'.oracles.verifyP256 s'.p256Verifier = env.oracles.verifyP256 s.p256Verifier
  honk : env'.oracles.verifyHonk s'.honkVerifier = env.oracles.verifyHonk s.honkVerifier

/-- A proxy that can take submissions from `sender` and has none of device `d` and none under key `k`. -/
structure Ready (keccak : Bytes → Bytes32) (sender : Address) (d k : Bytes32) (s : V3State) : Prop where
  notPaused : s.paused = false
  notEntered : s.reentrancyStatus ≠ ReentrancyGuard.ENTERED
  operator : AccessControl.hasRole s.roles (OPERATOR_ROLE keccak) sender = true
  unused : s.usedSessionKeys k = false
  last : s.lastSubmissionTimestamp d = 0

/-- Acceptance elsewhere: `env.self` and `env.chainid` are free. -/
theorem Accepts.transfer (h : Accepts keccak env s a) (hsame : SameAnswers env s env' s')
    (htime : env'.timestamp = env.timestamp)
    (hready : Ready keccak env'.sender (bytes32OfU64 a.pubInputs.deviceId)
      (sessionKey keccak a.pubInputs.deviceId a.pubInputs.sessionId) s') : Accepts keccak env' s' a where
  notPaused := hready.notPaused
  notEntered := hready.notEntered
  operator := hready.operator
  signatureLength := h.signatureLength
  pubkeyLength := h.pubkeyLength
  noOverflow := htime ▸ h.noOverflow
  epoch := htime ▸ h.epoch
  payloadHash := h.payloadHash
  unused := hready.unused
  later := .inl hready.last
  authorized := by rw [hsame.registry]; exact h.authorized
  p256 := by rw [hsame.p256]; exact h.p256
  honk := by rw [hsame.honk]; exact h.honk

theorem used_exec {k : Bytes32} (h : s.usedSessionKeys k = true) (t : Tx) :
    (exec keccak s t).usedSessionKeys k = true := by
  rcases @exec_cases keccak s t with ⟨a, -, -, he, -⟩ | ⟨-, he⟩
  · rw [he]
    show Function.update s.usedSessionKeys _ true k = true
    by_cases hk : k = sessionKey keccak a.pubInputs.deviceId a.pubInputs.sessionId
    · rw [hk, Function.update_self]
    · rw [Function.update_of_ne hk, h]
  · rw [he.used, h]

theorem used_run {k : Bytes32} (h : s.usedSessionKeys k = true) (txs : List Tx) :
    (Runs.run (exec keccak) s txs).usedSessionKeys k = true :=
  Runs.run_inv (I := fun s : V3State => s.usedSessionKeys k = true) h (fun _ t hs => used_exec hs t) txs

theorem rejected_of_used
    (h : s.usedSessionKeys (sessionKey keccak a.pubInputs.deviceId a.pubInputs.sessionId) = true) :
    ∃ e, submitProof keccak env s a = .error e := by
  refine rejected_iff.2 ?_
  intro ha
  have hu := ha.unused
  rw [h] at hu
  cases hu

/-- Once accepted, the same arguments are rejected in every later state of the proxy. -/
theorem rejected_after_accepted (h : submitProof keccak env s a = .ok s') (txs : List Tx) (env' : Env) :
    ∃ e, submitProof keccak env' (Runs.run (exec keccak) s' txs) a = .error e := by
  obtain ⟨-, rfl⟩ := submitProof_eq_ok_iff.1 h
  have hu : (accepted keccak s a.pubInputs).usedSessionKeys
      (sessionKey keccak a.pubInputs.deviceId a.pubInputs.sessionId) = true := Function.update_self ..
  exact rejected_of_used (used_run hu txs)

/-! ### A second deployment -/

theorem contracts_grant (keccak : Bytes → Bytes32) (s : V3State) (env : Env) (role : Bytes32) (account : Address) :
    (exec keccak s ⟨env, .grantRole role account⟩).deviceRegistry = s.deviceRegistry ∧
      (exec keccak s ⟨env, .grantRole role account⟩).p256Verifier = s.p256Verifier ∧
      (exec keccak s ⟨env, .grantRole role account⟩).honkVerifier = s.honkVerifier := by
  unfold exec
  split
  · next s' h =>
    obtain ⟨roles, es, -, rfl⟩ := setRoles_eq_ok_iff.1 h
    exact ⟨rfl, rfl, rfl⟩
  · exact ⟨rfl, rfl, rfl⟩

section Deploy
variable {admin registry p256 honk : Address}

theorem initializeProxy_spec (h : initializeProxy keccak env fresh admin registry p256 honk = .ok s) :
    s.deviceRegistry = registry ∧ s.p256Verifier = p256 ∧ s.honkVerifier = honk ∧ s.paused = false ∧
      s.reentrancyStatus = ReentrancyGuard.NOT_ENTERED ∧
      AccessControl.hasRole s.roles AccessControl.DEFAULT_ADMIN_ROLE admin = true ∧
      ∀ role, AccessControl.getRoleAdmin s.roles role = AccessControl.DEFAULT_ADMIN_ROLE := by
  obtain ⟨-, -, rfl⟩ := initializeProxy_eq_ok_iff.1 h
  refine ⟨rfl, rfl, rfl, rfl, rfl, ?_, ?_⟩
  · show AccessControl.hasRole (AccessControl.grantRoleInternal (AccessControl.grantRoleInternal
      AccessControl.empty AccessControl.DEFAULT_ADMIN_ROLE admin env.sender).1 (UPGRADER_ROLE keccak)
      admin env.sender).1 AccessControl.DEFAULT_ADMIN_ROLE admin = true
    rw [AccessControl.hasRole_grantRoleInternal, AccessControl.hasRole_grantRoleInternal]
    simp
  · intro role
    show AccessControl.getRoleAdmin (AccessControl.grantRoleInternal (AccessControl.grantRoleInternal
      AccessControl.empty AccessControl.DEFAULT_ADMIN_ROLE admin env.sender).1 (UPGRADER_ROLE keccak)
      admin env.sender).1 role = _
    rw [AccessControl.getRoleAdmin_grantRoleInternal, AccessControl.getRoleAdmin_grantRoleInternal]
    rfl

theorem ready_after_grant (h : initializeProxy keccak env fresh admin registry p256 honk = .ok s)
    (henv : env'.sender = admin) (operator : Address) (d k : Bytes32) :
    Ready keccak operator d k (exec keccak s ⟨env', .grantRole (OPERATOR_ROLE keccak) operator⟩) := by
  obtain ⟨-, -, -, hp, hg, hadmin, hroles⟩ := initializeProxy_spec h
  have hsame : SameSubmissions fresh s := initializeProxy_same h
  have hcheck : AccessControl.hasRole s.roles
      (AccessControl.getRoleAdmin s.roles (OPERATOR_ROLE keccak)) env'.sender = true := by
    rw [hroles, henv]; exact hadmin
  rw [exec_grantRole hcheck]
  refine ⟨hp, ?_, ?_, ?_, ?_⟩
  · show s.reentrancyStatus ≠ _
    rw [hg]; decide
  · show AccessControl.hasRole (AccessControl.grantRoleInternal s.roles _ operator env'.sender).1 _ operator = true
    rw [AccessControl.hasRole_grantRoleInternal]
    simp
  · show s.usedSessionKeys k = false
    rw [hsame.used]; rfl
  · show s.lastSubmissionTimestamp d = 0
    rw [hsame.last]; rfl

end Deploy

/-- A fresh deployment whose contracts answer alike accepts, once its admin has appointed the operator,
what another one accepted. -/
theorem accepted_elsewhere {envD : Env} {admin registry p256 honk : Address} {sB : V3State}
    (hA : submitProof keccak env s a = .ok s')
    (hB : initializeProxy keccak envD fresh admin registry p256 honk = .ok sB)
    (hsame : SameAnswers env s env' sB) (htime : env'.timestamp = env.timestamp) :
    ∃ txs s₁, submitProof keccak env' (Runs.run (exec keccak) sB txs) a = .ok s₁ := by
  obtain ⟨ha, -⟩ := submitProof_eq_ok_iff.1 hA
  let grant : Tx := ⟨{ envD with sender := admin }, .grantRole (OPERATOR_ROLE keccak) env'.sender⟩
  have hready : Ready keccak env'.sender (bytes32OfU64 a.pubInputs.deviceId)
      (sessionKey keccak a.pubInputs.deviceId a.pubInputs.sessionId) (exec keccak sB grant) :=
    ready_after_grant hB rfl env'.sender _ _
  have hsame' : SameAnswers env s env' (exec keccak sB grant) := by
    obtain ⟨hr, hp, hh⟩ := contracts_grant keccak sB grant.env (OPERATOR_ROLE keccak) env'.sender
    exact ⟨by rw [hr]; exact hsame.registry, by rw [hp]; exact hsame.p256, by rw [hh]; exact hsame.honk⟩
  exact ⟨[grant], _, submitProof_eq_ok_iff.2 ⟨ha.transfer hsame' htime hready, rfl⟩⟩

theorem replay_scope (hA : submitProof keccak env s a = .ok s') :
    (∀ txs envL, ∃ e, submitProof keccak envL (Runs.run (exec keccak) s' txs) a = .error e) ∧
    (∀ self chainid, submitProof keccak { env with self := self, chainid := chainid } s a = .ok s') ∧
    (∀ envD admin registry p256 honk sB env',
      initializeProxy keccak envD fresh admin registry p256 honk = .ok sB → SameAnswers env s env' sB →
      env'.timestamp = env.timestamp →
      ∃ txs s₁, submitProof keccak env' (Runs.run (exec keccak) sB txs) a = .ok s₁) :=
  ⟨rejected_after_accepted hA, fun _ _ => hA, fun _ _ _ _ _ _ _ => accepted_elsewhere hA⟩

namespace TestChain

def chainB : Env := envAt openOracles 9 5

end TestChain

open TestChain in
/-- Two deployments that differ in the chain id accept the same submission. -/
theorem accepted_on_both_chains :
    chainA.chainid ≠ chainB.chainid ∧ SameAnswers chainA (deployed chainA) chainB (deployed chainB) ∧
    (submitProof packKeccak chainA (Runs.run (exec packKeccak) (deployed chainA) [grantOperator chainA])
      (submission 7 1 100)).isOk = true ∧
    (submitProof packKeccak chainB
      (Runs.run (exec packKeccak) (deployed chainB) [grantOperator chainB])
      (submission 7 1 100)).isOk = true :=
  ⟨by decide, ⟨rfl, rfl, rfl⟩, by decide +kernel, by decide +kernel⟩

open TestChain in
theorem replay_scope_sample :
    ∃ s', submitProof packKeccak chainA (Runs.run (exec packKeccak) (deployed chainA) [grantOperator chainA])
        (submission 7 1 100) = .ok s' ∧
      ∀ txs envL, ∃ e, submitProof packKeccak envL (Runs.run (exec packKeccak) s' txs)
        (submission 7 1 100) = .error e := by
  have hok : (submitProof packKeccak chainA (Runs.run (exec packKeccak) (deployed chainA) [grantOperator chainA])
      (submission 7 1 100)).isOk = true := by decide +kernel
  have h := submitProof_eq_ok_iff.2 ⟨accepts_of_isOk hok, rfl⟩
  exact ⟨_, h, (replay_scope h).1⟩

end V3
end InfraVeritas
