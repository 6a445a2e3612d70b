import InfraVeritas.Lib.Runs
import InfraVeritas.V3

/-!
# What a V3 transaction can do

For every external function an `_eq_ok_iff` lemma says once when it succeeds and what it then stores and
emits; for `submitProof` these are `Accepts` and `accepted`. The other functions leave the two submission
mappings and the `ProofSubmitted` events alone (`SameSubmissions`); `call_cases` puts the two together.
-/

namespace InfraVeritas
open Checks

namespace V3
variable {keccak : Bytes → Bytes32} {env : Env} {s s' : V3State} {a : SubmitArgs}

/-! ### The gap check -/

/-- The gap rule of CHECK 7a. -/
def gapOf (previousTimestamp epochStartTs : U64) : U64 :=
  if previousTimestamp ≠ 0 then epochStartTs - previousTimestamp else 0

theorem gapCheck_eq_ok_iff {prev epoch : U64} {r : U64 × Bool} :
    gapCheck prev epoch = .ok r ↔
      (prev = 0 ∨ prev < epoch) ∧ r = (gapOf prev epoch, decide (gapOf prev epoch > MAX_GAP_SECONDS)) := by
  unfold gapCheck gapOf
  by_cases h0 : prev = 0
  · have hz : decide ((0 : U64) > MAX_GAP_SECONDS) = false := by decide
    rw [if_neg (not_not.2 h0), if_neg (not_not.2 h0), hz, pure_eq_ok]
    exact ⟨fun h => ⟨.inl h0, h.symm⟩, fun h => h.2.symm⟩
  · simp only [ne_eq, h0, not_false_eq_true, ↓reduceIte, bind_eq_ok, exists_punit, revertIf_eq_ok,
      checkedSub_eq_ok, pure_eq_ok, BitVec.not_le, false_or]
    constructor
    · rintro ⟨hlt, _, ⟨_, rfl⟩, rfl⟩
      exact ⟨hlt, rfl⟩
    · rintro ⟨hlt, rfl⟩
      exact ⟨hlt, _, ⟨BitVec.le_of_lt hlt, rfl⟩, rfl⟩

def eventOf (keccak : Bytes → Bytes32) (s : V3State) (pi : PublicInputs) : ProofSubmitted :=
  let gap := gapOf (s.lastSubmissionTimestamp (bytes32OfU64 pi.deviceId)) pi.epochStartTs
  ⟨bytes32OfU64 pi.deviceId, sessionKey keccak pi.deviceId pi.sessionId, pi.epochStartTs, gap,
    decide (gap > MAX_GAP_SECONDS)⟩

def accepted (keccak : Bytes → Bytes32) (s : V3State) (pi : PublicInputs) : V3State :=
  { s with
    usedSessionKeys := Function.update s.usedSessionKeys (sessionKey keccak pi.deviceId pi.sessionId) true
    lastSubmissionTimestamp :=
      Function.update s.lastSubmissionTimestamp (bytes32OfU64 pi.deviceId) pi.epochStartTs
    reentrancyStatus := ReentrancyGuard.NOT_ENTERED
    log := s.log ++ [.proofSubmitted (eventOf keccak s pi)] }

/-- The checks of `submitProof`, as a predicate on the state, the context and the arguments. -/
structure Accepts (keccak : Bytes → Bytes32) (env : Env) (s : V3State) (a : SubmitArgs) : Prop where
  notPaused : s.paused = false
  notEntered : s.reentrancyStatus ≠ ReentrancyGuard.ENTERED
  operator : AccessControl.hasRole s.roles (OPERATOR_ROLE keccak) env.sender = true
  signatureLength : a.signature.length = 64
  pubkeyLength : a.devicePubkey.length = 64
  noOverflow : env.timestamp.toNat + 300 < 2 ^ 256
  epoch : a.pubInputs.epochStartTs.toNat ≤ env.timestamp.toNat + 300
  payloadHash : a.pubInputs.payloadHash = a.payloadHash
  unused : s.usedSessionKeys (sessionKey keccak a.pubInputs.deviceId a.pubInputs.sessionId) = false
  later : s.lastSubmissionTimestamp (bytes32OfU64 a.pubInputs.deviceId) = 0 ∨
    s.lastSubmissionTimestamp (bytes32OfU64 a.pubInputs.deviceId) < a.pubInputs.epochStartTs
  authorized : env.oracles.isAuthorized s.deviceRegistry a.devicePubkey = .returned true
  p256 : env.oracles.verifyP256 s.p256Verifier a.payloadHash (calldataload a.signature 0)
    (calldataload a.signature 32) (calldataload a.devicePubkey 0) (calldataload a.devicePubkey 32) =
      .returned true
  honk : env.oracles.verifyHonk s.honkVerifier a.proof (encodePublicInputs a.pubInputs) = .returned true

theorem drift_ok_iff {t : UInt256} {e : U64} :
    (∃ latest, (t.toNat + (bytes32OfU64 MAX_EPOCH_FUTURE_DRIFT).toNat < 2 ^ 256 ∧
        latest = t + bytes32OfU64 MAX_EPOCH_FUTURE_DRIFT) ∧ ¬ bytes32OfU64 e > latest) ↔
      t.toNat + 300 < 2 ^ 256 ∧ e.toNat ≤ t.toNat + 300 := by
  have hd : (bytes32OfU64 MAX_EPOCH_FUTURE_DRIFT).toNat = 300 := rfl
  constructor
  · rintro ⟨_, ⟨hlt, rfl⟩, hle⟩
    rw [gt_iff_lt, BitVec.lt_def, toNat_add_of_lt hlt, hd, toNat_bytes32OfU64] at hle
    exact ⟨hlt, by omega⟩
  · rintro ⟨hlt, hle⟩
    refine ⟨_, ⟨hlt, rfl⟩, ?_⟩
    rw [gt_iff_lt, BitVec.lt_def, toNat_add_of_lt hlt, hd, toNat_bytes32OfU64]
    omega

theorem submitProof_eq_ok_iff :
    submitProof keccak env s a = .ok s' ↔ Accepts keccak env s a ∧ s' = accepted keccak s a.pubInputs := by
  unfold submitProof ReentrancyGuard.nonReentrantBefore Pausable.requireNotPaused
  simp only [bind_eq_ok, exists_punit, mapError_eq_ok, revertIf_eq_ok, pure_eq_ok,
    AccessControl.checkRole_eq_ok, checkedAdd_eq_ok, callBool_eq_ok, gapCheck_eq_ok_iff,
    ne_eq, not_not, Bool.not_eq_true, Bool.not_eq_false]
  constructor
  · rintro ⟨h1, _, ⟨h2, rfl⟩, h3, h4, h5, latest, hl, h6, h7, h8, ⟨_, _⟩, ⟨h9, hr⟩, _, h10, rfl, _,
      h11, rfl, _, h12, rfl, rfl⟩
    obtain ⟨rfl, rfl⟩ := Prod.mk.inj hr
    obtain ⟨h13, h14⟩ := drift_ok_iff.1 ⟨latest, hl, h6⟩
    exact ⟨⟨h1, h2, h3, h4, h5, h13, h14, h7, h8, h9, h10, h11, h12⟩, rfl⟩
  · rintro ⟨h, rfl⟩
    obtain ⟨latest, hl, h6⟩ := drift_ok_iff.2 ⟨h.noOverflow, h.epoch⟩
    exact ⟨h.notPaused, _, ⟨h.notEntered, rfl⟩, h.operator, h.signatureLength, h.pubkeyLength, latest,
      hl, h6, h.payloadHash, h.unused, _, ⟨h.later, rfl⟩, _, h.authorized, rfl, _, h.p256, rfl, _,
      h.honk, rfl, rfl⟩

theorem rejected_iff : (∃ e, submitProof keccak env s a = .error e) ↔ ¬ Accepts keccak env s a := by
  constructor
  · rintro ⟨e, he⟩ ha
    rw [submitProof_eq_ok_iff.2 ⟨ha, rfl⟩] at he
    cases he
  · intro hn
    rcases hs : submitProof keccak env s a with e | s'
    · exact ⟨e, rfl⟩
    · exact absurd (submitProof_eq_ok_iff.1 hs).1 hn

theorem accepts_of_isOk (h : (submitProof keccak env s a).isOk = true) : Accepts keccak env s a := by
  rcases hs : submitProof keccak env s a with e | s'
  · rw [hs] at h
    cases h
  · exact (submitProof_eq_ok_iff.1 hs).1

theorem proofs_emit (s : V3State) (es : List V3Event) :
    proofs (emit s es) = proofs s ++ es.filterMap proofEvent := by
  simp [proofs, emit]

theorem proofs_accepted (pi : PublicInputs) :
    proofs (accepted keccak s pi) = proofs s ++ [eventOf keccak s pi] := by
  simp [proofs, accepted, proofEvent]

/-! ### When the other functions succeed -/

def IsAdmin (s : V3State) (account : Address) : Prop :=
  AccessControl.hasRole s.roles AccessControl.DEFAULT_ADMIN_ROLE account = true

theorem pause_eq_ok_iff : pause keccak env s = .ok s' ↔
    AccessControl.hasRole s.roles (PAUSER_ROLE keccak) env.sender = true ∧ s.paused = false ∧
      s' = emit { s with paused := true } [.oz (.paused env.sender)] := by
  simp only [pause, Pausable.pause, Pausable.requireNotPaused, bind_eq_ok, exists_punit, mapError_eq_ok, revertIf_eq_ok,
    AccessControl.checkRole_eq_ok, pure_eq_ok, Bool.not_eq_true]
  refine and_congr_right fun _ => ⟨?_, ?_⟩
  · rintro ⟨_, ⟨hp, rfl⟩, rfl⟩
    exact ⟨hp, rfl⟩
  · rintro ⟨hp, rfl⟩
    exact ⟨_, ⟨hp, rfl⟩, rfl⟩

theorem unpause_eq_ok_iff : unpause env s = .ok s' ↔
    IsAdmin s env.sender ∧ s.paused = true ∧ s' = emit { s with paused := false } [.oz (.unpaused env.sender)] := by
  simp only [unpause, Pausable.unpause, Pausable.requirePaused, bind_eq_ok, exists_punit, mapError_eq_ok, revertIf_eq_ok,
    AccessControl.checkRole_eq_ok, pure_eq_ok, Bool.not_eq_false, IsAdmin]
  refine and_congr_right fun _ => ⟨?_, ?_⟩
  · rintro ⟨_, ⟨hp, rfl⟩, rfl⟩
    exact ⟨hp, rfl⟩
  · rintro ⟨hp, rfl⟩
    exact ⟨_, ⟨hp, rfl⟩, rfl⟩

theorem setContract_eq_ok_iff {old new : Address} {update : V3State → Address → V3State}
    {changed : Address → Address → V3Event} : setContract env s old update changed new = .ok s' ↔
      IsAdmin s env.sender ∧ new ≠ 0 ∧ new ≠ old ∧ s' = emit (update s new) [changed old new] := by
  simp only [setContract, bind_eq_ok, exists_punit, mapError_eq_ok, revertIf_eq_ok, AccessControl.checkRole_eq_ok,
    pure_eq_ok, IsAdmin, eq_comm (a := s'), ne_eq]

theorem setDeviceRegistry_eq_ok_iff {r : Address} : setDeviceRegistry env s r = .ok s' ↔
    IsAdmin s env.sender ∧ r ≠ 0 ∧ r ≠ s.deviceRegistry ∧
      s' = emit { s with deviceRegistry := r } [.deviceRegistryChanged s.deviceRegistry r] := setContract_eq_ok_iff

theorem setP256Verifier_eq_ok_iff {v : Address} : setP256Verifier env s v = .ok s' ↔
    IsAdmin s env.sender ∧ v ≠ 0 ∧ v ≠ s.p256Verifier ∧
      s' = emit { s with p256Verifier := v } [.p256VerifierChanged s.p256Verifier v] := setContract_eq_ok_iff

theorem setHonkVerifier_eq_ok_iff {v : Address} : setHonkVerifier env s v = .ok s' ↔
    IsAdmin s env.sender ∧ v ≠ 0 ∧ v ≠ s.honkVerifier ∧
      s' = emit { s with honkVerifier := v } [.honkVerifierChanged s.honkVerifier v] := setContract_eq_ok_iff

theorem setRoles_eq_ok_iff {r : Except OZError (Roles × List OZEvent)} : setRoles s r = .ok s' ↔
    ∃ roles es, r = .ok (roles, es) ∧ s' = emit { s with roles := roles } (es.map .oz) := by
  simp only [setRoles, bind_eq_ok, mapError_eq_ok, pure_eq_ok]
  constructor
  · rintro ⟨⟨roles, es⟩, hr, rfl⟩
    exact ⟨roles, es, hr, rfl⟩
  · rintro ⟨roles, es, hr, rfl⟩
    exact ⟨(roles, es), hr, rfl⟩

/-- What `reinitializeEIP712` stores and emits. -/
def reinitialized (keccak : Bytes → Bytes32) (env : Env) (s : V3State) : V3State :=
  emit { cacheDomainSeparator keccak env s with initializable := ⟨2, false⟩ } [.oz (.initialized 2)]

theorem reinitializeEIP712_eq_ok_iff : reinitializeEIP712 keccak env s = .ok s' ↔
    (s.initializable.initializing = false ∧ s.initializable.initialized < 2) ∧ IsAdmin s env.sender ∧
      s' = reinitialized keccak env s := by
  simp only [reinitializeEIP712, Initializable.beginReinitializer, bind_eq_ok, exists_punit, mapError_eq_ok,
    revertIf_eq_ok, AccessControl.checkRole_eq_ok, pure_eq_ok, not_or, Bool.not_eq_true, ge_iff_le, Nat.not_le, IsAdmin]
  constructor
  · rintro ⟨_, ⟨hi, rfl⟩, ha, rfl⟩
    exact ⟨hi, ha, rfl⟩
  · rintro ⟨hi, ha, rfl⟩
    exact ⟨_, ⟨hi, rfl⟩, ha, rfl⟩

/-- What `initialize` stores and emits. -/
def initialized (keccak : Bytes → Bytes32) (env : Env) (s : V3State) (admin registry p256 honk : Address) : V3State :=
  emit { initializeBody keccak env { s with initializable := ⟨1, true⟩ } admin registry p256 honk with
    initializable := ⟨1, false⟩ } [.oz (.initialized 1)]

theorem initializeProxy_eq_ok_iff {admin registry p256 honk : Address} :
    initializeProxy keccak env s admin registry p256 honk = .ok s' ↔
      (s.initializable.initialized = 0 ∧ s.initializable.initializing = false) ∧
      (admin ≠ 0 ∧ registry ≠ 0 ∧ p256 ≠ 0 ∧ honk ≠ 0) ∧ s' = initialized keccak env s admin registry p256 honk := by
  simp only [initializeProxy, Initializable.beginInitializer, bind_eq_ok, exists_punit, mapError_eq_ok, revertIf_eq_ok,
    pure_eq_ok, not_not, Bool.not_eq_true', ne_eq]
  constructor
  · rintro ⟨_, ⟨hi, rfl⟩, ha, hr, hp, hh, rfl⟩
    exact ⟨hi, ⟨ha, hr, hp, hh⟩, rfl⟩
  · rintro ⟨hi, ⟨ha, hr, hp, hh⟩, rfl⟩
    exact ⟨_, ⟨hi, rfl⟩, ha, hr, hp, hh, rfl⟩

theorem initializeProxy_of_initialized {admin registry p256 honk : Address} (h : s.initializable.initialized ≠ 0) :
    initializeProxy keccak env s admin registry p256 honk ≠ .ok s' :=
  fun hc => h (initializeProxy_eq_ok_iff.1 hc).1.1

/-! ### What the other functions leave alone -/

/-- `s'` differs from `s` in nothing that a submission writes. -/
structure SameSubmissions (s s' : V3State) : Prop where
  last : s'.lastSubmissionTimestamp = s.lastSubmissionTimestamp
  used : s'.usedSessionKeys = s.usedSessionKeys
  proofs : V3.proofs s' = V3.proofs s

namespace SameSubmissions

theorem refl (s : V3State) : SameSubmissions s s := ⟨rfl, rfl, rfl⟩

theorem trans {s₁ s₂ s₃ : V3State} (h : SameSubmissions s₁ s₂) (h' : SameSubmissions s₂ s₃) :
    SameSubmissions s₁ s₃ :=
  ⟨h'.last.trans h.last, h'.used.trans h.used, h'.proofs.trans h.proofs⟩

theorem emit (s : V3State) {es : List V3Event} (hes : ∀ e ∈ es, proofEvent e = none) :
    SameSubmissions s (V3.emit s es) :=
  ⟨rfl, rfl, by rw [proofs_emit, List.filterMap_eq_nil_iff.2 hes, List.append_nil]⟩

/-- A change of the rest of the storage, with its events. -/
theorem update {es : List V3Event} (hes : ∀ e ∈ es, proofEvent e = none) (h : SameSubmissions s s') :
    SameSubmissions s (V3.emit s' es) := h.trans (.emit s' hes)

end SameSubmissions

theorem cacheDomainSeparator_same (s : V3State) : SameSubmissions s (cacheDomainSeparator keccak env s) :=
  .update (by simp [proofEvent]) ⟨rfl, rfl, rfl⟩

theorem grantRoleInternal_same (s : V3State) (role : Bytes32) (account : Address) :
    SameSubmissions s (grantRoleInternal env s role account) :=
  .update (by simp [proofEvent]) ⟨rfl, rfl, rfl⟩

theorem initializeBody_same (s : V3State) (admin registry p256 honk : Address) :
    SameSubmissions s (initializeBody keccak env s admin registry p256 honk) := by
  let s₁ : V3State := { s with paused := false, reentrancyStatus := ReentrancyGuard.NOT_ENTERED }
  let s₂ := grantRoleInternal env s₁ AccessControl.DEFAULT_ADMIN_ROLE admin
  let s₃ := grantRoleInternal env s₂ (UPGRADER_ROLE keccak) admin
  have h₁ : SameSubmissions s s₁ := ⟨rfl, rfl, rfl⟩
  have h₂ : SameSubmissions s₁ s₂ := grantRoleInternal_same s₁ _ admin
  have h₃ : SameSubmissions s₂ s₃ := grantRoleInternal_same s₂ _ admin
  have h₄ : SameSubmissions s₃
      { s₃ with deviceRegistry := registry, p256Verifier := p256, honkVerifier := honk } := ⟨rfl, rfl, rfl⟩
  exact ((h₁.trans h₂).trans (h₃.trans h₄)).trans (cacheDomainSeparator_same _)

theorem initialized_same (s : V3State) (admin registry p256 honk : Address) :
    SameSubmissions s (initialized keccak env s admin registry p256 honk) := by
  let s₁ : V3State := { s with initializable := ⟨1, true⟩ }
  let s₂ := initializeBody keccak env s₁ admin registry p256 honk
  have h₁ : SameSubmissions s s₁ := ⟨rfl, rfl, rfl⟩
  have h₂ : SameSubmissions s₁ s₂ := initializeBody_same s₁ admin registry p256 honk
  have h₃ : SameSubmissions s₂ { s₂ with initializable := ⟨1, false⟩ } := ⟨rfl, rfl, rfl⟩
  exact .update (by simp [proofEvent]) ((h₁.trans h₂).trans h₃)

theorem initializeProxy_same {admin registry p256 honk : Address}
    (h : initializeProxy keccak env s admin registry p256 honk = .ok s') : SameSubmissions s s' := by
  obtain ⟨-, -, rfl⟩ := initializeProxy_eq_ok_iff.1 h
  exact initialized_same s admin registry p256 honk

theorem reinitialized_same (s : V3State) : SameSubmissions s (reinitialized keccak env s) := by
  let s₁ := cacheDomainSeparator keccak env s
  have h₁ : SameSubmissions s s₁ := cacheDomainSeparator_same s
  have h₂ : SameSubmissions s₁ { s₁ with initializable := ⟨2, false⟩ } := ⟨rfl, rfl, rfl⟩
  exact .update (by simp [proofEvent]) (h₁.trans h₂)

/-- A successful call either is an accepted submission or leaves the submissions alone. -/
theorem call_cases {c : Call} (h : call keccak env s c = .ok s') :
    (∃ a, c = .submitProof a ∧ Accepts keccak env s a ∧ s' = accepted keccak s a.pubInputs) ∨
      (∀ a, c ≠ .submitProof a) ∧ SameSubmissions s s' := by
  cases c with
  | submitProof a =>
    obtain ⟨ha, hs⟩ := submitProof_eq_ok_iff.1 h
    exact .inl ⟨a, rfl, ha, hs⟩
  | initializeProxy => exact .inr ⟨by simp, initializeProxy_same h⟩
  | reinitializeEIP712 =>
    obtain ⟨-, -, rfl⟩ := reinitializeEIP712_eq_ok_iff.1 h
    exact .inr ⟨by simp, reinitialized_same s⟩
  | pause =>
    obtain ⟨-, -, rfl⟩ := pause_eq_ok_iff.1 h
    exact .inr ⟨by simp, .update (by simp [proofEvent]) ⟨rfl, rfl, rfl⟩⟩
  | unpause =>
    obtain ⟨-, -, rfl⟩ := unpause_eq_ok_iff.1 h
    exact .inr ⟨by simp, .update (by simp [proofEvent]) ⟨rfl, rfl, rfl⟩⟩
  | setDeviceRegistry =>
    obtain ⟨-, -, -, rfl⟩ := setDeviceRegistry_eq_ok_iff.1 h
    exact .inr ⟨by simp, .update (by simp [proofEvent]) ⟨rfl, rfl, rfl⟩⟩
  | setP256Verifier =>
    obtain ⟨-, -, -, rfl⟩ := setP256Verifier_eq_ok_iff.1 h
    exact .inr ⟨by simp, .update (by simp [proofEvent]) ⟨rfl, rfl, rfl⟩⟩
  | setHonkVerifier =>
    obtain ⟨-, -, -, rfl⟩ := setHonkVerifier_eq_ok_iff.1 h
    exact .inr ⟨by simp, .update (by simp [proofEvent]) ⟨rfl, rfl, rfl⟩⟩
  | grantRole | revokeRole | renounceRole =>
    obtain ⟨roles, es, -, rfl⟩ := setRoles_eq_ok_iff.1 h
    exact .inr ⟨by simp, .update (by simp [proofEvent]) ⟨rfl, rfl, rfl⟩⟩

/-- The public inputs of the submission that the transaction `x.2` gets accepted in the state `x.1`. -/
def acceptedInputs (keccak : Bytes → Bytes32) (x : V3State × Tx) : Option PublicInputs :=
  match x.2.call, call keccak x.2.env x.1 x.2.call with
  | .submitProof a, .ok _ => some a.pubInputs
  | _, _ => none

def submissions (keccak : Bytes → Bytes32) (s : V3State) (txs : List Tx) : List PublicInputs :=
  (Runs.steps (exec keccak) s txs).filterMap (acceptedInputs keccak)

theorem call_of_accepts {t : Tx} (hc : t.call = .submitProof a) (ha : Accepts keccak t.env s a) :
    call keccak t.env s t.call = .ok (accepted keccak s a.pubInputs) := by
  rw [hc]
  exact submitProof_eq_ok_iff.2 ⟨ha, rfl⟩

theorem exec_of_accepts {t : Tx} (hc : t.call = .submitProof a) (ha : Accepts keccak t.env s a) :
    exec keccak s t = accepted keccak s a.pubInputs := by
  rw [exec, call_of_accepts hc ha]

theorem exec_of_error {t : Tx} {e : V3Error} (h : call keccak t.env s t.call = .error e) :
    exec keccak s t = s := by
  rw [exec, h]

theorem exec_grantRole {role : Bytes32}
    (h : AccessControl.hasRole s.roles (AccessControl.getRoleAdmin s.roles role) env.sender = true) (account : Address) :
    exec keccak s ⟨env, .grantRole role account⟩ = grantRoleInternal env s role account := by
  have hcall : call keccak env s (.grantRole role account) = .ok (grantRoleInternal env s role account) :=
    setRoles_eq_ok_iff.2 ⟨_, _, AccessControl.grantRole_of_hasRole h, rfl⟩
  rw [exec, hcall]

theorem acceptedInputs_of_accepts {t : Tx} (hc : t.call = .submitProof a) (ha : Accepts keccak t.env s a) :
    acceptedInputs keccak (s, t) = some a.pubInputs := by
  unfold acceptedInputs
  rw [show call keccak (s, t).2.env (s, t).1 (s, t).2.call = _ from call_of_accepts hc ha]
  simp only [hc]

/-- A transaction either is an accepted submission or leaves the submissions alone. -/
theorem exec_cases (s : V3State) (t : Tx) :
    (∃ a, t.call = .submitProof a ∧ Accepts keccak t.env s a ∧
        exec keccak s t = accepted keccak s a.pubInputs ∧ acceptedInputs keccak (s, t) = some a.pubInputs) ∨
      acceptedInputs keccak (s, t) = none ∧ SameSubmissions s (exec keccak s t) := by
  rcases h : call keccak t.env s t.call with e | s'
  · refine .inr ⟨?_, (exec_of_error h).symm ▸ .refl s⟩
    simp only [acceptedInputs, h]
    cases t.call <;> rfl
  · rcases call_cases h with ⟨a, hc, ha, -⟩ | ⟨hc, hs⟩
    · exact .inl ⟨a, hc, ha, exec_of_accepts hc ha, acceptedInputs_of_accepts hc ha⟩
    · refine .inr ⟨?_, by rwa [exec, h]⟩
      unfold acceptedInputs
      split
      · next a _ ha _ => exact absurd ha (hc a)
      · rfl

theorem submissions_concat (s : V3State) (txs : List Tx) (t : Tx) :
    submissions keccak s (txs ++ [t]) =
      submissions keccak s txs ++ (acceptedInputs keccak (Runs.run (exec keccak) s txs, t)).toList := by
  rw [submissions, Runs.steps_concat, List.filterMap_append, submissions]
  cases h : acceptedInputs keccak (Runs.run (exec keccak) s txs, t) <;> simp [h]

theorem Deployed.same (h : Deployed keccak s) : SameSubmissions fresh s := by
  obtain ⟨env, admin, registry, p256, honk, h⟩ := h
  exact initializeProxy_same h

/-! ### A sample deployment

Admin 1 deploys the proxy at `self` with registry 2 and verifiers 3 and 4, then makes itself operator. -/

namespace TestChain

/-- A stand-in for `keccak256` that is injective on preimages of up to 32 bytes. -/
def packKeccak (bs : Bytes) : Bytes32 := BitVec.ofNat 256 (BigEndian.ofBE bs)

/-- Every query of the registry and of the verifiers is answered `true`. -/
def openOracles : Oracles := ⟨fun _ _ => .returned true, fun _ _ _ _ _ _ => .returned true, fun _ _ _ => .returned true⟩

def envAt (oracles : Oracles) (self : Address) (chainid : UInt256) : Env := ⟨self, 1, 1000000, chainid, oracles⟩

def deployed (env : Env) : V3State := ((initializeProxy packKeccak env fresh 1 2 3 4).toOption).getD fresh

theorem deployed_deployed (env : Env) : Deployed packKeccak (deployed env) :=
  ⟨env, 1, 2, 3, 4, rfl⟩

def grantOperator (env : Env) : Tx := ⟨env, .grantRole (OPERATOR_ROLE packKeccak) 1⟩

/-- A submission with zero payload hash, signature, key and proof. -/
def submission (deviceId sessionId epochStartTs : U64) : SubmitArgs :=
  ⟨⟨deviceId, sessionId, epochStartTs, 0, 0, 0, 0, 0, 0⟩, 0, List.replicate 64 0, List.replicate 64 0, []⟩

def submitTx (env : Env) (deviceId sessionId epochStartTs : U64) : Tx :=
  ⟨env, .submitProof (submission deviceId sessionId epochStartTs)⟩

end TestChain

end V3
end InfraVeritas
