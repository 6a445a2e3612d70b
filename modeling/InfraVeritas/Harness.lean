import InfraVeritas.Deployments
import InfraVeritas.Privileges

/-!
# The fuzzing harnesses of `EnergyProofRegistryV3`

`V3Properties` and `V3InvariantHandler` each deploy a proxy over verifiers that always agree, submit to it under any
seeds and at any block, and keep a record of what happened: flags, counters, captured events. `Ordered` is what both
need from the proxy, because neither ever submits the epoch 0; on top of it `V3Properties.Inv` and
`V3InvariantHandler.Inv` tie the records to the proxy's log in every run.
-/

namespace InfraVeritas
open Checks

/-! ### The mocks, and what both harnesses send -/

namespace Harness

/-- The proxy and the three mocks, at addresses of their own. -/
structure Mocks where
  v3 : Address
  dr : Address
  p256 : Address
  honk : Address
  nonzero : dr ≠ 0 ∧ p256 ≠ 0 ∧ honk ≠ 0

structure Block where
  timestamp : UInt256
  chainid : UInt256

def DEVICE_COUNT : U64 := 5

def pubkeyFor (deviceId : U64) : Bytes :=
  wordBytes (bytes32OfU64 deviceId) ++ wordBytes (bytes32OfU64 deviceId ||| (1 <<< 64 : Bytes32))

def setAuthorized (keccak : Bytes → Bytes32) (authorized : Bytes32 → Bool) (pubkey : Bytes) (ok : Bool) : Bytes32 → Bool :=
  Function.update authorized (keccak pubkey) ok

/-- The mapping of the mock registry after the loop over the devices; nothing writes it later. -/
def registered (keccak : Bytes → Bytes32) : Bytes32 → Bool :=
  ((List.range' 1 DEVICE_COUNT.toNat).map (BitVec.ofNat 64)).foldl
    (fun authorized i => setAuthorized keccak authorized (pubkeyFor i) true) fun _ => false

variable (keccak : Bytes → Bytes32) (k : Mocks)

/-- The device registry mock and the two mocks that always return true, each at its address. -/
def oracles : Oracles where
  isAuthorized registry pubkey :=
    if registry = k.dr then .returned (registered keccak (keccak pubkey)) else .reverted []
  verifyP256 verifier _ _ _ _ _ := if verifier = k.p256 then .returned true else .reverted []
  verifyHonk verifier _ _ := if verifier = k.honk then .returned true else .reverted []

def envOf (b : Block) (sender : Address) : Env := ⟨k.v3, sender, b.timestamp, b.chainid, oracles keccak k⟩

def submitArgs (deviceId sessionId epochStartTs : U64) (piPayloadHash payloadHash : Bytes32) : SubmitArgs where
  pubInputs := ⟨deviceId, sessionId, epochStartTs, 0, 0, 0, 0, piPayloadHash, 0⟩
  payloadHash := payloadHash
  signature := List.replicate 64 0
  devicePubkey := pubkeyFor deviceId
  proof := List.replicate 440 0

/-- Deployed by `admin` with the mocks behind it, and with `roles` granted by the same account. -/
def deploy (b : Block) (admin : Address) (roles : List (Bytes32 × Address)) : Except V3Error V3State := do
  let v3 ← V3.initializeProxy keccak (envOf keccak k b admin) V3.fresh admin k.dr k.p256 k.honk
  roles.foldlM (fun v3 r => V3.call keccak (envOf keccak k b admin) v3 (.grantRole r.1 r.2)) v3

def mocks : Mocks := ⟨1, 2, 3, 4, by decide⟩

/-- Noon of a day, counted from the epoch. -/
def noon (day : Nat) : Block := ⟨BitVec.ofNat 256 (86400 * day + 43200), 31337⟩

variable {keccak k} {s s' : V3State} {b : Block} {admin account : Address}

theorem length_pubkeyFor (deviceId : U64) : (pubkeyFor deviceId).length = 64 := by
  simp [pubkeyFor, wordBytes]

theorem foldl_setAuthorized_of_mem (f : U64 → Bytes) {ds : List U64} {d : U64} (authorized : Bytes32 → Bool)
    (h : d ∈ ds ∨ authorized (keccak (f d)) = true) :
    ds.foldl (fun authorized i => setAuthorized keccak authorized (f i) true) authorized (keccak (f d)) = true := by
  induction ds generalizing authorized with
  | nil => simpa using h
  | cons e ds ih =>
    refine ih _ ?_
    rw [List.mem_cons] at h
    rcases h with (rfl | hd) | ha
    · exact .inr (Function.update_self ..)
    · exact .inl hd
    · right
      show Function.update authorized (keccak (f e)) true (keccak (f d)) = true
      by_cases he : keccak (f d) = keccak (f e)
      · rw [he, Function.update_self]
      · rw [Function.update_of_ne he, ha]

theorem registered_device (seed : U64) : registered keccak (keccak (pubkeyFor (seed % DEVICE_COUNT + 1))) = true := by
  refine foldl_setAuthorized_of_mem pubkeyFor _ (.inl (List.mem_map.2 ⟨seed.toNat % 5 + 1, ?_, ?_⟩))
  · rw [List.mem_range'_1, show DEVICE_COUNT.toNat = 5 from rfl]
    omega
  · refine BitVec.eq_of_toNat_eq ?_
    rw [BitVec.toNat_add, BitVec.toNat_umod, show DEVICE_COUNT.toNat = 5 from rfl, BitVec.toNat_ofNat]
    rfl

/-- What a deployment by a harness leaves for good: the mocks behind the proxy, and the granted roles. -/
structure Wired (keccak : Bytes → Bytes32) (k : Mocks) (s : V3State) : Prop where
  registry : s.deviceRegistry = k.dr
  p256 : s.p256Verifier = k.p256
  honk : s.honkVerifier = k.honk
  notEntered : s.reentrancyStatus ≠ ReentrancyGuard.ENTERED

/-- With the mocks behind the proxy, these are the checks that a submission of a harness can fail. -/
theorem accepts_iff (hw : Wired keccak k s) (seed sessionId epochStartTs : U64) (piPayloadHash payloadHash : Bytes32) :
    V3.Accepts keccak (envOf keccak k b account) s
        (submitArgs (seed % DEVICE_COUNT + 1) sessionId epochStartTs piPayloadHash payloadHash) ↔
      s.paused = false ∧ AccessControl.hasRole s.roles (V3.OPERATOR_ROLE keccak) account = true ∧
        b.timestamp.toNat + 300 < 2 ^ 256 ∧ epochStartTs.toNat ≤ b.timestamp.toNat + 300 ∧
        piPayloadHash = payloadHash ∧
        s.usedSessionKeys (V3.sessionKey keccak (seed % DEVICE_COUNT + 1) sessionId) = false ∧
        (s.lastSubmissionTimestamp (bytes32OfU64 (seed % DEVICE_COUNT + 1)) = 0 ∨
          s.lastSubmissionTimestamp (bytes32OfU64 (seed % DEVICE_COUNT + 1)) < epochStartTs) := by
  constructor
  · intro h
    exact ⟨h.notPaused, h.operator, h.noOverflow, h.epoch, h.payloadHash, h.unused, h.later⟩
  · rintro ⟨hp, ho, hn, he, hh, hu, hl⟩
    refine ⟨hp, hw.notEntered, ho, List.length_replicate .., length_pubkeyFor _, hn, he, hh, hu, hl, ?_, ?_, ?_⟩
    · show (if _ then _ else _) = _
      rw [if_pos hw.registry]
      exact congrArg _ (registered_device seed)
    · exact if_pos hw.p256
    · exact if_pos hw.honk

/-! ### The deployment -/

/-- A deployed proxy that has done nothing but grant roles. -/
structure Deployed (keccak : Bytes → Bytes32) (k : Mocks) (admin : Address) (s : V3State) : Prop where
  same : V3.SameSubmissions V3.fresh s
  wired : Wired keccak k s
  running : s.paused = false
  admin : V3.IsAdmin s admin
  roleAdmin : ∀ role, AccessControl.getRoleAdmin s.roles role = AccessControl.DEFAULT_ADMIN_ROLE

theorem hasRole_initialized {env : Env} {dr p256 honk : Address} (role : Bytes32)
    (h : V3.initializeProxy keccak env V3.fresh admin dr p256 honk = .ok s) :
    AccessControl.hasRole s.roles role account =
      decide (account = admin ∧ (role = V3.UPGRADER_ROLE keccak ∨ role = AccessControl.DEFAULT_ADMIN_ROLE)) := by
  obtain ⟨-, -, rfl⟩ := V3.initializeProxy_eq_ok_iff.1 h
  show AccessControl.hasRole (AccessControl.grantRoleInternal (AccessControl.grantRoleInternal
    AccessControl.empty AccessControl.DEFAULT_ADMIN_ROLE admin env.sender).1 (V3.UPGRADER_ROLE keccak)
    admin env.sender).1 role account = _
  rw [AccessControl.hasRole_grantRoleInternal, AccessControl.hasRole_grantRoleInternal,
    show AccessControl.hasRole AccessControl.empty role account = false from rfl, Bool.or_false, ← Bool.decide_or,
    decide_eq_decide]
  tauto

theorem Deployed.grant (hd : Deployed keccak k admin s) (role : Bytes32) (account : Address) :
    ∃ s', V3.call keccak (envOf keccak k b admin) s (.grantRole role account) = .ok s' ∧ Deployed keccak k admin s' ∧
      ∀ role' account', AccessControl.hasRole s'.roles role' account' =
        (decide (role' = role ∧ account' = account) || AccessControl.hasRole s.roles role' account') := by
  have hr : AccessControl.hasRole s.roles (AccessControl.getRoleAdmin s.roles role) admin = true := by
    rw [hd.roleAdmin]
    exact hd.admin
  refine ⟨V3.grantRoleInternal (envOf keccak k b admin) s role account,
    V3.setRoles_eq_ok_iff.2 ⟨_, _, AccessControl.grantRole_of_hasRole hr, rfl⟩, ⟨?_, ?_, hd.running, ?_, ?_⟩, ?_⟩
  · exact hd.same.trans (V3.grantRoleInternal_same s role account)
  · exact ⟨hd.wired.registry, hd.wired.p256, hd.wired.honk, hd.wired.notEntered⟩
  · exact (AccessControl.hasRole_grantRoleInternal ..).trans (Bool.or_eq_true_iff.2 (.inr hd.admin))
  · exact fun role' => (AccessControl.getRoleAdmin_grantRoleInternal ..).trans (hd.roleAdmin role')
  · exact fun role' account' => AccessControl.hasRole_grantRoleInternal ..

theorem Deployed.grants (roles : List (Bytes32 × Address)) (hd : Deployed keccak k admin s) :
    ∃ s', roles.foldlM (fun v3 r => V3.call keccak (envOf keccak k b admin) v3 (.grantRole r.1 r.2)) s = .ok s' ∧
      Deployed keccak k admin s' ∧ ∀ role' account', AccessControl.hasRole s'.roles role' account' =
        (decide ((role', account') ∈ roles) || AccessControl.hasRole s.roles role' account') := by
  induction roles generalizing s with
  | nil => exact ⟨s, rfl, hd, by simp⟩
  | cons r roles ih =>
    obtain ⟨s₁, hs₁, hd₁, hr₁⟩ := hd.grant (b := b) r.1 r.2
    obtain ⟨s₂, hs₂, hd₂, hr₂⟩ := ih hd₁
    refine ⟨s₂, by rw [List.foldlM_cons, hs₁, ok_bind, hs₂], hd₂, ?_⟩
    intro role' account'
    rw [hr₂, hr₁, ← Bool.or_assoc, ← Bool.decide_or]
    simp [Prod.ext_iff, or_comm]

theorem deploy_eq_ok (ha : admin ≠ 0) (roles : List (Bytes32 × Address)) :
    ∃ s, deploy keccak k b admin roles = .ok s ∧ Deployed keccak k admin s ∧
      ∀ role account, AccessControl.hasRole s.roles role account = (decide ((role, account) ∈ roles) ||
        decide (account = admin ∧ (role = V3.UPGRADER_ROLE keccak ∨ role = AccessControl.DEFAULT_ADMIN_ROLE))) := by
  obtain ⟨h1, h2, h3⟩ := k.nonzero
  have hinit : V3.initializeProxy keccak (envOf keccak k b admin) V3.fresh admin k.dr k.p256 k.honk = .ok _ :=
    V3.initializeProxy_eq_ok_iff.2 ⟨⟨rfl, rfl⟩, ⟨ha, h1, h2, h3⟩, rfl⟩
  obtain ⟨hdr, hp, hh, hr, hg, hadmin, hroles⟩ := V3.initializeProxy_spec hinit
  have hne : ReentrancyGuard.NOT_ENTERED ≠ ReentrancyGuard.ENTERED := by simp [ReentrancyGuard.NOT_ENTERED, ReentrancyGuard.ENTERED]
  obtain ⟨s, hs, hd, hrole⟩ := Deployed.grants (b := b) roles
    ⟨V3.initializeProxy_same hinit, ⟨hdr, hp, hh, hg ▸ hne⟩, hr, hadmin, hroles⟩
  refine ⟨s, by rw [deploy, hinit, ok_bind, hs], hd, ?_⟩
  intro role account
  rw [hrole, hasRole_initialized role hinit]

/-! ### What the proxy keeps under nonzero epochs -/

/-- Every device's timestamps increase, and its events report the gaps between them. -/
structure Ordered (keccak : Bytes → Bytes32) (s : V3State) : Prop where
  log : V3.LogInv keccak s
  positive : ∀ e ∈ V3.proofs s, e.timestamp ≠ 0
  ordered : ∀ d, V3.TimeOrdered ((V3.eventsOf s d).map (·.timestamp)) (V3.eventsOf s d)

namespace Ordered

theorem fresh : Ordered keccak V3.fresh :=
  ⟨.fresh, fun _ he => absurd he List.not_mem_nil, fun _ => .nil⟩

theorem same (ho : Ordered keccak s) (h : V3.SameSubmissions s s') : Ordered keccak s' := by
  refine ⟨ho.log.same h, ?_, ?_⟩
  · rw [h.proofs]
    exact ho.positive
  · intro d
    rw [V3.eventsOf_same h]
    exact ho.ordered d

theorem accepted (ho : Ordered keccak s) {env : Env} {a : SubmitArgs} (ha : V3.Accepts keccak env s a)
    (h0 : a.pubInputs.epochStartTs ≠ 0) : Ordered keccak (V3.accepted keccak s a.pubInputs) := by
  refine ⟨ho.log.accepted ha.unused, ?_, ?_⟩
  · intro e he
    rw [V3.proofs_accepted, List.mem_append, List.mem_singleton] at he
    rcases he with he | rfl
    · exact ho.positive e he
    · exact h0
  · intro d
    rw [V3.eventsOf_accepted]
    split
    case isFalse => simpa using ho.ordered d
    case isTrue hd =>
      rw [List.map_append, List.map_singleton, V3.TimeOrdered.concat_iff (by simp)]
      have hlast := ho.log.last d
      have hlater := ha.later
      rw [hd] at hlater
      have hflag : (V3.eventOf keccak s a.pubInputs).postDisconnection =
          decide (((V3.eventOf keccak s a.pubInputs).gapFromPrevious.toNat : ℤ) > 172800) := V3.gapFlag_iff _
      have hgap : (V3.eventOf keccak s a.pubInputs).gapFromPrevious =
          V3.gapOf (s.lastSubmissionTimestamp d) a.pubInputs.epochStartTs := by rw [← hd]; rfl
      have htime : (V3.eventOf keccak s a.pubInputs).timestamp = a.pubInputs.epochStartTs := rfl
      rw [hflag, hgap, htime, List.getLast?_map]
      rcases he : (V3.eventsOf s d).getLast? with - | l
      · rw [he] at hlast
        rw [show s.lastSubmissionTimestamp d = 0 from hlast, V3.gapOf_zero]
        exact ⟨ho.ordered d, by simp, rfl, rfl⟩
      · rw [he] at hlast
        have hl : s.lastSubmissionTimestamp d = l.timestamp := hlast
        have hl0 : l.timestamp ≠ 0 := ho.positive l (List.mem_of_mem_filter (List.mem_of_getLast? he))
        have hlt : l.timestamp < a.pubInputs.epochStartTs := by
          rw [hl] at hlater
          exact hlater.resolve_left hl0
        have hg := V3.toNat_gapOf hl0 hlt
        rw [hl, Option.map_some]
        exact ⟨ho.ordered d, by simpa using hlt, hg, by rw [hg]; rfl⟩

end Ordered

end Harness

open Harness

/-! ### `V3Properties` -/

namespace V3Properties

/-- The addresses of the harness itself and of its `UnauthorizedCaller`. -/
structure Contracts extends Mocks where
  self : Address
  unauth : Address
  self_ne_zero : self ≠ 0
  unauth_ne_self : unauth ≠ self

structure State where
  v3 : V3State
  violated_counterMonotonic : Bool
  violated_pausedAcceptedSubmit : Bool
  violated_sessionKeyReuse : Bool
  violated_nonOperatorAccepted : Bool
  violated_timestampNonMonotonic : Bool
  submitCount : U64 → UInt256
  lastTimestamp : U64 → U64
  seenSessionKey : Bytes32 → Bool

def MAX_TS_LOOKBACK : U64 := 604800

def boundEpochTs (b : Block) (seed : U64) : U64 :=
  let currentTs : U64 := b.timestamp.setWidth 64
  if currentTs ≤ MAX_TS_LOOKBACK then seed % 86400 + 1 else currentTs - seed % MAX_TS_LOOKBACK

/-- What the fuzzer chooses for a submission. -/
structure Seeds where
  deviceIdSeed : U64
  sessionIdSeed : U64
  epochTsSeed : U64
  payloadHash : Bytes32

namespace Seeds

def deviceId (x : Seeds) : U64 := x.deviceIdSeed % DEVICE_COUNT + 1

def args (x : Seeds) (b : Block) : SubmitArgs :=
  submitArgs x.deviceId x.sessionIdSeed (boundEpochTs b x.epochTsSeed) x.payloadHash x.payloadHash

end Seeds

variable (keccak : Bytes → Bytes32) (k : Contracts)

def construct (b : Block) : Except V3Error State := do
  let v3 ← deploy keccak k.toMocks b k.self [(V3.OPERATOR_ROLE keccak, k.self), (V3.PAUSER_ROLE keccak, k.self)]
  return ⟨v3, false, false, false, false, false, fun _ => 0, fun _ => 0, fun _ => false⟩

def submitAsOperator (b : Block) (h : State) (x : Seeds) : Except V3Error State :=
  let deviceId := x.deviceId
  let epochStartTs := boundEpochTs b x.epochTsSeed
  let wasPaused := h.v3.paused
  let sessionKey := V3.sessionKey keccak deviceId x.sessionIdSeed
  let wasSeenSessionKey := h.seenSessionKey sessionKey
  let prevTs := h.lastTimestamp deviceId
  match V3.submitProof keccak (envOf keccak k.toMocks b k.self) h.v3 (x.args b) with
  | .ok v3 => do
    -- the checked increment is inside the `try` block's success branch: its panic reverts the submission too
    let count ← checkedAdd .panic (h.submitCount deviceId) 1
    return { h with
      v3 := v3
      violated_pausedAcceptedSubmit := h.violated_pausedAcceptedSubmit || wasPaused
      violated_sessionKeyReuse := h.violated_sessionKeyReuse || wasSeenSessionKey
      seenSessionKey := Function.update h.seenSessionKey sessionKey true
      violated_timestampNonMonotonic :=
        h.violated_timestampNonMonotonic || (decide (prevTs ≠ 0) && decide (epochStartTs ≤ prevTs))
      lastTimestamp := Function.update h.lastTimestamp deviceId epochStartTs
      submitCount := Function.update h.submitCount deviceId count }
  | .error _ => .ok h

/-- Through `UnauthorizedCaller.attemptSubmit`, which reports whether the call went through. -/
def submitAsUnauthorized (b : Block) (h : State) (x : Seeds) : Except V3Error State :=
  match V3.submitProof keccak (envOf keccak k.toMocks b k.unauth) h.v3 (x.args b) with
  | .ok v3 => .ok { h with v3 := v3, violated_nonOperatorAccepted := true }
  | .error _ => .ok h

def pause (b : Block) (h : State) : Except V3Error State :=
  if h.v3.paused = false then do
    let v3 ← V3.pause keccak (envOf keccak k.toMocks b k.self) h.v3
    return { h with v3 := v3 }
  else .ok h

def unpause (b : Block) (h : State) : Except V3Error State :=
  if h.v3.paused = true then do
    let v3 ← V3.unpause (envOf keccak k.toMocks b k.self) h.v3
    return { h with v3 := v3 }
  else .ok h

inductive Call
  | submitAsOperator (x : Seeds)
  | submitAsUnauthorized (x : Seeds)
  | pause
  | unpause

def call (b : Block) (h : State) : Call → Except V3Error State
  | .submitAsOperator x => submitAsOperator keccak k b h x
  | .submitAsUnauthorized x => submitAsUnauthorized keccak k b h x
  | .pause => pause keccak k b h
  | .unpause => unpause keccak k b h

/-- A transaction of the fuzzer. Its sender is free: the harness never looks at `msg.sender`. -/
structure Tx where
  block : Block
  call : Call

def exec (h : State) (t : Tx) : State :=
  match call keccak k t.block h t.call with
  | .ok h' => h'
  | .error _ => h

def echidna_counter_monotonic (h : State) : Bool := !h.violated_counterMonotonic
def echidna_paused_blocks_submit (h : State) : Bool := !h.violated_pausedAcceptedSubmit
def echidna_session_key_unique (h : State) : Bool := !h.violated_sessionKeyReuse
def echidna_non_operator_cannot_submit (h : State) : Bool := !h.violated_nonOperatorAccepted
def echidna_timestamp_monotonic (h : State) : Bool := !h.violated_timestampNonMonotonic

/-- The roles that the constructor leaves, and that no transaction of the harness changes. -/
structure Roled (keccak : Bytes → Bytes32) (k : Contracts) (s : V3State) : Prop where
  operator : AccessControl.hasRole s.roles (V3.OPERATOR_ROLE keccak) k.self = true
  pauser : AccessControl.hasRole s.roles (V3.PAUSER_ROLE keccak) k.self = true
  admin : V3.IsAdmin s k.self
  outsider : NoRole s.roles k.unauth

structure Inv (keccak : Bytes → Bytes32) (k : Contracts) (h : State) : Prop where
  wired : Wired keccak k.toMocks h.v3
  roled : Roled keccak k h.v3
  ordered : Ordered keccak h.v3
  flags : h.violated_counterMonotonic = false ∧ h.violated_pausedAcceptedSubmit = false ∧
    h.violated_sessionKeyReuse = false ∧ h.violated_nonOperatorAccepted = false ∧ h.violated_timestampNonMonotonic = false
  seen : h.seenSessionKey = h.v3.usedSessionKeys
  last : ∀ d, h.lastTimestamp d = h.v3.lastSubmissionTimestamp (bytes32OfU64 d)
  count : ∀ d, (h.submitCount d).toNat = (V3.eventsOf h.v3 (bytes32OfU64 d)).length

variable {keccak k} {h h' : State} {b : Block} {x : Seeds}

theorem toNat_boundEpochTs (b : Block) (seed : U64) :
    (boundEpochTs b seed).toNat = if b.timestamp.toNat % 2 ^ 64 ≤ 604800 then seed.toNat % 86400 + 1
      else b.timestamp.toNat % 2 ^ 64 - seed.toNat % 604800 := by
  have hm : MAX_TS_LOOKBACK.toNat = 604800 := rfl
  have hc : (b.timestamp.setWidth 64 : U64) ≤ MAX_TS_LOOKBACK ↔ b.timestamp.toNat % 2 ^ 64 ≤ 604800 := by
    rw [BitVec.le_def, BitVec.toNat_setWidth, hm]
  unfold boundEpochTs
  simp only [hc]
  split
  case isTrue =>
    have hd : (86400 : U64).toNat = 86400 := rfl
    rw [BitVec.toNat_add, BitVec.toNat_umod, hd, show (1 : U64).toNat = 1 from rfl]
    omega
  case isFalse hlt =>
    rw [BitVec.toNat_sub_of_le, BitVec.toNat_umod, BitVec.toNat_setWidth, hm]
    rw [BitVec.le_def, BitVec.toNat_umod, BitVec.toNat_setWidth, hm]
    omega

/-- No submission of the harness has the epoch 0. -/
theorem boundEpochTs_ne_zero (b : Block) (seed : U64) : boundEpochTs b seed ≠ 0 := by
  intro h
  have ht := toNat_boundEpochTs b seed
  rw [h, show (0 : U64).toNat = 0 from rfl] at ht
  split at ht <;> omega

namespace Inv

theorem construct (hc : V3Properties.construct keccak k b = .ok h) : Inv keccak k h := by
  obtain ⟨s, hs, hd, hr⟩ := @deploy_eq_ok keccak k.toMocks b k.self k.self_ne_zero
    [(V3.OPERATOR_ROLE keccak, k.self), (V3.PAUSER_ROLE keccak, k.self)]
  rw [V3Properties.construct, hs, ok_bind, pure_eq_ok] at hc
  subst hc
  have hev (d : Bytes32) : V3.eventsOf s d = [] := by rw [V3.eventsOf_same hd.same]; rfl
  refine ⟨hd.wired, ⟨?_, ?_, hd.admin, ?_⟩, Ordered.fresh.same hd.same, ⟨rfl, rfl, rfl, rfl, rfl⟩, ?_, ?_, ?_⟩
  · simp [hr]
  · simp [hr]
  · intro role
    simp [hr, k.unauth_ne_self]
  · exact hd.same.used.symm
  · intro d
    exact (congrFun hd.same.last _).symm
  · intro d
    rw [hev]
    rfl

/-- A step that only switches the pause leaves everything else as it was. -/
theorem same (hi : Inv keccak k h) {s' : V3State} (hs : V3.SameSubmissions h.v3 s') (hw : Wired keccak k.toMocks s')
    (hr : s'.roles = h.v3.roles) : Inv keccak k { h with v3 := s' } := by
  refine ⟨hw, ⟨?_, ?_, ?_, ?_⟩, hi.ordered.same hs, hi.flags, ?_, ?_, ?_⟩
  · rw [hr]
    exact hi.roled.operator
  · rw [hr]
    exact hi.roled.pauser
  · rw [V3.IsAdmin, hr]
    exact hi.roled.admin
  · rw [hr]
    exact hi.roled.outsider
  · exact hi.seen.trans hs.used.symm
  · intro d
    rw [hs.last]
    exact hi.last d
  · intro d
    rw [V3.eventsOf_same hs]
    exact hi.count d

/-- With the copies right none of the tests after an accepted submission raises its flag. -/
theorem accepted (hi : Inv keccak k h) {count : UInt256} (ha : V3.Accepts keccak (envOf keccak k.toMocks b k.self) h.v3 (x.args b))
    (hlt : (h.submitCount x.deviceId).toNat + 1 < 2 ^ 256) (hcount : count = h.submitCount x.deviceId + 1) :
    Inv keccak k { h with
      v3 := V3.accepted keccak h.v3 (x.args b).pubInputs
      violated_pausedAcceptedSubmit := h.violated_pausedAcceptedSubmit || h.v3.paused
      violated_sessionKeyReuse :=
        h.violated_sessionKeyReuse || h.seenSessionKey (V3.sessionKey keccak x.deviceId x.sessionIdSeed)
      seenSessionKey := Function.update h.seenSessionKey (V3.sessionKey keccak x.deviceId x.sessionIdSeed) true
      violated_timestampNonMonotonic := h.violated_timestampNonMonotonic ||
        (decide (h.lastTimestamp x.deviceId ≠ 0) && decide (boundEpochTs b x.epochTsSeed ≤ h.lastTimestamp x.deviceId))
      lastTimestamp := Function.update h.lastTimestamp x.deviceId (boundEpochTs b x.epochTsSeed)
      submitCount := Function.update h.submitCount x.deviceId count } := by
  have hunused : h.seenSessionKey (V3.sessionKey keccak x.deviceId x.sessionIdSeed) = false := hi.seen ▸ ha.unused
  have hlater : h.lastTimestamp x.deviceId = 0 ∨ h.lastTimestamp x.deviceId < boundEpochTs b x.epochTsSeed := by
    rw [hi.last]
    exact ha.later
  obtain ⟨f1, f2, f3, f4, f5⟩ := hi.flags
  refine ⟨?_, ?_, hi.ordered.accepted ha (boundEpochTs_ne_zero b _), ⟨f1, ?_, ?_, f4, ?_⟩, ?_, ?_, ?_⟩
  · exact ⟨hi.wired.registry, hi.wired.p256, hi.wired.honk, by simp [V3.accepted, ReentrancyGuard.NOT_ENTERED, ReentrancyGuard.ENTERED]⟩
  · exact ⟨hi.roled.operator, hi.roled.pauser, hi.roled.admin, hi.roled.outsider⟩
  · simp [f2, ha.notPaused]
  · simp [f3, hunused]
  · rcases hlater with h0 | hlt
    · simp [f5, h0]
    · simp [f5, BitVec.not_le.2 hlt]
  · show Function.update h.seenSessionKey _ true = Function.update h.v3.usedSessionKeys _ true
    rw [hi.seen]
    rfl
  · intro d
    show Function.update h.lastTimestamp x.deviceId _ d =
      Function.update h.v3.lastSubmissionTimestamp (bytes32OfU64 x.deviceId) _ (bytes32OfU64 d)
    by_cases hd : d = x.deviceId
    · rw [hd, Function.update_self, Function.update_self]
      rfl
    · rw [Function.update_of_ne hd, Function.update_of_ne (fun h => hd (bytes32OfU64_inj.1 h)), hi.last]
  · intro d
    show (Function.update h.submitCount x.deviceId count d).toNat = _
    have hdev : (x.args b).pubInputs.deviceId = x.deviceId := rfl
    rw [V3.eventsOf_accepted, List.length_append, ← hi.count, hdev]
    by_cases hd : d = x.deviceId
    · rw [hd, Function.update_self, if_pos rfl, hcount, toNat_add_of_lt hlt]
      rfl
    · rw [Function.update_of_ne hd, if_neg (fun h => hd (bytes32OfU64_inj.1 h).symm)]
      rfl

theorem call (hi : Inv keccak k h) {c : Call} (hc : V3Properties.call keccak k b h c = .ok h') : Inv keccak k h' := by
  cases c with
  | submitAsOperator x =>
    simp only [V3Properties.call, V3Properties.submitAsOperator] at hc
    split at hc
    case h_1 v3 hv3 =>
      obtain ⟨ha, rfl⟩ := V3.submitProof_eq_ok_iff.1 hv3
      simp only [bind_eq_ok, pure_eq_ok, checkedAdd_eq_ok] at hc
      obtain ⟨count, ⟨hlt, hcount⟩, rfl⟩ := hc
      exact hi.accepted ha hlt hcount
    case h_2 =>
      cases hc
      exact hi
  | submitAsUnauthorized x =>
    simp only [V3Properties.call, V3Properties.submitAsUnauthorized] at hc
    split at hc
    case h_1 v3 hv3 =>
      have ho := (V3.submitProof_eq_ok_iff.1 hv3).1.operator
      exact absurd ho (by simp [show AccessControl.hasRole h.v3.roles _ (envOf keccak k.toMocks b k.unauth).sender = false
        from hi.roled.outsider _])
    case h_2 =>
      cases hc
      exact hi
  | pause =>
    simp only [V3Properties.call, V3Properties.pause] at hc
    split at hc
    case isTrue =>
      simp only [bind_eq_ok, pure_eq_ok, V3.pause_eq_ok_iff] at hc
      obtain ⟨_, ⟨-, -, rfl⟩, rfl⟩ := hc
      exact hi.same (.update (by simp [V3.proofEvent]) ⟨rfl, rfl, rfl⟩)
        ⟨hi.wired.registry, hi.wired.p256, hi.wired.honk, hi.wired.notEntered⟩ rfl
    case isFalse =>
      cases hc
      exact hi
  | unpause =>
    simp only [V3Properties.call, V3Properties.unpause] at hc
    split at hc
    case isTrue =>
      simp only [bind_eq_ok, pure_eq_ok, V3.unpause_eq_ok_iff] at hc
      obtain ⟨_, ⟨-, -, rfl⟩, rfl⟩ := hc
      exact hi.same (.update (by simp [V3.proofEvent]) ⟨rfl, rfl, rfl⟩)
        ⟨hi.wired.registry, hi.wired.p256, hi.wired.honk, hi.wired.notEntered⟩ rfl
    case isFalse =>
      cases hc
      exact hi

theorem exec (hi : Inv keccak k h) (t : Tx) : Inv keccak k (exec keccak k h t) := by
  rw [V3Properties.exec]
  split
  case h_1 h' hc => exact hi.call hc
  case h_2 => exact hi

theorem run (hi : Inv keccak k h) (txs : List Tx) : Inv keccak k (Runs.run (V3Properties.exec keccak k) h txs) :=
  Runs.run_inv hi (fun _ t hs => hs.exec t) txs

end Inv

theorem construct_ok (keccak : Bytes → Bytes32) (k : Contracts) (b : Block) : ∃ h, construct keccak k b = .ok h := by
  obtain ⟨s, hs, -⟩ := @deploy_eq_ok keccak k.toMocks b k.self k.self_ne_zero
    [(V3.OPERATOR_ROLE keccak, k.self), (V3.PAUSER_ROLE keccak, k.self)]
  exact ⟨_, by rw [construct, hs, ok_bind]; rfl⟩

/-- What the fuzzer reports, and what the harness has copied from the proxy. -/
structure Correct (h : State) : Prop where
  counter_monotonic : echidna_counter_monotonic h = true
  paused_blocks_submit : echidna_paused_blocks_submit h = true
  session_key_unique : echidna_session_key_unique h = true
  non_operator_cannot_submit : echidna_non_operator_cannot_submit h = true
  timestamp_monotonic : echidna_timestamp_monotonic h = true
  seen : h.seenSessionKey = h.v3.usedSessionKeys
  last : ∀ d, h.lastTimestamp d = h.v3.lastSubmissionTimestamp (bytes32OfU64 d)
  count : ∀ d, (h.submitCount d).toNat = (V3.eventsOf h.v3 (bytes32OfU64 d)).length
  ordered : ∀ d, V3.TimeOrdered ((V3.eventsOf h.v3 d).map (·.timestamp)) (V3.eventsOf h.v3 d)

/-- The constructor goes through, and in every run after it the five properties hold of a proxy that the harness knows. -/
theorem properties_hold (keccak : Bytes → Bytes32) (k : Contracts) (b : Block) :
    ∃ h₀, construct keccak k b = .ok h₀ ∧ ∀ txs, Correct (Runs.run (exec keccak k) h₀ txs) := by
  obtain ⟨h₀, hc⟩ := construct_ok keccak k b
  refine ⟨h₀, hc, ?_⟩
  intro txs
  have hi := (Inv.construct hc).run txs
  obtain ⟨f1, f2, f3, f4, f5⟩ := hi.flags
  refine ⟨?_, ?_, ?_, ?_, ?_, hi.seen, hi.last, hi.count, hi.ordered.ordered⟩
  · rw [echidna_counter_monotonic, f1, Bool.not_false]
  · rw [echidna_paused_blocks_submit, f2, Bool.not_false]
  · rw [echidna_session_key_unique, f3, Bool.not_false]
  · rw [echidna_non_operator_cannot_submit, f4, Bool.not_false]
  · rw [echidna_timestamp_monotonic, f5, Bool.not_false]

/-- The contract and its caller; a day's submission, one without the role, the same once more, one while paused, and the next
day's of the same device. -/
def contracts : Contracts := ⟨mocks, 5, 6, by decide, by decide⟩

def week : List Tx :=
  [⟨noon 100, .submitAsOperator ⟨7, 1, 0, 9⟩⟩, ⟨noon 100, .submitAsUnauthorized ⟨7, 2, 0, 9⟩⟩,
    ⟨noon 101, .submitAsOperator ⟨7, 1, 0, 9⟩⟩, ⟨noon 101, .pause⟩, ⟨noon 102, .submitAsOperator ⟨8, 1, 0, 9⟩⟩,
    ⟨noon 102, .unpause⟩, ⟨noon 103, .submitAsOperator ⟨7, 3, 0, 9⟩⟩]

/-- What the harness knows of device 3 after the week, and of its session 4. -/
theorem week_device : (construct lastWord contracts (noon 99)).toOption.map (fun h₀ =>
    let h := Runs.run (exec lastWord contracts) h₀ week
    (h.v3.paused, h.submitCount 3, h.lastTimestamp 3, h.seenSessionKey (V3.sessionKey lastWord 3 4))) =
      some (false, 2, 8942400, false) := by
  decide +kernel

theorem properties_hold_week : ∃ h₀, construct lastWord contracts (noon 99) = .ok h₀ ∧
    Correct (Runs.run (exec lastWord contracts) h₀ week) ∧
    (V3.eventsOf (Runs.run (exec lastWord contracts) h₀ week).v3 (bytes32OfU64 3)).length = 2 := by
  obtain ⟨h₀, hc, hall⟩ := properties_hold lastWord contracts (noon 99)
  have hweek := week_device
  rw [hc] at hweek
  have hcount := congrArg (·.2.1) (Option.some.inj hweek)
  refine ⟨h₀, hc, hall week, ?_⟩
  rw [← (hall week).count 3]
  exact congrArg BitVec.toNat hcount

/-- The bounded epoch passes the proxy's drift check, except at a block so early that the harness falls back on the seed. -/
theorem boundEpochTs_le_iff (b : Block) (seed : U64) : (boundEpochTs b seed).toNat ≤ b.timestamp.toNat + 300 ↔
    604800 < b.timestamp.toNat % 2 ^ 64 ∨ seed.toNat % 86400 + 1 ≤ b.timestamp.toNat + 300 := by
  rw [toNat_boundEpochTs]
  split <;> omega

/-- The operator's transaction either submits or, reverted or caught, does nothing. -/
theorem exec_submitAsOperator (h : State) (b : Block) (x : Seeds) :
    let takes := V3.Accepts keccak (envOf keccak k.toMocks b k.self) h.v3 (x.args b) ∧
      (h.submitCount x.deviceId).toNat + 1 < 2 ^ 256
    (takes → (exec keccak k h ⟨b, .submitAsOperator x⟩).v3 = V3.accepted keccak h.v3 (x.args b).pubInputs) ∧
      (¬ takes → exec keccak k h ⟨b, .submitAsOperator x⟩ = h) := by
  intro takes
  rw [exec, call, submitAsOperator]
  constructor
  · rintro ⟨ha, hlt⟩
    have hcount : checkedAdd V3Error.panic (h.submitCount x.deviceId) 1 = .ok _ := checkedAdd_eq_ok.2 ⟨hlt, rfl⟩
    simp only [V3.submitProof_eq_ok_iff.2 ⟨ha, rfl⟩, hcount, ok_bind]
    rfl
  · intro hn
    rcases hs : V3.submitProof keccak (envOf keccak k.toMocks b k.self) h.v3 (x.args b) with e | v3
    · rfl
    · have hlt : ¬ (h.submitCount x.deviceId).toNat + (1 : UInt256).toNat < 2 ^ 256 :=
        fun hlt => hn ⟨(V3.submitProof_eq_ok_iff.1 hs).1, hlt⟩
      simp only [checkedAdd, if_neg hlt]
      rfl

/-- In every reachable state: which submissions of the operator the proxy takes. -/
theorem submitAsOperator_accepted_iff (keccak : Bytes → Bytes32) (k : Contracts) (b : Block) :
    ∃ h₀, construct keccak k b = .ok h₀ ∧ ∀ txs h, h = Runs.run (exec keccak k) h₀ txs → ∀ b x,
      V3.proofs (exec keccak k h ⟨b, .submitAsOperator x⟩).v3 ≠ V3.proofs h.v3 ↔
        h.v3.paused = false ∧ b.timestamp.toNat + 300 < 2 ^ 256 ∧
        (604800 < b.timestamp.toNat % 2 ^ 64 ∨ x.epochTsSeed.toNat % 86400 + 1 ≤ b.timestamp.toNat + 300) ∧
        h.seenSessionKey (V3.sessionKey keccak x.deviceId x.sessionIdSeed) = false ∧
        h.lastTimestamp x.deviceId < boundEpochTs b x.epochTsSeed ∧ (h.submitCount x.deviceId).toNat + 1 < 2 ^ 256 := by
  obtain ⟨h₀, hc⟩ := construct_ok keccak k b
  refine ⟨h₀, hc, ?_⟩
  rintro txs h rfl b x
  have hi := (Inv.construct hc).run txs
  set h := Runs.run (exec keccak k) h₀ txs
  have ht : boundEpochTs b x.epochTsSeed ≠ 0 := boundEpochTs_ne_zero b _
  have hlater : (h.lastTimestamp x.deviceId = 0 ∨ h.lastTimestamp x.deviceId < boundEpochTs b x.epochTsSeed) ↔
      h.lastTimestamp x.deviceId < boundEpochTs b x.epochTsSeed := by
    refine or_iff_right_of_imp fun h0 => ?_
    rw [h0]
    bv_omega
  have ha := @accepts_iff keccak k.toMocks h.v3 b k.self hi.wired x.deviceIdSeed x.sessionIdSeed
    (boundEpochTs b x.epochTsSeed) x.payloadHash x.payloadHash
  rw [← hi.seen, boundEpochTs_le_iff, ← hi.last] at ha
  obtain ⟨htakes, hnot⟩ := @exec_submitAsOperator keccak k h b x
  constructor
  · intro hne
    obtain ⟨hacc, hlt⟩ := not_not.1 fun hn => hne (congrArg (fun h => V3.proofs h.v3) (hnot hn))
    obtain ⟨hp, -, hn, he, -, hu, hl⟩ := ha.1 hacc
    exact ⟨hp, hn, he, hu, hlater.1 hl, hlt⟩
  · rintro ⟨hp, hn, he, hu, hl, hlt⟩
    have hacc := ha.2 ⟨hp, hi.roled.operator, hn, he, rfl, hu, .inr hl⟩
    rw [htakes ⟨hacc, hlt⟩, V3.proofs_accepted]
    simp

/-- After the week a new session is taken on the next day, and not on the same. -/
theorem submitAsOperator_accepted_iff_week : ∃ h₀, construct lastWord contracts (noon 99) = .ok h₀ ∧
    let h := Runs.run (exec lastWord contracts) h₀ week
    V3.proofs (exec lastWord contracts h ⟨noon 104, .submitAsOperator ⟨7, 4, 0, 9⟩⟩).v3 ≠ V3.proofs h.v3 ∧
      V3.proofs (exec lastWord contracts h ⟨noon 103, .submitAsOperator ⟨7, 4, 0, 9⟩⟩).v3 = V3.proofs h.v3 := by
  obtain ⟨h₀, hc, hiff⟩ := submitAsOperator_accepted_iff lastWord contracts (noon 99)
  have hweek := week_device
  rw [hc] at hweek
  obtain ⟨hpaused, hcount, hlast, hseen⟩ : _ ∧ _ ∧ _ ∧ _ := by simpa using Option.some.inj hweek
  have htaken := hiff week _ rfl (noon 104) ⟨7, 4, 0, 9⟩
  have hrefused := hiff week _ rfl (noon 103) ⟨7, 4, 0, 9⟩
  refine ⟨h₀, hc, htaken.2 ⟨hpaused, by decide, .inl (by decide), hseen, ?_, ?_⟩, not_not.1 fun hne => ?_⟩
  · exact hlast.trans_lt (by decide +kernel)
  · exact (congrArg (fun c : UInt256 => c.toNat + 1) hcount).trans_lt (by decide)
  · obtain ⟨-, -, -, -, hlater, -⟩ := hrefused.1 hne
    exact absurd (hlast.symm.trans_lt hlater) (by decide +kernel)

end V3Properties

/-! ### `V3InvariantHandler` -/

namespace V3InvariantHandler

/-- The addresses of the test contract, which administers the proxy, and of the handler. -/
structure Contracts extends Mocks where
  test : Address
  handler : Address
  test_ne_zero : test ≠ 0

structure Capture where
  gapFromPrevious : U64
  postDisconnection : Bool
  piPayloadHash : Bytes32
  paramPayloadHash : Bytes32

structure State where
  v3 : V3State
  captures : List Capture

def MAX_GAP_SECONDS : U64 := 172800

def epochOf (b : Block) (epochTsSeed : U64) : U64 :=
  let currentTs : U64 := b.timestamp.setWidth 64
  let lookback : U64 := epochTsSeed % 604800
  if currentTs > lookback then currentTs - lookback else 1

structure Tx where
  block : Block
  deviceIdSeed : U64
  sessionIdSeed : U64
  epochTsSeed : U64
  piPayloadHash : Bytes32
  paramPayloadHash : Bytes32

variable (keccak : Bytes → Bytes32) (k : Contracts)

def setUp (b : Block) : Except V3Error State := do
  let v3 ← deploy keccak k.toMocks b k.test [(V3.OPERATOR_ROLE keccak, k.handler)]
  return ⟨v3, []⟩

def Tx.args (t : Tx) : SubmitArgs :=
  submitArgs (t.deviceIdSeed % DEVICE_COUNT + 1) t.sessionIdSeed (epochOf t.block t.epochTsSeed) t.piPayloadHash
    t.paramPayloadHash

/-- The logs of the call are those that it appended; of them only `ProofSubmitted` has the topic. -/
def submit (h : State) (t : Tx) : State :=
  match V3.submitProof keccak (envOf keccak k.toMocks t.block k.handler) h.v3 t.args with
  | .ok v3 =>
    let logs := v3.log.drop h.v3.log.length
    { v3 := v3
      captures := h.captures ++ (logs.filterMap V3.proofEvent).map fun e =>
        ⟨e.gapFromPrevious, e.postDisconnection, t.piPayloadHash, t.paramPayloadHash⟩ }
  | .error _ => h

def invariant_postDisconnectionMatchesGap (h : State) : Bool :=
  h.captures.all fun c => c.postDisconnection == decide (c.gapFromPrevious > MAX_GAP_SECONDS)

def invariant_payloadHashConsistency (h : State) : Bool :=
  h.captures.all fun c => c.piPayloadHash == c.paramPayloadHash

/-- The captures are the proxy's events, each with the payload hash that was submitted. -/
structure Inv (keccak : Bytes → Bytes32) (h : State) : Prop where
  ordered : Ordered keccak h.v3
  captured : h.captures.map (fun c => (c.gapFromPrevious, c.postDisconnection)) =
    (V3.proofs h.v3).map fun e => (e.gapFromPrevious, e.postDisconnection)
  flags : ∀ c ∈ h.captures, c.postDisconnection = decide (c.gapFromPrevious > MAX_GAP_SECONDS)
  hashes : ∀ c ∈ h.captures, c.piPayloadHash = c.paramPayloadHash

variable {keccak k} {h : State}

theorem epochOf_ne_zero (b : Block) (seed : U64) : epochOf b seed ≠ 0 := by
  intro h
  unfold epochOf at h
  simp only at h
  split at h
  case isTrue hlt =>
    rw [gt_iff_lt, BitVec.lt_def] at hlt
    have := BitVec.toNat_sub_of_le (BitVec.le_def.2 hlt.le)
    rw [h, show (0 : U64).toNat = 0 from rfl] at this
    omega
  case isFalse => cases h

namespace Inv

theorem setUp {b : Block} (hc : V3InvariantHandler.setUp keccak k b = .ok h) : Inv keccak h := by
  obtain ⟨s, hs, hd, -⟩ := @deploy_eq_ok keccak k.toMocks b k.test k.test_ne_zero
    [(V3.OPERATOR_ROLE keccak, k.handler)]
  rw [V3InvariantHandler.setUp, hs, ok_bind, pure_eq_ok] at hc
  subst hc
  exact ⟨Ordered.fresh.same hd.same, by rw [hd.same.proofs]; rfl, fun _ hc => absurd hc List.not_mem_nil,
    fun _ hc => absurd hc List.not_mem_nil⟩

theorem submit (hi : Inv keccak h) (t : Tx) : Inv keccak (submit keccak k h t) := by
  rw [V3InvariantHandler.submit]
  split
  case h_2 => exact hi
  case h_1 v3 hv3 =>
    obtain ⟨ha, rfl⟩ := V3.submitProof_eq_ok_iff.1 hv3
    have hlogs : ((V3.accepted keccak h.v3 t.args.pubInputs).log.drop h.v3.log.length).filterMap V3.proofEvent =
        [V3.eventOf keccak h.v3 t.args.pubInputs] := by
      simp [V3.accepted, V3.proofEvent]
    simp only [hlogs, List.map_singleton]
    refine ⟨hi.ordered.accepted ha (epochOf_ne_zero t.block _), ?_, ?_, ?_⟩
    · rw [List.map_append, hi.captured, V3.proofs_accepted, List.map_append]
      rfl
    · intro c hc
      rw [List.mem_append, List.mem_singleton] at hc
      rcases hc with hc | rfl
      · exact hi.flags c hc
      · rfl
    · intro c hc
      rw [List.mem_append, List.mem_singleton] at hc
      rcases hc with hc | rfl
      · exact hi.hashes c hc
      · exact ha.payloadHash

end Inv

/-- `setUp` goes through, and in every run after it both invariants hold of captures that are exactly the proxy's
events; the gaps they record are those between the epochs of one device. -/
theorem invariants_hold (keccak : Bytes → Bytes32) (k : Contracts) (b : Block) :
    ∃ h₀, setUp keccak k b = .ok h₀ ∧ ∀ txs h, h = Runs.run (submit keccak k) h₀ txs →
      invariant_postDisconnectionMatchesGap h = true ∧ invariant_payloadHashConsistency h = true ∧
      h.captures.map (fun c => (c.gapFromPrevious, c.postDisconnection)) =
        (V3.proofs h.v3).map (fun e => (e.gapFromPrevious, e.postDisconnection)) ∧
      ∀ d, V3.TimeOrdered ((V3.eventsOf h.v3 d).map (·.timestamp)) (V3.eventsOf h.v3 d) := by
  obtain ⟨s, hs, -⟩ := @deploy_eq_ok keccak k.toMocks b k.test k.test_ne_zero
    [(V3.OPERATOR_ROLE keccak, k.handler)]
  have hc : setUp keccak k b = .ok ⟨s, []⟩ := by rw [setUp, hs, ok_bind]; rfl
  refine ⟨_, hc, ?_⟩
  rintro txs h rfl
  have hi := Runs.run_inv (Inv.setUp hc) (fun _ t hs => Inv.submit (k := k) hs t) txs
  refine ⟨?_, ?_, hi.captured, hi.ordered.ordered⟩
  · exact List.all_eq_true.2 fun c hc => beq_iff_eq.2 (hi.flags c hc)
  · exact List.all_eq_true.2 fun c hc => beq_iff_eq.2 (hi.hashes c hc)

/-- Three submissions of device 3, the last after three days, and one of another with two hashes. -/
def contracts : Contracts := ⟨mocks, 5, 6, by decide⟩

def submissions : List Tx :=
  [⟨noon 100, 7, 1, 0, 9, 9⟩, ⟨noon 101, 7, 2, 0, 9, 9⟩, ⟨noon 102, 8, 1, 0, 9, 8⟩, ⟨noon 104, 2, 3, 0, 5, 5⟩]

theorem captures_submissions : (setUp lastWord contracts (noon 99)).toOption.map (fun h₀ =>
    (Runs.run (submit lastWord contracts) h₀ submissions).captures.map fun c => (c.gapFromPrevious, c.postDisconnection)) =
      some [(0, false), (86400, false), (259200, true)] := by
  decide +kernel

theorem invariants_hold_submissions : ∃ h₀, setUp lastWord contracts (noon 99) = .ok h₀ ∧
    let h := Runs.run (submit lastWord contracts) h₀ submissions
    invariant_postDisconnectionMatchesGap h = true ∧ invariant_payloadHashConsistency h = true ∧
      (V3.proofs h.v3).map (fun e => (e.gapFromPrevious, e.postDisconnection)) =
        [(0, false), (86400, false), (259200, true)] := by
  obtain ⟨h₀, hc, hall⟩ := invariants_hold lastWord contracts (noon 99)
  obtain ⟨hgap, hhash, hcaptures, -⟩ := hall submissions _ rfl
  have hvalues := captures_submissions
  rw [hc] at hvalues
  exact ⟨h₀, hc, hgap, hhash, hcaptures.symm.trans (Option.some.inj hvalues)⟩

end V3InvariantHandler
end InfraVeritas
