import InfraVeritas.OpenZeppelin

/-!
# `EnergyProofRegistryV3`

The proxy's storage and event log, and every state-changing external function except the UUPS
upgrade. A function returns the new state or the error it reverts with; a transaction (`V3.exec`)
that reverts leaves the state as it was. The external contracts are `view`, so no call re-enters.
-/

namespace InfraVeritas
open Checks

structure PublicInputs where
  deviceId : U64
  sessionId : U64
  epochStartTs : U64
  lat_e7 : I64
  lon_e7 : I64
  lightLevel : U64
  tamperFlag : U64
  payloadHash : Bytes32
  totalEnergyMWh : U64
deriving DecidableEq, Repr

structure SubmitArgs where
  pubInputs : PublicInputs
  payloadHash : Bytes32
  signature : Bytes
  devicePubkey : Bytes
  proof : Bytes
deriving DecidableEq, Repr

structure ProofSubmitted where
  deviceId : Bytes32
  sessionKey : Bytes32
  timestamp : U64
  gapFromPrevious : U64
  postDisconnection : Bool
deriving DecidableEq, Repr

inductive V3Event
  | proofSubmitted (e : ProofSubmitted)
  | deviceRegistryChanged (oldRegistry newRegistry : Address)
  | p256VerifierChanged (oldVerifier newVerifier : Address)
  | honkVerifierChanged (oldVerifier newVerifier : Address)
  | domainSeparatorCached (chainId : UInt256) (domainSeparator : Bytes32)
  | oz (e : OZEvent)
deriving DecidableEq, Repr

inductive V3Error
  | deviceNotActive (deviceId : Bytes32)
  | invalidTimestamp (provided lastKnown : U64)
  | sessionKeyAlreadyUsed (sessionKey : Bytes32)
  | invalidP256Signature
  | invalidZKProof
  | payloadHashMismatch (expected fromPubInputs : Bytes32)
  | epochInFuture (epochTs blockTs : U64)
  | invalidSignatureLength (length : Nat)
  | invalidPubkeyLength (length : Nat)
  | zeroAddress
  | sameAddress
  | oz (e : OZError)
  | panic (code : Nat)
  | bubbled (data : Bytes)
deriving DecidableEq, Repr

structure V3State where
  deviceRegistry : Address
  p256Verifier : Address
  honkVerifier : Address
  lastSubmissionTimestamp : Bytes32 → U64
  usedSessionKeys : Bytes32 → Bool
  cachedDomainSeparator : Bytes32
  cachedChainId : UInt256
  roles : Roles
  paused : Bool
  reentrancyStatus : Nat
  initializable : Initializable
  log : List V3Event

namespace V3

def MAX_GAP_SECONDS : U64 := 172800
def MAX_EPOCH_FUTURE_DRIFT : U64 := 300
def P256_SIGNATURE_LENGTH : Nat := 64
def P256_PUBKEY_LENGTH : Nat := 64

/-- Fresh proxy storage, before `initialize`. -/
def fresh : V3State where
  deviceRegistry := 0
  p256Verifier := 0
  honkVerifier := 0
  lastSubmissionTimestamp := fun _ => 0
  usedSessionKeys := fun _ => false
  cachedDomainSeparator := 0
  cachedChainId := 0
  roles := AccessControl.empty
  paused := false
  reentrancyStatus := 0
  initializable := ⟨0, false⟩
  log := []

def emit (s : V3State) (es : List V3Event) : V3State := { s with log := s.log ++ es }

def proofEvent : V3Event → Option ProofSubmitted
  | .proofSubmitted e => some e
  | _ => none

def proofs (s : V3State) : List ProofSubmitted := s.log.filterMap proofEvent

variable (keccak : Bytes → Bytes32)

def OPERATOR_ROLE : Bytes32 := keccak "OPERATOR_ROLE".toUTF8.toList
def PAUSER_ROLE : Bytes32 := keccak "PAUSER_ROLE".toUTF8.toList
def UPGRADER_ROLE : Bytes32 := keccak "UPGRADER_ROLE".toUTF8.toList

/-! ### EIP-712 -/

def EIP712_DOMAIN_TYPEHASH : Bytes32 :=
  keccak "EIP712Domain(string name,string version,uint256 chainId,address verifyingContract)".toUTF8.toList

def ENERGY_PROOF_TYPEHASH : Bytes32 :=
  keccak ("EnergyProof(uint64 deviceId,uint64 sessionId,uint64 epochStartTs,int64 lat_e7,int64 lon_e7," ++
    "uint64 lightLevel,uint64 tamperFlag,bytes32 payloadHash,uint64 totalEnergyMWh)").toUTF8.toList

def DOMAIN_NAME_HASH : Bytes32 := keccak "InfraVeritas Energy".toUTF8.toList
def DOMAIN_VERSION_HASH : Bytes32 := keccak "1".toUTF8.toList

def buildDomainSeparator (env : Env) : Bytes32 :=
  keccak (abiEncode [EIP712_DOMAIN_TYPEHASH keccak, DOMAIN_NAME_HASH keccak, DOMAIN_VERSION_HASH keccak,
    env.chainid, addressWord env.self])

def domainSeparator (env : Env) (s : V3State) : Bytes32 :=
  if env.chainid = s.cachedChainId then s.cachedDomainSeparator else buildDomainSeparator keccak env

def structHash (pi : PublicInputs) : Bytes32 :=
  keccak (abiEncode [ENERGY_PROOF_TYPEHASH keccak, bytes32OfU64 pi.deviceId, bytes32OfU64 pi.sessionId,
    bytes32OfU64 pi.epochStartTs, bytes32OfI64 pi.lat_e7, bytes32OfI64 pi.lon_e7,
    bytes32OfU64 pi.lightLevel, bytes32OfU64 pi.tamperFlag, pi.payloadHash,
    bytes32OfU64 pi.totalEnergyMWh])

def eip712Digest (env : Env) (s : V3State) (pi : PublicInputs) : Bytes32 :=
  keccak ([0x19, 0x01] ++ wordBytes (domainSeparator keccak env s) ++ wordBytes (structHash keccak pi))

/-! ### `submitProof` -/

def sessionKey (deviceId sessionId : U64) : Bytes32 := keccak (encodePackedU64 deviceId sessionId)

def encodePublicInputs (pi : PublicInputs) : List Bytes32 :=
  [bytes32OfU64 pi.deviceId, bytes32OfU64 pi.sessionId, bytes32OfU64 pi.epochStartTs,
    bytes32OfI64 pi.lat_e7, bytes32OfI64 pi.lon_e7, bytes32OfU64 pi.lightLevel,
    bytes32OfU64 pi.tamperFlag, pi.payloadHash, bytes32OfU64 pi.totalEnergyMWh]

/-- CHECK 7a: the gap and the `postDisconnection` flag. -/
def gapCheck (previousTimestamp epochStartTs : U64) : Except V3Error (U64 × Bool) := do
  if previousTimestamp ≠ 0 then
    revertIf (epochStartTs ≤ previousTimestamp) (.invalidTimestamp epochStartTs previousTimestamp)
    let gap ← checkedSub .panic epochStartTs previousTimestamp
    return (gap, decide (gap > MAX_GAP_SECONDS))
  else
    return (0, false)

def submitProof (env : Env) (s : V3State) (a : SubmitArgs) : Except V3Error V3State := do
  let pi := a.pubInputs
  (Pausable.requireNotPaused s.paused).mapError .oz
  let status ← (ReentrancyGuard.nonReentrantBefore s.reentrancyStatus).mapError .oz
  (AccessControl.checkRole s.roles (OPERATOR_ROLE keccak) env.sender).mapError .oz
  revertIf (a.signature.length ≠ P256_SIGNATURE_LENGTH) (.invalidSignatureLength a.signature.length)
  revertIf (a.devicePubkey.length ≠ P256_PUBKEY_LENGTH) (.invalidPubkeyLength a.devicePubkey.length)
  -- CHECK 6
  let latest ← checkedAdd .panic env.timestamp (bytes32OfU64 MAX_EPOCH_FUTURE_DRIFT)
  revertIf (bytes32OfU64 pi.epochStartTs > latest)
    (.epochInFuture pi.epochStartTs (env.timestamp.setWidth 64))
  -- CHECK 3
  revertIf (pi.payloadHash ≠ a.payloadHash) (.payloadHashMismatch a.payloadHash pi.payloadHash)
  -- CHECK 5
  let key := sessionKey keccak pi.deviceId pi.sessionId
  revertIf (s.usedSessionKeys key = true) (.sessionKeyAlreadyUsed key)
  -- CHECK 7a
  let deviceIdBytes32 := bytes32OfU64 pi.deviceId
  let (gap, postDisconnection) ← gapCheck (s.lastSubmissionTimestamp deviceIdBytes32) pi.epochStartTs
  -- CHECK 1
  let active ← callBool .bubbled (env.oracles.isAuthorized s.deviceRegistry a.devicePubkey)
  revertIf (¬ active) (.deviceNotActive deviceIdBytes32)
  -- CHECK 2: the digest is the raw payload hash, not `eip712Digest`
  let digest := a.payloadHash
  let sigValid ← callBool .bubbled (env.oracles.verifyP256 s.p256Verifier digest
    (calldataload a.signature 0) (calldataload a.signature 32)
    (calldataload a.devicePubkey 0) (calldataload a.devicePubkey 32))
  revertIf (¬ sigValid) .invalidP256Signature
  -- CHECK 4
  let proofValid ← callBool .bubbled
    (env.oracles.verifyHonk s.honkVerifier a.proof (encodePublicInputs pi))
  revertIf (¬ proofValid) .invalidZKProof
  return { s with
    usedSessionKeys := Function.update s.usedSessionKeys key true
    lastSubmissionTimestamp := Function.update s.lastSubmissionTimestamp deviceIdBytes32 pi.epochStartTs
    reentrancyStatus := ReentrancyGuard.nonReentrantAfter status
    log := s.log ++ [.proofSubmitted ⟨deviceIdBytes32, key, pi.epochStartTs, gap, postDisconnection⟩] }

/-! ### Initialisation and administration -/

def cacheDomainSeparator (env : Env) (s : V3State) : V3State :=
  emit { s with
    cachedChainId := env.chainid
    cachedDomainSeparator := buildDomainSeparator keccak env }
    [.domainSeparatorCached env.chainid (buildDomainSeparator keccak env)]

/-- `_grantRole` on the proxy's storage, with its event. -/
def grantRoleInternal (env : Env) (s : V3State) (role : Bytes32) (account : Address) : V3State :=
  let (roles, es) := AccessControl.grantRoleInternal s.roles role account env.sender
  emit { s with roles := roles } (es.map .oz)

/-- The body of `initialize` after its checks, `initializer`'s exit apart. -/
def initializeBody (env : Env) (s : V3State) (admin deviceRegistry p256Verifier honkVerifier : Address) :
    V3State :=
  let s := { s with paused := false, reentrancyStatus := ReentrancyGuard.NOT_ENTERED }
  let s := grantRoleInternal env s AccessControl.DEFAULT_ADMIN_ROLE admin
  let s := grantRoleInternal env s (UPGRADER_ROLE keccak) admin
  cacheDomainSeparator keccak env { s with
    deviceRegistry := deviceRegistry
    p256Verifier := p256Verifier
    honkVerifier := honkVerifier }

/-- `initialize`. -/
def initializeProxy (env : Env) (s : V3State) (admin deviceRegistry p256Verifier honkVerifier : Address) :
    Except V3Error V3State := do
  let init ← s.initializable.beginInitializer.mapError .oz
  revertIf (admin = 0) .zeroAddress
  revertIf (deviceRegistry = 0) .zeroAddress
  revertIf (p256Verifier = 0) .zeroAddress
  revertIf (honkVerifier = 0) .zeroAddress
  let s := initializeBody keccak env { s with initializable := init } admin deviceRegistry p256Verifier honkVerifier
  let (init, es) := s.initializable.endInitializer
  return emit { s with initializable := init } (es.map .oz)

def reinitializeEIP712 (env : Env) (s : V3State) : Except V3Error V3State := do
  let init ← (s.initializable.beginReinitializer 2).mapError .oz
  (AccessControl.checkRole s.roles AccessControl.DEFAULT_ADMIN_ROLE env.sender).mapError .oz
  let s := cacheDomainSeparator keccak env { s with initializable := init }
  let (init, es) := s.initializable.endReinitializer 2
  return emit { s with initializable := init } (es.map .oz)

def pause (env : Env) (s : V3State) : Except V3Error V3State := do
  (AccessControl.checkRole s.roles (PAUSER_ROLE keccak) env.sender).mapError .oz
  let (paused, es) ← (Pausable.pause s.paused env.sender).mapError .oz
  return emit { s with paused := paused } (es.map .oz)

def unpause (env : Env) (s : V3State) : Except V3Error V3State := do
  (AccessControl.checkRole s.roles AccessControl.DEFAULT_ADMIN_ROLE env.sender).mapError .oz
  let (paused, es) ← (Pausable.unpause s.paused env.sender).mapError .oz
  return emit { s with paused := paused } (es.map .oz)

/-- The three address setters: the field's current value, its update and its event. -/
def setContract (env : Env) (s : V3State) (old : Address) (update : V3State → Address → V3State)
    (changed : Address → Address → V3Event) (newAddress : Address) : Except V3Error V3State := do
  (AccessControl.checkRole s.roles AccessControl.DEFAULT_ADMIN_ROLE env.sender).mapError .oz
  revertIf (newAddress = 0) .zeroAddress
  revertIf (newAddress = old) .sameAddress
  return emit (update s newAddress) [changed old newAddress]

def setDeviceRegistry (env : Env) (s : V3State) (newRegistry : Address) : Except V3Error V3State :=
  setContract env s s.deviceRegistry (fun s r => { s with deviceRegistry := r }) .deviceRegistryChanged newRegistry

def setP256Verifier (env : Env) (s : V3State) (newVerifier : Address) : Except V3Error V3State :=
  setContract env s s.p256Verifier (fun s v => { s with p256Verifier := v }) .p256VerifierChanged newVerifier

def setHonkVerifier (env : Env) (s : V3State) (newVerifier : Address) : Except V3Error V3State :=
  setContract env s s.honkVerifier (fun s v => { s with honkVerifier := v }) .honkVerifierChanged newVerifier

/-- `grantRole`, `revokeRole` and `renounceRole` store what `AccessControl` returns. -/
def setRoles (s : V3State) (r : Except OZError (Roles × List OZEvent)) : Except V3Error V3State := do
  let (roles, es) ← r.mapError .oz
  return emit { s with roles := roles } (es.map .oz)

/-! ### Transactions -/

inductive Call
  | initializeProxy (admin deviceRegistry p256Verifier honkVerifier : Address)
  | reinitializeEIP712
  | submitProof (a : SubmitArgs)
  | pause
  | unpause
  | setDeviceRegistry (newRegistry : Address)
  | setP256Verifier (newVerifier : Address)
  | setHonkVerifier (newVerifier : Address)
  | grantRole (role : Bytes32) (account : Address)
  | revokeRole (role : Bytes32) (account : Address)
  | renounceRole (role : Bytes32) (callerConfirmation : Address)

def call (env : Env) (s : V3State) : Call → Except V3Error V3State
  | .initializeProxy admin registry p256 honk => initializeProxy keccak env s admin registry p256 honk
  | .reinitializeEIP712 => reinitializeEIP712 keccak env s
  | .submitProof a => submitProof keccak env s a
  | .pause => pause keccak env s
  | .unpause => unpause env s
  | .setDeviceRegistry r => setDeviceRegistry env s r
  | .setP256Verifier v => setP256Verifier env s v
  | .setHonkVerifier v => setHonkVerifier env s v
  | .grantRole role account => setRoles s (AccessControl.grantRole s.roles env.sender role account)
  | .revokeRole role account => setRoles s (AccessControl.revokeRole s.roles env.sender role account)
  | .renounceRole role account => setRoles s (AccessControl.renounceRole s.roles env.sender role account)

structure Tx where
  env : Env
  call : Call

/-- A transaction: a revert undoes everything. -/
def exec (s : V3State) (t : Tx) : V3State :=
  match call keccak t.env s t.call with
  | .ok s' => s'
  | .error _ => s

/-- The proxy right after a deployment whose constructor calls `initialize`. -/
def Deployed (s : V3State) : Prop :=
  ∃ env admin registry p256 honk, initializeProxy keccak env fresh admin registry p256 honk = .ok s

end V3
end InfraVeritas
