import InfraVeritas.Lib.Runs
import InfraVeritas.OpenZeppelin

/-!
# `DeviceRegistry`

The registry's storage and event log and its external functions. Entries are keyed by
`keccak256(publicKey)`; `isAuthorized` is the view that V3 asks.
-/

namespace InfraVeritas
open Checks

/-- `int32`: the bits, read with `BitVec.toInt`. -/
abbrev I32 := BitVec 32

inductive DeviceStatus
  | Unknown
  | Active
  | Revoked
  | Suspended
deriving DecidableEq, Repr

structure Device where
  latE7 : I32
  lonE7 : I32
  registeredAt : U64
  status : DeviceStatus
deriving DecidableEq, Repr

inductive RegistryError
  | zeroAddress
  | invalidPubkeyLength (length : Nat)
  | invalidCoordinates (latE7 lonE7 : I32)
  | deviceAlreadyRegistered (pubKeyHash : Bytes32)
  | deviceNotFound (pubKeyHash : Bytes32)
  | deviceNotActive (pubKeyHash : Bytes32)
  | deviceAlreadyActive (pubKeyHash : Bytes32)
  | oz (e : OZError)
deriving DecidableEq, Repr

inductive RegistryEvent
  | deviceRegistered (pubKeyHash : Bytes32) (latE7 lonE7 : I32) (registeredAt : U64) (operator : Address)
  | deviceRevoked (pubKeyHash : Bytes32) (operator : Address)
  | deviceReactivated (pubKeyHash : Bytes32) (operator : Address)
  | deviceSuspended (pubKeyHash : Bytes32) (operator : Address)
  | oz (e : OZEvent)
deriving DecidableEq, Repr

structure RegistryState where
  roles : Roles
  devices : Bytes32 → Device
  deviceCount : UInt256
  log : List RegistryEvent

namespace DeviceRegistry

def P256_PUBKEY_LENGTH : Nat := 64
def MIN_LAT_E7 : Int := -900000000
def MAX_LAT_E7 : Int := 900000000
def MIN_LON_E7 : Int := -1800000000
def MAX_LON_E7 : Int := 1800000000

/-- Storage before the constructor runs. -/
def fresh : RegistryState := ⟨AccessControl.empty, fun _ => ⟨0, 0, 0, .Unknown⟩, 0, []⟩

def emit (s : RegistryState) (es : List RegistryEvent) : RegistryState := { s with log := s.log ++ es }

def construct (sender admin : Address) : Except RegistryError RegistryState := do
  revertIf (admin = 0) .zeroAddress
  let (roles, es) := AccessControl.grantRoleInternal fresh.roles AccessControl.DEFAULT_ADMIN_ROLE admin sender
  return emit { fresh with roles := roles } (es.map .oz)

def validateCoordinates (latE7 lonE7 : I32) : Except RegistryError PUnit := do
  revertIf (latE7.toInt < MIN_LAT_E7 ∨ latE7.toInt > MAX_LAT_E7) (.invalidCoordinates latE7 lonE7)
  revertIf (lonE7.toInt < MIN_LON_E7 ∨ lonE7.toInt > MAX_LON_E7) (.invalidCoordinates latE7 lonE7)

variable (keccak : Bytes → Bytes32)

def OPERATOR_ROLE : Bytes32 := keccak "OPERATOR_ROLE".toUTF8.toList

def getDeviceStatus (s : RegistryState) (publicKey : Bytes) : DeviceStatus := (s.devices (keccak publicKey)).status

def isAuthorized (s : RegistryState) (publicKey : Bytes) : Bool :=
  if publicKey.length ≠ P256_PUBKEY_LENGTH then false
  else decide ((s.devices (keccak publicKey)).status = .Active)

/-- The part of the transaction context that the registry reads. -/
structure Context where
  sender : Address
  timestamp : UInt256

def registerDevice (cx : Context) (s : RegistryState) (publicKey : Bytes) (latE7 lonE7 : I32) :
    Except RegistryError RegistryState := do
  (AccessControl.checkRole s.roles (OPERATOR_ROLE keccak) cx.sender).mapError .oz
  revertIf (publicKey.length ≠ P256_PUBKEY_LENGTH) (.invalidPubkeyLength publicKey.length)
  validateCoordinates latE7 lonE7
  let pubKeyHash := keccak publicKey
  revertIf ((s.devices pubKeyHash).status ≠ .Unknown) (.deviceAlreadyRegistered pubKeyHash)
  let registeredAt : U64 := cx.timestamp.setWidth 64
  return emit { s with
    devices := Function.update s.devices pubKeyHash ⟨latE7, lonE7, registeredAt, .Active⟩
    deviceCount := s.deviceCount + 1 }
    [.deviceRegistered pubKeyHash latE7 lonE7 registeredAt cx.sender]

/-- Store a new status for a device and emit its event. -/
def setStatus (s : RegistryState) (pubKeyHash : Bytes32) (status : DeviceStatus) (e : RegistryEvent) :
    RegistryState :=
  emit { s with
    devices := Function.update s.devices pubKeyHash { s.devices pubKeyHash with status := status } } [e]

def revokeDevice (cx : Context) (s : RegistryState) (publicKey : Bytes) : Except RegistryError RegistryState := do
  (AccessControl.checkRole s.roles (OPERATOR_ROLE keccak) cx.sender).mapError .oz
  let pubKeyHash := keccak publicKey
  revertIf ((s.devices pubKeyHash).status = .Unknown) (.deviceNotFound pubKeyHash)
  revertIf ((s.devices pubKeyHash).status = .Revoked) (.deviceNotActive pubKeyHash)
  return setStatus s pubKeyHash .Revoked (.deviceRevoked pubKeyHash cx.sender)

def reactivateDevice (cx : Context) (s : RegistryState) (publicKey : Bytes) :
    Except RegistryError RegistryState := do
  (AccessControl.checkRole s.roles (OPERATOR_ROLE keccak) cx.sender).mapError .oz
  let pubKeyHash := keccak publicKey
  revertIf ((s.devices pubKeyHash).status = .Unknown) (.deviceNotFound pubKeyHash)
  revertIf ((s.devices pubKeyHash).status = .Active) (.deviceAlreadyActive pubKeyHash)
  return setStatus s pubKeyHash .Active (.deviceReactivated pubKeyHash cx.sender)

def suspendDevice (cx : Context) (s : RegistryState) (publicKey : Bytes) : Except RegistryError RegistryState := do
  (AccessControl.checkRole s.roles (OPERATOR_ROLE keccak) cx.sender).mapError .oz
  let pubKeyHash := keccak publicKey
  revertIf ((s.devices pubKeyHash).status ≠ .Active) (.deviceNotActive pubKeyHash)
  return setStatus s pubKeyHash .Suspended (.deviceSuspended pubKeyHash cx.sender)

def setRoles (s : RegistryState) (r : Except OZError (Roles × List OZEvent)) :
    Except RegistryError RegistryState := do
  let (roles, es) ← r.mapError .oz
  return emit { s with roles := roles } (es.map .oz)

inductive Call
  | registerDevice (publicKey : Bytes) (latE7 lonE7 : I32)
  | revokeDevice (publicKey : Bytes)
  | reactivateDevice (publicKey : Bytes)
  | suspendDevice (publicKey : Bytes)
  | grantRole (role : Bytes32) (account : Address)
  | revokeRole (role : Bytes32) (account : Address)
  | renounceRole (role : Bytes32) (callerConfirmation : Address)

def call (cx : Context) (s : RegistryState) : Call → Except RegistryError RegistryState
  | .registerDevice pk lat lon => registerDevice keccak cx s pk lat lon
  | .revokeDevice pk => revokeDevice keccak cx s pk
  | .reactivateDevice pk => reactivateDevice keccak cx s pk
  | .suspendDevice pk => suspendDevice keccak cx s pk
  | .grantRole role account => setRoles s (AccessControl.grantRole s.roles cx.sender role account)
  | .revokeRole role account => setRoles s (AccessControl.revokeRole s.roles cx.sender role account)
  | .renounceRole role account => setRoles s (AccessControl.renounceRole s.roles cx.sender role account)

structure Tx where
  context : Context
  call : Call

/-- A transaction: a revert undoes everything. -/
def exec (s : RegistryState) (t : Tx) : RegistryState :=
  match call keccak t.context s t.call with
  | .ok s' => s'
  | .error _ => s

variable {keccak} {s : RegistryState} {pk : Bytes}

theorem isAuthorized_iff :
    isAuthorized keccak s pk = true ↔ pk.length = 64 ∧ getDeviceStatus keccak s pk = .Active := by
  unfold isAuthorized getDeviceStatus
  by_cases h : pk.length = P256_PUBKEY_LENGTH
  · rw [if_neg (not_not.2 h), decide_eq_true_iff]
    exact ⟨fun hs => ⟨h, hs⟩, fun hs => hs.2⟩
  · rw [if_pos h]
    exact ⟨fun hs => (Bool.false_ne_true hs).elim, fun hs => absurd hs.1 h⟩

end DeviceRegistry
end InfraVeritas
