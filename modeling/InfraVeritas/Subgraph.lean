import InfraVeritas.Lib.Hex
import InfraVeritas.Lib.Keyed
import InfraVeritas.Lifecycle

/-!
# The subgraph

The entity store and the event handlers of `subgraph/src`. A handler sees the parameters of one event and
its block and transaction (`EventContext`). Entities are kept in the order in which they are first saved;
an `Int!` field is a 32-bit integer, a `BigInt!` field from an unsigned source is a natural number.
-/

namespace InfraVeritas
namespace Subgraph

structure EventContext where
  blockNumber : Nat
  blockTimestamp : Nat
  txHash : Bytes32
deriving DecidableEq, Repr

/-! ### Entities -/

inductive Status
  | Active
  | Revoked
  | Suspended
deriving DecidableEq, Repr

structure Device where
  id : String
  latE7 : I32
  lonE7 : I32
  registeredAt : Nat
  registeredBy : Address
  status : Status
  revokedAt : Option Nat
  reactivatedAt : Option Nat
  suspendedAt : Option Nat
deriving DecidableEq, Repr

structure Submission where
  id : String
  deviceIdBytes : Bytes32
  timestamp : Nat
  blockNumber : Nat
  blockTimestamp : Nat
  gapFromPrevious : Nat
  postDisconnection : Bool
  txHash : Bytes32
deriving DecidableEq, Repr

structure DailyStat where
  id : String
  dayStartTs : Nat
  deviceIdBytes : Bytes32
  submissionCount : I32
  postDisconnectionCount : I32
deriving DecidableEq, Repr

/-- The singleton with id "0". -/
structure Protocol where
  totalDevices : I32
  activeDevices : I32
  revokedDevices : I32
  suspendedDevices : I32
  totalSubmissions : I32
  totalPostDisconnections : I32
deriving DecidableEq, Repr

structure Store where
  devices : List Device
  submissions : List Submission
  dailyStats : List DailyStat
  protocol : Option Protocol
deriving DecidableEq, Repr

def empty : Store := ⟨[], [], [], none⟩

def Store.device (s : Store) (id : String) : Option Device := Keyed.find Device.id s.devices id

def Store.dailyStat (s : Store) (id : String) : Option DailyStat := Keyed.find DailyStat.id s.dailyStats id

/-! ### `utils.ts` -/

def SECONDS_PER_DAY : Nat := 86400

def loadOrCreateProtocol (s : Store) : Protocol := s.protocol.getD ⟨0, 0, 0, 0, 0, 0⟩

def getDayStartTs (timestamp : Nat) : Nat := timestamp / SECONDS_PER_DAY * SECONDS_PER_DAY

def makeDailyStatId (dayStartTs : Nat) (deviceId : String) : String :=
  String.ofList (Nat.toDigits 10 dayStartTs) ++ "-" ++ deviceId

def toHexString (w : Bytes32) : String := "0x" ++ String.ofList (Hex.bytesToHex (wordBytes w))

/-! ### `device-registry-mapping.ts` -/

def handleDeviceRegistered (s : Store) (pubKeyHash : Bytes32) (latE7 lonE7 : I32) (registeredAt : U64)
    (operator : Address) : Store :=
  let deviceId := toHexString pubKeyHash
  match s.device deviceId with
  | some _ => s
  | none =>
    let device := ⟨deviceId, latE7, lonE7, registeredAt.toNat, operator, .Active, none, none, none⟩
    let protocol := loadOrCreateProtocol s
    { s with
      devices := Keyed.save Device.id s.devices device
      protocol := some { protocol with
        totalDevices := protocol.totalDevices + 1
        activeDevices := protocol.activeDevices + 1 } }

/-- The three status handlers: the change of the entity, and that of the counters by the previous status. -/
def handleStatus (s : Store) (pubKeyHash : Bytes32) (update : Device → Device) (count : Status → Protocol → Protocol) :
    Store :=
  match s.device (toHexString pubKeyHash) with
  | none => s
  | some device =>
    { s with
      devices := Keyed.save Device.id s.devices (update device)
      protocol := some (count device.status (loadOrCreateProtocol s)) }

def handleDeviceRevoked (cx : EventContext) (s : Store) (pubKeyHash : Bytes32) : Store :=
  handleStatus s pubKeyHash (fun device => { device with status := .Revoked, revokedAt := some cx.blockTimestamp })
    fun prevStatus protocol =>
      let protocol :=
        if prevStatus = .Active then { protocol with activeDevices := protocol.activeDevices - 1 }
        else if prevStatus = .Suspended then { protocol with suspendedDevices := protocol.suspendedDevices - 1 }
        else protocol
      { protocol with revokedDevices := protocol.revokedDevices + 1 }

def handleDeviceReactivated (cx : EventContext) (s : Store) (pubKeyHash : Bytes32) : Store :=
  handleStatus s pubKeyHash (fun device => { device with status := .Active, reactivatedAt := some cx.blockTimestamp })
    fun prevStatus protocol =>
      let protocol :=
        if prevStatus = .Revoked then { protocol with revokedDevices := protocol.revokedDevices - 1 }
        else if prevStatus = .Suspended then { protocol with suspendedDevices := protocol.suspendedDevices - 1 }
        else protocol
      { protocol with activeDevices := protocol.activeDevices + 1 }

def handleDeviceSuspended (cx : EventContext) (s : Store) (pubKeyHash : Bytes32) : Store :=
  handleStatus s pubKeyHash (fun device => { device with status := .Suspended, suspendedAt := some cx.blockTimestamp })
    fun prevStatus protocol =>
      let protocol :=
        if prevStatus = .Active then { protocol with activeDevices := protocol.activeDevices - 1 } else protocol
      { protocol with suspendedDevices := protocol.suspendedDevices + 1 }

/-! ### `v3-mapping.ts` -/

def submissionOf (cx : EventContext) (e : ProofSubmitted) : Submission :=
  ⟨toHexString e.sessionKey, e.deviceId, e.timestamp.toNat, cx.blockNumber, cx.blockTimestamp, e.gapFromPrevious.toNat,
    e.postDisconnection, cx.txHash⟩

def handleProofSubmitted (cx : EventContext) (s : Store) (e : ProofSubmitted) : Store :=
  let dayStartTs := getDayStartTs cx.blockTimestamp
  let dailyId := makeDailyStatId dayStartTs (toHexString e.deviceId)
  let daily := (s.dailyStat dailyId).getD ⟨dailyId, dayStartTs, e.deviceId, 0, 0⟩
  let daily := { daily with submissionCount := daily.submissionCount + 1 }
  let daily :=
    if e.postDisconnection then { daily with postDisconnectionCount := daily.postDisconnectionCount + 1 } else daily
  let protocol := loadOrCreateProtocol s
  let protocol := { protocol with totalSubmissions := protocol.totalSubmissions + 1 }
  let protocol :=
    if e.postDisconnection then { protocol with totalPostDisconnections := protocol.totalPostDisconnections + 1 }
    else protocol
  { s with
    submissions := Keyed.save Submission.id s.submissions (submissionOf cx e)
    dailyStats := Keyed.save DailyStat.id s.dailyStats daily
    protocol := some protocol }

/-! ### Replaying events -/

inductive Event
  | device (e : RegistryEvent)
  | proof (e : ProofSubmitted)

structure Entry where
  context : EventContext
  event : Event

/-- The handler that `subgraph.yaml` names for the event; role events have none. -/
def handle (s : Store) (x : Entry) : Store :=
  match x.event with
  | .device (.deviceRegistered h lat lon at_ operator) => handleDeviceRegistered s h lat lon at_ operator
  | .device (.deviceRevoked h _) => handleDeviceRevoked x.context s h
  | .device (.deviceReactivated h _) => handleDeviceReactivated x.context s h
  | .device (.deviceSuspended h _) => handleDeviceSuspended x.context s h
  | .device (.oz _) => s
  | .proof e => handleProofSubmitted x.context s e

def replay (xs : List Entry) : Store := Runs.run handle empty xs

theorem replay_concat (xs : List Entry) (x : Entry) : replay (xs ++ [x]) = handle (replay xs) x := Runs.run_concat ..

def deviceEvent (x : Entry) : Option RegistryEvent :=
  match x.event with
  | .device e => if DeviceRegistry.isLifecycle e then some e else none
  | .proof _ => none

/-- The device events of a stream. -/
def deviceEvents (xs : List Entry) : List RegistryEvent := xs.filterMap deviceEvent

def proofEntry (x : Entry) : Option (EventContext × ProofSubmitted) :=
  match x.event with
  | .device _ => none
  | .proof e => some (x.context, e)

/-- The `ProofSubmitted` events of a stream, with their contexts. -/
def proofEntries (xs : List Entry) : List (EventContext × ProofSubmitted) := xs.filterMap proofEntry

theorem handleDeviceRegistered_of_none {s : Store} {h : Bytes32} (lat lon : I32) (registeredAt : U64) (operator : Address)
    (hd : s.device (toHexString h) = none) :
    handleDeviceRegistered s h lat lon registeredAt operator =
      { s with
        devices := s.devices ++ [⟨toHexString h, lat, lon, registeredAt.toNat, operator, .Active, none, none, none⟩]
        protocol := some { loadOrCreateProtocol s with
          totalDevices := (loadOrCreateProtocol s).totalDevices + 1
          activeDevices := (loadOrCreateProtocol s).activeDevices + 1 } } := by
  have hsave := @Keyed.save_of_none _ _ _ Device.id s.devices
    ⟨toHexString h, lat, lon, registeredAt.toNat, operator, .Active, none, none, none⟩ hd
  simp only [handleDeviceRegistered, hd, hsave]

theorem handleStatus_of_some {s : Store} {h : Bytes32} {update : Device → Device} {count : Status → Protocol → Protocol}
    {d : Device} (hd : s.device (toHexString h) = some d) :
    handleStatus s h update count =
      { s with
        devices := Keyed.save Device.id s.devices (update d)
        protocol := some (count d.status (loadOrCreateProtocol s)) } := by
  simp only [handleStatus, hd]

/-! ### Ids -/

theorem toHexString_inj {w w' : Bytes32} : toHexString w = toHexString w' ↔ w = w' := by
  refine ⟨fun h => ?_, fun h => h ▸ rfl⟩
  have hl := congrArg (fun s : String => s.toList.drop 2) h
  simp only [toHexString, String.toList_append, String.toList_ofList] at hl
  have hdrop (cs : List Char) : ("0x".toList ++ cs).drop 2 = cs := rfl
  rw [hdrop, hdrop] at hl
  exact wordBytes_inj.1 (Hex.bytesToHex_inj.1 hl)

theorem minus_notMem_toDigits (n : Nat) : '-' ∉ Nat.toDigits 10 n := by
  intro h
  have hd := Nat.isDigit_of_mem_toDigits (by decide) (by decide) h
  exact absurd hd (by decide)

theorem toDigits_inj {n m : Nat} (h : Nat.toDigits 10 n = Nat.toDigits 10 m) : n = m := by
  have hn := @Nat.ofDigitChars_ten_toDigits n
  rw [h, Nat.ofDigitChars_ten_toDigits] at hn
  exact hn.symm

theorem takeWhile_toDigits (n : Nat) (cs : List Char) :
    (Nat.toDigits 10 n ++ '-' :: cs).takeWhile (· ≠ '-') = Nat.toDigits 10 n := by
  rw [List.takeWhile_append_of_pos]
  · simp
  · intro c hc
    have hne : c ≠ '-' := fun h => minus_notMem_toDigits n (h ▸ hc)
    simpa using hne

/-- The id splits at its first `-`. -/
theorem makeDailyStatId_inj {n m : Nat} {a b : String} : makeDailyStatId n a = makeDailyStatId m b ↔ n = m ∧ a = b := by
  refine ⟨fun h => ?_, fun ⟨hn, ha⟩ => hn ▸ ha ▸ rfl⟩
  have hl := congrArg String.toList h
  simp only [makeDailyStatId, String.toList_append, String.toList_ofList, List.append_assoc] at hl
  have hsplit : Nat.toDigits 10 n ++ '-' :: a.toList = Nat.toDigits 10 m ++ '-' :: b.toList := hl
  have hday := congrArg (List.takeWhile (· ≠ '-')) hsplit
  rw [takeWhile_toDigits, takeWhile_toDigits] at hday
  obtain rfl := toDigits_inj hday
  have hdevice := List.append_cancel_left hsplit
  exact ⟨rfl, String.toList_inj.1 (List.cons.inj hdevice).2⟩

end Subgraph
end InfraVeritas
