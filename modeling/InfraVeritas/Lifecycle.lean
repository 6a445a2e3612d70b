import InfraVeritas.DeviceRegistry
import InfraVeritas.V3Step
import Mathlib.Data.Set.Card

/-!
# The life of a device in the registry

`exec_effect` says once what a transaction does to the entries of `DeviceRegistry`: it registers a new key,
moves a registered key to another status, or leaves every entry alone. `RegistryInv` counts the registered
keys by the `DeviceRegistered` events, and `Current` ties the status of one key to the last successful call
for it.
-/

namespace InfraVeritas
open Checks

namespace DeviceRegistry
variable {keccak : Bytes → Bytes32} {s s' : RegistryState} {cx : Context}

/-! ### Lifecycle calls -/

/-- The key that a lifecycle call is about. -/
def Call.key : Call → Option Bytes
  | .registerDevice pk _ _ | .revokeDevice pk | .reactivateDevice pk | .suspendDevice pk => some pk
  | .grantRole .. | .revokeRole .. | .renounceRole .. => none

/-- The status that a successful lifecycle call leaves behind. -/
def Call.status : Call → DeviceStatus
  | .registerDevice .. | .reactivateDevice _ => .Active
  | .revokeDevice _ => .Revoked
  | .suspendDevice _ => .Suspended
  | .grantRole .. | .revokeRole .. | .renounceRole .. => .Unknown

def Call.activates : Call → Bool
  | .registerDevice .. | .reactivateDevice _ => true
  | _ => false

def isLifecycle : RegistryEvent → Bool
  | .oz _ => false
  | _ => true

/-- The device events of the log. -/
def lifecycle (s : RegistryState) : List RegistryEvent := s.log.filter isLifecycle

def registeredHash : RegistryEvent → Option Bytes32
  | .deviceRegistered h .. => some h
  | _ => none

/-- The registered keys, oldest first. -/
def hashes (s : RegistryState) : List Bytes32 := (lifecycle s).filterMap registeredHash

theorem lifecycle_emit (s : RegistryState) (es : List RegistryEvent) :
    lifecycle (emit s es) = lifecycle s ++ es.filter isLifecycle := List.filter_append ..

structure InBounds (latE7 lonE7 : I32) : Prop where
  lat : MIN_LAT_E7 ≤ latE7.toInt ∧ latE7.toInt ≤ MAX_LAT_E7
  lon : MIN_LON_E7 ≤ lonE7.toInt ∧ lonE7.toInt ≤ MAX_LON_E7

theorem validateCoordinates_eq_ok {lat lon : I32} {u : PUnit} :
    validateCoordinates lat lon = .ok u ↔ InBounds lat lon := by
  simp only [validateCoordinates, bind_eq_ok, exists_punit, revertIf_eq_ok]
  constructor
  · rintro ⟨h₁, h₂⟩
    exact ⟨by omega, by omega⟩
  · rintro ⟨h₁, h₂⟩
    exact ⟨by omega, by omega⟩

/-- What `registerDevice` stores and emits. -/
def registered (keccak : Bytes → Bytes32) (cx : Context) (s : RegistryState) (pk : Bytes) (lat lon : I32) : RegistryState :=
  emit { s with
    devices := Function.update s.devices (keccak pk) ⟨lat, lon, cx.timestamp.setWidth 64, .Active⟩
    deviceCount := s.deviceCount + 1 }
    [.deviceRegistered (keccak pk) lat lon (cx.timestamp.setWidth 64) cx.sender]

@[simp] theorem devices_registered (s : RegistryState) (pk : Bytes) (lat lon : I32) :
    (registered keccak cx s pk lat lon).devices (keccak pk) = ⟨lat, lon, cx.timestamp.setWidth 64, .Active⟩ :=
  Function.update_self ..

theorem devices_registered_of_ne (s : RegistryState) {pk : Bytes} (lat lon : I32) {h : Bytes32} (hne : h ≠ keccak pk) :
    (registered keccak cx s pk lat lon).devices h = s.devices h :=
  Function.update_of_ne hne ..

theorem devices_setStatus (s : RegistryState) (h k : Bytes32) (st : DeviceStatus) (e : RegistryEvent) :
    (setStatus s h st e).devices k = { s.devices k with status := if k = h then st else (s.devices k).status } := by
  by_cases hk : k = h
  · subst hk
    rw [if_pos rfl]
    exact Function.update_self ..
  · rw [if_neg hk]
    exact Function.update_of_ne hk ..

/-- The status changes of registered keys, with their events. -/
inductive Moves (h : Bytes32) (operator : Address) : DeviceStatus → DeviceStatus → RegistryEvent → Prop
  | revoke {old : DeviceStatus} (ho : old = .Active ∨ old = .Suspended) :
      Moves h operator old .Revoked (.deviceRevoked h operator)
  | reactivate {old : DeviceStatus} (ho : old = .Revoked ∨ old = .Suspended) :
      Moves h operator old .Active (.deviceReactivated h operator)
  | suspend : Moves h operator .Active .Suspended (.deviceSuspended h operator)

namespace Moves
variable {h : Bytes32} {operator : Address} {old new : DeviceStatus} {e : RegistryEvent}

theorem old_ne (hm : Moves h operator old new e) : old ≠ .Unknown := by
  cases hm with
  | revoke ho | reactivate ho => rcases ho with rfl | rfl <;> decide
  | suspend => decide

theorem new_ne (hm : Moves h operator old new e) : new ≠ .Unknown := by
  cases hm <;> decide

theorem isLifecycle (hm : Moves h operator old new e) : isLifecycle e = true := by
  cases hm <;> rfl

theorem registeredHash (hm : Moves h operator old new e) : registeredHash e = none := by
  cases hm <;> rfl

end Moves

/-! ### When a function succeeds -/

theorem registerDevice_eq_ok_iff {pk : Bytes} {lat lon : I32} :
    registerDevice keccak cx s pk lat lon = .ok s' ↔
      AccessControl.hasRole s.roles (OPERATOR_ROLE keccak) cx.sender = true ∧ pk.length = 64 ∧ InBounds lat lon ∧
        (s.devices (keccak pk)).status = .Unknown ∧ s' = registered keccak cx s pk lat lon := by
  simp only [registerDevice, bind_eq_ok, exists_punit, mapError_eq_ok, AccessControl.checkRole_eq_ok, revertIf_eq_ok,
    validateCoordinates_eq_ok, pure_eq_ok, ne_eq, not_not, eq_comm (a := s')]
  rfl

theorem revokeDevice_eq_ok_iff {pk : Bytes} :
    revokeDevice keccak cx s pk = .ok s' ↔
      AccessControl.hasRole s.roles (OPERATOR_ROLE keccak) cx.sender = true ∧
        ((s.devices (keccak pk)).status = .Active ∨ (s.devices (keccak pk)).status = .Suspended) ∧
        s' = setStatus s (keccak pk) .Revoked (.deviceRevoked (keccak pk) cx.sender) := by
  simp only [revokeDevice, bind_eq_ok, exists_punit, mapError_eq_ok, AccessControl.checkRole_eq_ok, revertIf_eq_ok,
    pure_eq_ok, eq_comm (a := s')]
  cases (s.devices (keccak pk)).status <;> simp

theorem reactivateDevice_eq_ok_iff {pk : Bytes} :
    reactivateDevice keccak cx s pk = .ok s' ↔
      AccessControl.hasRole s.roles (OPERATOR_ROLE keccak) cx.sender = true ∧
        ((s.devices (keccak pk)).status = .Revoked ∨ (s.devices (keccak pk)).status = .Suspended) ∧
        s' = setStatus s (keccak pk) .Active (.deviceReactivated (keccak pk) cx.sender) := by
  simp only [reactivateDevice, bind_eq_ok, exists_punit, mapError_eq_ok, AccessControl.checkRole_eq_ok, revertIf_eq_ok,
    pure_eq_ok, eq_comm (a := s')]
  cases (s.devices (keccak pk)).status <;> simp

theorem suspendDevice_eq_ok_iff {pk : Bytes} :
    suspendDevice keccak cx s pk = .ok s' ↔
      AccessControl.hasRole s.roles (OPERATOR_ROLE keccak) cx.sender = true ∧
        (s.devices (keccak pk)).status = .Active ∧
        s' = setStatus s (keccak pk) .Suspended (.deviceSuspended (keccak pk) cx.sender) := by
  simp only [suspendDevice, bind_eq_ok, exists_punit, mapError_eq_ok, AccessControl.checkRole_eq_ok, revertIf_eq_ok,
    pure_eq_ok, ne_eq, not_not, eq_comm (a := s')]

theorem setRoles_eq_ok_iff {r : Except OZError (Roles × List OZEvent)} : setRoles s r = .ok s' ↔
    ∃ roles es, r = .ok (roles, es) ∧ s' = emit { s with roles := roles } (es.map .oz) := by
  simp only [setRoles, bind_eq_ok, mapError_eq_ok, pure_eq_ok]
  constructor
  · rintro ⟨⟨roles, es⟩, hr, rfl⟩
    exact ⟨roles, es, hr, rfl⟩
  · rintro ⟨roles, es, hr, rfl⟩
    exact ⟨(roles, es), hr, rfl⟩

/-! ### What a transaction does -/

/-- `s'` differs from `s` in nothing that a lifecycle call writes. -/
structure SameDevices (s s' : RegistryState) : Prop where
  devices : s'.devices = s.devices
  deviceCount : s'.deviceCount = s.deviceCount
  lifecycle : DeviceRegistry.lifecycle s' = DeviceRegistry.lifecycle s

theorem same_of_roles (s : RegistryState) (roles : Roles) (es : List OZEvent) :
    SameDevices s (emit { s with roles := roles } (es.map .oz)) := by
  refine ⟨rfl, rfl, ?_⟩
  have hoz : (es.map RegistryEvent.oz).filter isLifecycle = [] := by
    rw [List.filter_eq_nil_iff]
    intro e he
    obtain ⟨e', -, rfl⟩ := List.mem_map.1 he
    exact Bool.false_ne_true
  rw [lifecycle_emit, hoz, List.append_nil]
  rfl

theorem setRoles_same {r : Except OZError (Roles × List OZEvent)} (h : setRoles s r = .ok s') : SameDevices s s' := by
  obtain ⟨roles, es, -, rfl⟩ := setRoles_eq_ok_iff.1 h
  exact same_of_roles s roles es

theorem construct_same {sender admin : Address} (h : construct sender admin = .ok s) : SameDevices fresh s := by
  simp only [construct, bind_eq_ok, exists_punit, revertIf_eq_ok, pure_eq_ok] at h
  obtain ⟨-, rfl⟩ := h
  exact same_of_roles fresh _ _

/-- The call of a transaction if it is a lifecycle call that succeeds. -/
def lifecycleCall (keccak : Bytes → Bytes32) (x : RegistryState × Tx) : Option Call :=
  if x.2.call.key.isSome && (call keccak x.2.context x.1 x.2.call).isOk then some x.2.call else none

inductive Effect (keccak : Bytes → Bytes32) (s : RegistryState) (t : Tx) : Option Call → RegistryState → Prop
  | registered {pk : Bytes} {lat lon : I32} (hc : t.call = .registerDevice pk lat lon) (hlen : pk.length = 64)
      (hb : InBounds lat lon) (hnew : (s.devices (keccak pk)).status = .Unknown) :
      Effect keccak s t (some t.call) (registered keccak t.context s pk lat lon)
  | moved {pk : Bytes} {e : RegistryEvent} (hk : t.call.key = some pk)
      (hm : Moves (keccak pk) t.context.sender (s.devices (keccak pk)).status t.call.status e) :
      Effect keccak s t (some t.call) (setStatus s (keccak pk) t.call.status e)
  | same {s' : RegistryState} (h : SameDevices s s') : Effect keccak s t none s'

theorem exec_effect (s : RegistryState) (t : Tx) : Effect keccak s t (lifecycleCall keccak (s, t)) (exec keccak s t) := by
  obtain ⟨cx, c⟩ := t
  rcases h : call keccak cx s c with e | s'
  · rw [lifecycleCall, exec, h, Except.isOk, Except.toBool, Bool.and_false]
    exact .same ⟨rfl, rfl, rfl⟩
  rw [lifecycleCall, exec, h, Except.isOk, Except.toBool, Bool.and_true]
  cases c with
  | registerDevice pk lat lon =>
    obtain ⟨-, hlen, hb, hnew, rfl⟩ := registerDevice_eq_ok_iff.1 h
    exact .registered rfl hlen hb hnew
  | revokeDevice pk =>
    obtain ⟨-, ho, rfl⟩ := revokeDevice_eq_ok_iff.1 h
    exact .moved rfl (.revoke ho)
  | reactivateDevice pk =>
    obtain ⟨-, ho, rfl⟩ := reactivateDevice_eq_ok_iff.1 h
    exact .moved rfl (.reactivate ho)
  | suspendDevice pk =>
    obtain ⟨-, ho, rfl⟩ := suspendDevice_eq_ok_iff.1 h
    refine .moved rfl ?_
    rw [ho]
    exact .suspend
  | grantRole role account | revokeRole role account | renounceRole role account => exact .same (setRoles_same h)

/-! ### The entries of a run -/

/-- The registered keys are those of the `DeviceRegistered` events, each once, and they are counted. -/
structure RegistryInv (s : RegistryState) : Prop where
  nodup : (hashes s).Nodup
  known : ∀ h, (s.devices h).status ≠ .Unknown ↔ h ∈ hashes s
  count : s.deviceCount = BitVec.ofNat 256 (hashes s).length
  bounds : ∀ h, (s.devices h).status ≠ .Unknown → InBounds (s.devices h).latE7 (s.devices h).lonE7

namespace RegistryInv

theorem same (hs : RegistryInv s) (h : SameDevices s s') : RegistryInv s' := by
  have hh : hashes s' = hashes s := by rw [hashes, h.lifecycle, hashes]
  refine ⟨?_, ?_, ?_, ?_⟩
  · rw [hh]; exact hs.nodup
  · intro k
    rw [hh, h.devices]; exact hs.known k
  · rw [hh, h.deviceCount]; exact hs.count
  · intro k
    rw [h.devices]; exact hs.bounds k

theorem hashes_registered {pk : Bytes} {lat lon : I32} :
    hashes (registered keccak cx s pk lat lon) = hashes s ++ [keccak pk] := by
  rw [hashes, registered, lifecycle_emit, List.filterMap_append]
  rfl

theorem hashes_setStatus {h : Bytes32} {st : DeviceStatus} {e : RegistryEvent} (he : registeredHash e = none) :
    hashes (setStatus s h st e) = hashes s := by
  rw [hashes, setStatus, lifecycle_emit, List.filterMap_append]
  have hnil : ([e].filter isLifecycle).filterMap registeredHash = [] := by
    rw [List.filterMap_eq_nil_iff]
    intro e' he'
    rw [List.mem_singleton.1 (List.mem_of_mem_filter he'), he]
  rw [hnil, List.append_nil]
  rfl

/-- A new key is counted once: its status was `Unknown`, so it is not among the registered ones. -/
theorem registered {pk : Bytes} {lat lon : I32} (hs : RegistryInv s) (hb : InBounds lat lon)
    (hnew : (s.devices (keccak pk)).status = .Unknown) : RegistryInv (registered keccak cx s pk lat lon) := by
  have hfresh : keccak pk ∉ hashes s := fun h => (hs.known _).2 h hnew
  refine ⟨?_, ?_, ?_, ?_⟩
  · rw [hashes_registered]
    exact List.nodup_append.2 ⟨hs.nodup, List.nodup_singleton _, by
      rintro a ha b hb rfl
      exact hfresh (List.mem_singleton.1 hb ▸ ha)⟩
  · intro h
    rw [hashes_registered, List.mem_append, List.mem_singleton]
    by_cases hk : h = keccak pk
    · subst hk
      simp
    · rw [devices_registered_of_ne s lat lon hk, hs.known h]
      simp [hk]
  · rw [hashes_registered, List.length_append, List.length_singleton, BitVec.ofNat_add, ← hs.count]
    rfl
  · intro h hh
    by_cases hk : h = keccak pk
    · subst hk
      rw [devices_registered]
      exact hb
    · rw [devices_registered_of_ne s lat lon hk] at hh ⊢
      exact hs.bounds h hh

theorem moved {h : Bytes32} {operator : Address} {new : DeviceStatus} {e : RegistryEvent} (hs : RegistryInv s)
    (hm : Moves h operator (s.devices h).status new e) : RegistryInv (setStatus s h new e) := by
  have hiff : ∀ k, ((setStatus s h new e).devices k).status ≠ .Unknown ↔ (s.devices k).status ≠ .Unknown := by
    intro k
    rw [devices_setStatus]
    by_cases hk : k = h
    · subst hk
      simp [hm.old_ne, hm.new_ne]
    · simp [hk]
  refine ⟨?_, ?_, ?_, ?_⟩
  · rw [hashes_setStatus hm.registeredHash]; exact hs.nodup
  · intro k
    rw [hashes_setStatus hm.registeredHash, hiff]; exact hs.known k
  · rw [hashes_setStatus hm.registeredHash]; exact hs.count
  · intro k hk
    have hb := hs.bounds k ((hiff k).1 hk)
    rw [devices_setStatus]
    exact hb

theorem exec (hs : RegistryInv s) (t : Tx) : RegistryInv (exec keccak s t) := by
  have h := @exec_effect keccak s t
  generalize lifecycleCall keccak (s, t) = c, DeviceRegistry.exec keccak s t = s' at h ⊢
  cases h with
  | registered _ _ hb hnew => exact hs.registered hb hnew
  | moved _ hm => exact hs.moved hm
  | same h => exact hs.same h

theorem fresh : RegistryInv fresh := by
  have hn : ∀ h, h ∉ hashes DeviceRegistry.fresh := fun h => List.not_mem_nil
  exact ⟨List.nodup_nil, fun h => ⟨fun hu => absurd rfl hu, fun hh => absurd hh (hn h)⟩, rfl, fun h hu => absurd rfl hu⟩

theorem run {sender admin : Address} (h0 : construct sender admin = .ok s) (txs : List Tx) :
    RegistryInv (Runs.run (DeviceRegistry.exec keccak) s txs) :=
  Runs.run_inv (fresh.same (construct_same h0)) (fun _ t hs => hs.exec t) txs

end RegistryInv

/-- A transaction changes no entry but that of the key it is about. -/
theorem exec_frame (s : RegistryState) (t : Tx) {h : Bytes32} (hne : ∀ pk, t.call.key = some pk → keccak pk ≠ h) :
    (exec keccak s t).devices h = s.devices h := by
  have he := @exec_effect keccak s t
  generalize lifecycleCall keccak (s, t) = c, exec keccak s t = s' at he ⊢
  cases he with
  | @registered pk lat lon hc =>
    have hk : t.call.key = some pk := by rw [hc]; rfl
    exact devices_registered_of_ne s lat lon (hne pk hk).symm
  | moved hk hm => rw [devices_setStatus, if_neg (hne _ hk).symm]
  | same hs => rw [hs.devices]

/-- `d'` is `d` with another status, and registered if `d` is. -/
structure Kept (d d' : Device) : Prop where
  status : d'.status ≠ .Unknown
  latE7 : d'.latE7 = d.latE7
  lonE7 : d'.lonE7 = d.lonE7
  registeredAt : d'.registeredAt = d.registeredAt

namespace Kept
variable {d d₁ d₂ : Device} {h : Bytes32}

theorem refl (hd : d.status ≠ .Unknown) : Kept d d := ⟨hd, rfl, rfl, rfl⟩

theorem trans (h₁ : Kept d d₁) (h₂ : Kept d₁ d₂) : Kept d d₂ :=
  ⟨h₂.status, h₂.latE7.trans h₁.latE7, h₂.lonE7.trans h₁.lonE7, h₂.registeredAt.trans h₁.registeredAt⟩

theorem exec (s : RegistryState) (t : Tx) (hd : (s.devices h).status ≠ .Unknown) :
    Kept (s.devices h) ((exec keccak s t).devices h) := by
  have he := @exec_effect keccak s t
  generalize lifecycleCall keccak (s, t) = c, DeviceRegistry.exec keccak s t = s' at he ⊢
  cases he with
  | @registered pk lat lon hc hlen hb hnew =>
    have hne : h ≠ keccak pk := fun hk => hd (hk ▸ hnew)
    rw [devices_registered_of_ne s lat lon hne]
    exact refl hd
  | @moved pk e hk hm =>
    rw [devices_setStatus]
    refine ⟨?_, rfl, rfl, rfl⟩
    by_cases hk' : h = keccak pk
    · simp [hk', hm.new_ne]
    · simp [hk', hd]
  | same hs =>
    rw [hs.devices]
    exact refl hd

theorem run (s : RegistryState) (txs : List Tx) (hd : (s.devices h).status ≠ .Unknown) :
    Kept (s.devices h) ((Runs.run (DeviceRegistry.exec keccak) s txs).devices h) :=
  Runs.run_inv (I := fun s' : RegistryState => Kept (s.devices h) (s'.devices h)) (refl hd)
    (fun s' t hs => hs.trans (Kept.exec s' t hs.status)) txs

end Kept

/-! ### The history of a key -/

/-- The successful lifecycle calls for the key `k`, in the order of the run. -/
def lifecycleCalls (keccak : Bytes → Bytes32) (s : RegistryState) (txs : List Tx) (k : Bytes) : List Call :=
  ((Runs.steps (exec keccak) s txs).filterMap (lifecycleCall keccak)).filter (·.key = some k)

theorem lifecycleCalls_concat (s : RegistryState) (txs : List Tx) (t : Tx) (k : Bytes) :
    lifecycleCalls keccak s (txs ++ [t]) k = lifecycleCalls keccak s txs k ++
      (lifecycleCall keccak (Runs.run (exec keccak) s txs, t)).toList.filter (·.key = some k) := by
  rw [lifecycleCalls, Runs.steps_concat, List.filterMap_append, List.filter_append, lifecycleCalls]
  cases h : lifecycleCall keccak (Runs.run (exec keccak) s txs, t) <;> simp [h]

/-- The status of the key `k` is that of the last of its successful calls. -/
def Current (keccak : Bytes → Bytes32) (k : Bytes) (calls : List Call) (s : RegistryState) : Prop :=
  getDeviceStatus keccak s k = calls.getLast?.elim .Unknown Call.status

/-- No key of the run but `k` itself has the hash of `k`. -/
def Unshared (keccak : Bytes → Bytes32) (k : Bytes) (txs : List Tx) : Prop :=
  ∀ t ∈ txs, ∀ pk, t.call.key = some pk → keccak pk = keccak k → pk = k

theorem Unshared.of_injOn {k : Bytes} {txs : List Tx}
    (h : Set.InjOn keccak {pk | pk = k ∨ ∃ t ∈ txs, t.call.key = some pk}) : Unshared keccak k txs :=
  fun t ht _ hk heq => h (.inr ⟨t, ht, hk⟩) (.inl rfl) heq

theorem Current.exec {k : Bytes} {calls : List Call} {t : Tx} (hs : Current keccak k calls s)
    (hk : ∀ pk, t.call.key = some pk → keccak pk = keccak k → pk = k) :
    Current keccak k (calls ++ (lifecycleCall keccak (s, t)).toList.filter (·.key = some k)) (exec keccak s t) := by
  by_cases hkey : t.call.key = some k
  · have he := @exec_effect keccak s t
    generalize lifecycleCall keccak (s, t) = c, DeviceRegistry.exec keccak s t = s' at he ⊢
    cases he with
    | @registered pk lat lon hc =>
      have hpk : pk = k := by
        rw [hc] at hkey
        exact Option.some.inj hkey
      subst hpk
      have hat : getDeviceStatus keccak (registered keccak t.context s pk lat lon) pk = .Active := by
        rw [getDeviceStatus, devices_registered]
      rw [Current, hat, Option.toList_some, List.filter_singleton, hkey]
      simp [hc, Call.status]
    | @moved pk e hk' hm =>
      have hpk : pk = k := Option.some.inj (hk'.symm.trans hkey)
      subst hpk
      have hat : getDeviceStatus keccak (setStatus s (keccak pk) t.call.status e) pk = t.call.status := by
        rw [getDeviceStatus, devices_setStatus, if_pos rfl]
      rw [Current, hat, Option.toList_some, List.filter_singleton, hkey]
      simp
    | same h =>
      rw [Option.toList_none, List.filter_nil, List.append_nil, Current, getDeviceStatus, h.devices]
      exact hs
  · have hnil : (lifecycleCall keccak (s, t)).toList.filter (·.key = some k) = [] := by
      unfold lifecycleCall
      split
      · simp [hkey]
      · rfl
    have hframe : (DeviceRegistry.exec keccak s t).devices (keccak k) = s.devices (keccak k) :=
      exec_frame s t fun pk hpk heq => hkey (hk pk hpk heq ▸ hpk)
    rw [hnil, List.append_nil, Current, getDeviceStatus, hframe]
    exact hs

theorem Current.run {sender admin : Address} (h0 : construct sender admin = .ok s) {k : Bytes} (txs : List Tx)
    (hk : Unshared keccak k txs) :
    Current keccak k (lifecycleCalls keccak s txs k) (Runs.run (DeviceRegistry.exec keccak) s txs) := by
  refine Runs.run_induction
    (P := fun txs s' => Unshared keccak k txs → Current keccak k (lifecycleCalls keccak s txs k) s') ?_ ?_ txs hk
  · intro _
    rw [Current, getDeviceStatus, (construct_same h0).devices]
    rfl
  · intro txs t ih hk
    rw [lifecycleCalls_concat]
    have hs := ih fun u hu => hk u (List.mem_append_left _ hu)
    exact hs.exec fun pk => hk t (List.mem_append_right _ (List.mem_singleton_self t)) pk

theorem Call.status_eq_active {c : Call} : c.status = .Active ↔ c.activates = true := by
  cases c <;> simp [Call.status, Call.activates]

theorem authorized_iff {k : Bytes} {calls : List Call} (hs : Current keccak k calls s) :
    isAuthorized keccak s k = true ↔ k.length = 64 ∧ ∃ c ∈ calls.getLast?, c.activates = true := by
  rw [isAuthorized_iff, hs]
  refine and_congr_right fun _ => ?_
  cases calls.getLast? with
  | none => simp
  | some c => simp [Call.status_eq_active]

theorem lifecycle_registered {pk : Bytes} {lat lon : I32} : lifecycle (registered keccak cx s pk lat lon) =
    lifecycle s ++ [.deviceRegistered (keccak pk) lat lon (cx.timestamp.setWidth 64) cx.sender] := lifecycle_emit ..

theorem lifecycle_setStatus {h : Bytes32} {st : DeviceStatus} {e : RegistryEvent} (he : isLifecycle e = true) :
    lifecycle (setStatus s h st e) = lifecycle s ++ [e] := by
  rw [setStatus, lifecycle_emit, List.filter_singleton, he]
  rfl

theorem lifecycle_addsOne : Runs.AddsOne (exec keccak) lifecycle := by
  intro s t
  have he := @exec_effect keccak s t
  generalize lifecycleCall keccak (s, t) = c, exec keccak s t = s' at he ⊢
  cases he with
  | registered => exact .inr ⟨_, lifecycle_registered⟩
  | moved _ hm => exact .inr ⟨_, lifecycle_setStatus hm.isLifecycle⟩
  | same h => exact .inl h.lifecycle

theorem lifecycle_construct {sender admin : Address} (h0 : construct sender admin = .ok s) : lifecycle s = [] := by
  rw [(construct_same h0).lifecycle]
  rfl

theorem length_hashes_run {sender admin : Address} (h0 : construct sender admin = .ok s) (txs : List Tx) :
    (hashes (Runs.run (exec keccak) s txs)).length ≤ txs.length := by
  have hlen := (@lifecycle_addsOne keccak).length_le s txs
  have hfilter := List.length_filterMap_le registeredHash (lifecycle (Runs.run (exec keccak) s txs))
  rw [lifecycle_construct h0, List.length_nil] at hlen
  rw [hashes]
  omega

/-- Keys in a status that registered keys can have are counted along the log. -/
theorem RegistryInv.ncard_status (hs : RegistryInv s) {p : DeviceStatus → Bool} (hp : p .Unknown = false) :
    {h | p (s.devices h).status = true}.ncard = (hashes s).countP fun h => p (s.devices h).status := by
  have hset : {h | p (s.devices h).status = true} =
      (((hashes s).filter fun h => p (s.devices h).status).toFinset : Set Bytes32) := by
    ext h
    simp only [Set.mem_ofPred_eq, List.coe_toFinset, List.mem_filter, ← hs.known h]
    refine ⟨fun hph => ⟨fun hu => ?_, hph⟩, fun hh => hh.2⟩
    rw [hu, hp] at hph
    cases hph
  rw [hset, Set.ncard_coe_finset, List.toFinset_card_of_nodup (hs.nodup.filter _), List.countP_eq_length_filter]

theorem RegistryInv.ncard_registered (hs : RegistryInv s) :
    {h | (s.devices h).status ≠ .Unknown}.ncard = (hashes s).length := by
  have hcard := hs.ncard_status (p := fun st => decide (st ≠ .Unknown)) (by decide)
  simp only [decide_eq_true_eq] at hcard
  rw [hcard, List.countP_eq_length]
  exact fun h hh => decide_eq_true ((hs.known h).2 hh)

/-- Below `2 ^ 256` registrations the unchecked counter is the number of registered keys. -/
theorem RegistryInv.toNat_deviceCount (hs : RegistryInv s) (hlt : (hashes s).length < 2 ^ 256) :
    s.deviceCount.toNat = {h | (s.devices h).status ≠ .Unknown}.ncard := by
  rw [hs.ncard_registered, hs.count, BitVec.toNat_ofNat, Nat.mod_eq_of_lt hlt]

theorem registry_invariants {sender admin : Address} (h0 : construct sender admin = .ok s) (txs : List Tx)
    (hcalls : txs.length < 2 ^ 256) :
    (Runs.run (exec keccak) s txs).deviceCount.toNat =
      {h | ((Runs.run (exec keccak) s txs).devices h).status ≠ .Unknown}.ncard ∧
    (∀ h, ((Runs.run (exec keccak) s txs).devices h).status ≠ .Unknown → ∀ more,
      Kept ((Runs.run (exec keccak) s txs).devices h) ((Runs.run (exec keccak) s (txs ++ more)).devices h)) ∧
    (∀ h, ((Runs.run (exec keccak) s txs).devices h).status ≠ .Unknown →
      InBounds ((Runs.run (exec keccak) s txs).devices h).latE7 ((Runs.run (exec keccak) s txs).devices h).lonE7) ∧
    (∀ (t : Tx) s', call keccak t.context (Runs.run (exec keccak) s txs) t.call = .ok s' →
      ∀ h, (∀ pk, t.call.key = some pk → keccak pk ≠ h) → s'.devices h = (Runs.run (exec keccak) s txs).devices h) ∧
    (∀ (t : Tx) e, call keccak t.context (Runs.run (exec keccak) s txs) t.call = .error e →
      exec keccak (Runs.run (exec keccak) s txs) t = Runs.run (exec keccak) s txs) ∧
    ∀ k, Set.InjOn keccak {pk | pk = k ∨ ∃ t ∈ txs, t.call.key = some pk} →
      (isAuthorized keccak (Runs.run (exec keccak) s txs) k = true ↔
        k.length = 64 ∧ ∃ c ∈ (lifecycleCalls keccak s txs k).getLast?, c.activates = true) := by
  have hinv := @RegistryInv.run keccak _ _ _ h0 txs
  have hlen := @length_hashes_run keccak _ _ _ h0 txs
  refine ⟨hinv.toNat_deviceCount (by omega), fun h hd more => ?_, hinv.bounds, fun t s' hc h hne => ?_,
    fun t e hc => ?_, fun k hk => ?_⟩
  · rw [Runs.run_append]
    exact Kept.run _ more hd
  · have hframe := exec_frame (Runs.run (exec keccak) s txs) t hne
    rwa [exec, hc] at hframe
  · rw [exec, hc]
  · exact authorized_iff (Current.run h0 txs (.of_injOn hk))

namespace SampleDevices
open V3.TestChain

def key : Bytes := List.replicate 64 7

/-- Account 1 deploys the registry for itself. -/
def start : RegistryState := ((construct 1 1).toOption).getD fresh

def at1 (c : Call) : Tx := ⟨⟨1, 1000⟩, c⟩

def lives : List Tx :=
  [at1 (.grantRole (OPERATOR_ROLE packKeccak) 1), at1 (.registerDevice key 480000000 250000000), at1 (.revokeDevice key),
    at1 (.reactivateDevice key), at1 (.registerDevice key 0 0)]

end SampleDevices

open SampleDevices V3.TestChain in
theorem registry_invariants_sample :
    construct 1 1 = .ok start ∧ lives.length < 2 ^ 256 ∧
    Set.InjOn packKeccak {pk | pk = key ∨ ∃ t ∈ lives, t.call.key = some pk} ∧
    {h | ((Runs.run (exec packKeccak) start lives).devices h).status ≠ .Unknown}.ncard = 1 ∧
    isAuthorized packKeccak (Runs.run (exec packKeccak) start lives) key = true := by
  have h0 : construct 1 1 = .ok start := rfl
  have hn : lives.length < 2 ^ 256 := by decide
  have hkeys : ∀ pk, (pk = key ∨ ∃ t ∈ lives, t.call.key = some pk) → pk = key := by
    simp [lives, at1, Call.key]
  have hinj : Set.InjOn packKeccak {pk | pk = key ∨ ∃ t ∈ lives, t.call.key = some pk} :=
    fun a ha b hb _ => (hkeys a ha).trans (hkeys b hb).symm
  obtain ⟨hcount, -, -, -, -, hauth⟩ := @registry_invariants packKeccak _ _ _ h0 lives hn
  have hlast : (lifecycleCalls packKeccak start lives key).getLast?.any Call.activates = true := by decide +kernel
  refine ⟨h0, hn, hinj, ?_, (hauth key hinj).2 ⟨by decide, (Option.any_eq_true ..).1 hlast⟩⟩
  rw [← hcount]
  decide +kernel

end DeviceRegistry
end InfraVeritas
