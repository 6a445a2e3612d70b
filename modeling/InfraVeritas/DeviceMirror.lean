import InfraVeritas.Subgraph
import Mathlib.Data.BitVec

/-!
# The subgraph mirrors the device registry

`Tracks` ties a store to a registry state: the `Device` entities are the registered keys in order, row by
row, and the four device counters of `Protocol` count them. Each device event carries it from one registry
state to the next (`Tracks.registered`, `Tracks.moved`), every other event leaves it alone, and
`Tracks.run` follows a stream of events along the run that emitted them. `registry_mirrored` reads the
claims about the contract off it.
-/

namespace InfraVeritas
open DeviceRegistry (RegistryInv Moves hashes lifecycle construct)

namespace Subgraph

/-! ### Rows -/

def Status.onChain : Status → DeviceStatus
  | .Active => .Active
  | .Revoked => .Revoked
  | .Suspended => .Suspended

theorem Status.onChain_inj {st st' : Status} : st.onChain = st'.onChain ↔ st = st' := by
  cases st <;> cases st' <;> simp [Status.onChain]

/-- What both sides keep about a device. -/
structure Row where
  id : String
  latE7 : I32
  lonE7 : I32
  registeredAt : Nat
  status : DeviceStatus

def Device.row (d : Device) : Row := ⟨d.id, d.latE7, d.lonE7, d.registeredAt, d.status.onChain⟩

def rowOf (r : RegistryState) (h : Bytes32) : Row :=
  ⟨toHexString h, (r.devices h).latE7, (r.devices h).lonE7, (r.devices h).registeredAt.toNat, (r.devices h).status⟩

/-! ### Counters -/

def Protocol.count (p : Protocol) : Status → I32
  | .Active => p.activeDevices
  | .Revoked => p.revokedDevices
  | .Suspended => p.suspendedDevices

/-- The counters of `p` count `ds`, up to the width of the fields. -/
structure Counts (p : Protocol) (ds : List Device) : Prop where
  total : p.totalDevices = BitVec.ofNat 32 ds.length
  byStatus : ∀ st, p.count st = BitVec.ofNat 32 (ds.countP (·.status = st))

/-- `p'` is `p` after one device went from `old` to `new`. -/
structure Recounts (old new : Status) (p p' : Protocol) : Prop where
  total : p'.totalDevices = p.totalDevices
  byStatus : ∀ st, p'.count st + (if old = st then 1 else 0) = p.count st + if new = st then 1 else 0

theorem Counts.modify {p p' : Protocol} {ds : List Device} {k : String} {d : Device} {f : Device → Device}
    (hc : Counts p ds) (hn : (ds.map Device.id).Nodup) (hd : Keyed.find Device.id ds k = some d)
    (hp : Recounts d.status (f d).status p p') : Counts p' (Keyed.modify Device.id ds k f) := by
  refine ⟨?_, ?_⟩
  · rw [hp.total, hc.total, Keyed.modify, List.length_map]
  · intro st
    have hcount := Keyed.countP_modify (f := f) hn hd fun d => decide (d.status = st)
    have hcast := congrArg (BitVec.ofNat 32) hcount
    have hite (c : Prop) [Decidable c] : BitVec.ofNat 32 (if c then 1 else 0) = if c then 1 else 0 := by
      split <;> rfl
    simp only [BitVec.ofNat_add, decide_eq_true_eq, hite] at hcast
    have hst := hp.byStatus st
    rw [hc.byStatus st, ← hcast] at hst
    exact (BitVec.add_left_inj _).1 hst

/-! ### One event -/

structure Tracks (r : RegistryState) (s : Store) : Prop where
  rows : s.devices.map Device.row = (hashes r).map (rowOf r)
  counts : Counts (loadOrCreateProtocol s) s.devices

namespace Tracks
variable {keccak : Bytes → Bytes32} {r r' : RegistryState} {s s' : Store} {h : Bytes32}

theorem ids (hs : Tracks r s) : s.devices.map Device.id = (hashes r).map toHexString := by
  have hid := congrArg (List.map Row.id) hs.rows
  rwa [List.map_map, List.map_map] at hid

theorem nodup (hs : Tracks r s) (hr : RegistryInv r) : (s.devices.map Device.id).Nodup := by
  rw [hs.ids]
  exact hr.nodup.map fun _ _ => toHexString_inj.1

theorem device_eq_none_iff (hs : Tracks r s) (hr : RegistryInv r) :
    s.device (toHexString h) = none ↔ (r.devices h).status = .Unknown := by
  rw [Store.device, Keyed.find_eq_none_iff, hs.ids, List.mem_map, ← not_iff_not, not_not, ← ne_eq, hr.known]
  constructor
  · rintro ⟨h', hh, heq⟩
    exact toHexString_inj.1 heq ▸ hh
  · intro hh
    exact ⟨h, hh, rfl⟩

theorem row_of_device (hs : Tracks r s) {d : Device} (hd : s.device (toHexString h) = some d) : d.row = rowOf r h := by
  have hmem : d.row ∈ s.devices.map Device.row := List.mem_map_of_mem (Keyed.mem_of_find hd)
  rw [hs.rows] at hmem
  obtain ⟨h', -, heq⟩ := List.mem_map.1 hmem
  have hid : d.id = toHexString h := Keyed.key_of_find hd
  have hid' : toHexString h' = toHexString h := (congrArg Row.id heq).trans hid
  rw [← heq, toHexString_inj.1 hid']

theorem same (hs : Tracks r s) (hr : DeviceRegistry.SameDevices r r') : Tracks r' s := by
  have hh : hashes r' = hashes r := by rw [hashes, hr.lifecycle, hashes]
  refine ⟨?_, hs.counts⟩
  rw [hs.rows, hh]
  refine List.map_congr_left ?_
  intro h _
  rw [rowOf, rowOf, hr.devices]

theorem proof (hs : Tracks r s) (cx : EventContext) (e : ProofSubmitted) : Tracks r (handleProofSubmitted cx s e) := by
  refine ⟨hs.rows, ?_⟩
  have hsame : ∀ p p' : Protocol, p'.totalDevices = p.totalDevices → (∀ st, p'.count st = p.count st) →
      Counts p s.devices → Counts p' s.devices := by
    intro p p' ht hc h
    exact ⟨ht.trans h.total, fun st => (hc st).trans (h.byStatus st)⟩
  refine hsame (loadOrCreateProtocol s) _ ?_ (fun st => ?_) hs.counts
  · unfold handleProofSubmitted loadOrCreateProtocol
    simp only [Option.getD_some]
    split <;> rfl
  · unfold handleProofSubmitted loadOrCreateProtocol
    simp only [Option.getD_some]
    cases st <;> split <;> rfl

/-- A new key: no entity has its id, and the new one becomes the last. -/
theorem registered (hs : Tracks r s) (hr : RegistryInv r) {cx : DeviceRegistry.Context} {pk : Bytes} {lat lon : I32}
    (hnew : (r.devices (keccak pk)).status = .Unknown) :
    Tracks (DeviceRegistry.registered keccak cx r pk lat lon)
      (handleDeviceRegistered s (keccak pk) lat lon (cx.timestamp.setWidth 64) cx.sender) := by
  have hnone : s.device (toHexString (keccak pk)) = none := (hs.device_eq_none_iff hr).2 hnew
  have hfresh : keccak pk ∉ hashes r := fun h => (hr.known _).2 h hnew
  rw [handleDeviceRegistered_of_none _ _ _ _ hnone]
  refine ⟨?_, ?_⟩
  · rw [List.map_append, hs.rows, RegistryInv.hashes_registered, List.map_append]
    congr 1
    · refine List.map_congr_left ?_
      intro h hh
      have hne : h ≠ keccak pk := fun hk => hfresh (hk ▸ hh)
      rw [rowOf, rowOf, DeviceRegistry.devices_registered_of_ne r lat lon hne]
    · rw [List.map_singleton, List.map_singleton, rowOf, DeviceRegistry.devices_registered]
      rfl
  · refine ⟨?_, ?_⟩
    · show (loadOrCreateProtocol s).totalDevices + 1 = _
      rw [hs.counts.total, List.length_append, List.length_singleton, BitVec.ofNat_add]
      rfl
    · intro st
      rw [List.countP_append, BitVec.ofNat_add, ← hs.counts.byStatus st]
      cases st with
      | Active => rfl
      | Revoked | Suspended => exact (BitVec.add_zero _).symm

/-- A known key: its entity is updated in place and the counters follow the two statuses. -/
theorem status (hs : Tracks r s) (hr : RegistryInv r) {new : Status} {e : RegistryEvent} {update : Device → Device}
    {count : Status → Protocol → Protocol} (he : DeviceRegistry.registeredHash e = none)
    (hknown : (r.devices h).status ≠ .Unknown)
    (hu : ∀ d, (update d).row = ⟨d.id, d.latE7, d.lonE7, d.registeredAt, new.onChain⟩)
    (hc : ∀ old : Status, (r.devices h).status = old.onChain → ∀ p, Recounts old new p (count old p)) :
    Tracks (DeviceRegistry.setStatus r h new.onChain e) (handleStatus s h update count) := by
  rcases hd : s.device (toHexString h) with _ | d
  · exact absurd ((hs.device_eq_none_iff hr).1 hd) hknown
  have hrow := hs.row_of_device hd
  have hnodup := hs.nodup hr
  have hid : d.id = toHexString h := Keyed.key_of_find hd
  have hkey : (update d).id = toHexString h := (congrArg Row.id (hu d)).trans hid
  have hstatus : (update d).status = new := Status.onChain_inj.1 (congrArg Row.status (hu d))
  have hold : (r.devices h).status = d.status.onChain := (congrArg Row.status hrow).symm
  rw [handleStatus_of_some hd]
  refine ⟨?_, ?_⟩
  · rw [Keyed.save_eq_modify hnodup hd hkey, RegistryInv.hashes_setStatus he]
    have hmodify : (Keyed.modify Device.id s.devices (toHexString h) update).map Device.row =
        (s.devices.map Device.row).map fun row => if row.id = toHexString h then { row with status := new.onChain } else row := by
      rw [Keyed.modify, List.map_map, List.map_map]
      refine List.map_congr_left ?_
      intro d' _
      show Device.row (if d'.id = toHexString h then update d' else d') = if d'.id = toHexString h then _ else _
      split
      · exact hu d'
      · rfl
    rw [hmodify, hs.rows, List.map_map]
    refine List.map_congr_left ?_
    intro h' _
    rw [Function.comp_apply, rowOf, rowOf, DeviceRegistry.devices_setStatus]
    by_cases hh : h' = h
    · simp [hh]
    · simp [hh, toHexString_inj]
  · rw [Keyed.save_eq_modify hnodup hd hkey]
    refine hs.counts.modify hnodup hd ?_
    rw [hstatus]
    exact hc d.status hold (loadOrCreateProtocol s)

/-- The counter of the old status is taken down only for the statuses that the contract lets through. -/
theorem moved (hs : Tracks r s) (hr : RegistryInv r) (cx : EventContext) {operator : Address} {new : DeviceStatus}
    {e : RegistryEvent} (hm : Moves h operator (r.devices h).status new e) :
    Tracks (DeviceRegistry.setStatus r h new e) (handle s ⟨cx, .device e⟩) := by
  have hknown := hm.old_ne
  generalize hold : (r.devices h).status = old at hm
  cases hm with
  | revoke ho =>
    show Tracks _ (handleDeviceRevoked cx s h)
    rw [handleDeviceRevoked]
    refine @status r s h hs hr .Revoked _ _ _ rfl (hold ▸ hknown) (fun d => rfl) fun st hst p => ?_
    rw [← hold, hst] at ho
    refine ⟨?_, ?_⟩
    · cases st <;> simp
    · intro st'
      cases st <;> cases st' <;> simp [Status.onChain, Protocol.count] at ho ⊢
  | reactivate ho =>
    show Tracks _ (handleDeviceReactivated cx s h)
    rw [handleDeviceReactivated]
    refine @status r s h hs hr .Active _ _ _ rfl (hold ▸ hknown) (fun d => rfl) fun st hst p => ?_
    rw [← hold, hst] at ho
    refine ⟨?_, ?_⟩
    · cases st <;> simp
    · intro st'
      cases st <;> cases st' <;> simp [Status.onChain, Protocol.count] at ho ⊢
  | suspend =>
    show Tracks _ (handleDeviceSuspended cx s h)
    rw [handleDeviceSuspended]
    refine @status r s h hs hr .Suspended _ _ _ rfl (hold ▸ hknown) (fun d => rfl) fun st hst p => ?_
    rw [hold] at hst
    refine ⟨?_, ?_⟩
    · cases st <;> simp
    · intro st'
      cases st <;> cases st' <;> simp [Status.onChain, Protocol.count] at hst ⊢

theorem other (hs : Tracks r s) {x : Entry} (hx : deviceEvent x = none) : Tracks r (handle s x) := by
  obtain ⟨cx, e | e⟩ := x
  · cases e with
    | oz e => exact hs
    | deviceRegistered | deviceRevoked | deviceReactivated | deviceSuspended => cases hx
  · exact hs.proof cx e

theorem quiet (hs : Tracks r s) {xs : List Entry} (hx : deviceEvents xs = []) : Tracks r (Runs.run handle s xs) :=
  Runs.run_inv_of_steps hs fun x hmem hx' =>
    hx'.other (List.filterMap_eq_nil_iff.1 hx x.2 (Runs.input_mem handle hmem))

theorem start {sender admin : Address} (h0 : construct sender admin = .ok r) : Tracks r empty := by
  have hh : hashes r = [] := by rw [hashes, DeviceRegistry.lifecycle_construct h0, List.filterMap_nil]
  refine ⟨by rw [hh]; rfl, rfl, ?_⟩
  intro st
  cases st <;> rfl

/-- The stream is split at the event of the last transaction, if it has one. -/
theorem run {sender admin : Address} (h0 : construct sender admin = .ok r) (txs : List DeviceRegistry.Tx)
    {stream : List Entry} (hstream : deviceEvents stream = lifecycle (Runs.run (DeviceRegistry.exec keccak) r txs)) :
    Tracks (Runs.run (DeviceRegistry.exec keccak) r txs) (replay stream) := by
  induction txs using List.reverseRecOn generalizing stream with
  | nil =>
    rw [Runs.run_nil, DeviceRegistry.lifecycle_construct h0] at hstream
    exact (start h0).quiet hstream
  | append_singleton txs t ih =>
    rw [Runs.run_concat] at hstream ⊢
    have hr := @RegistryInv.run keccak _ _ _ h0 txs
    generalize Runs.run (DeviceRegistry.exec keccak) r txs = r' at hstream ih hr ⊢
    have he := @DeviceRegistry.exec_effect keccak r' t
    generalize DeviceRegistry.lifecycleCall keccak (r', t) = c, DeviceRegistry.exec keccak r' t = r'' at he hstream ⊢
    have hsplit : ∀ e, deviceEvents stream = lifecycle r' ++ [e] → ∃ cx ys zs, stream = ys ++ ⟨cx, .device e⟩ :: zs ∧
        Tracks r' (replay ys) ∧ deviceEvents zs = [] := by
      intro e hes
      obtain ⟨ys, x, zs, rfl, hys, hx, hzs⟩ := Runs.filterMap_eq_concat hes
      obtain ⟨cx, e' | e'⟩ := x
      · obtain ⟨-, rfl⟩ : DeviceRegistry.isLifecycle e' = true ∧ e' = e := by simpa [deviceEvent] using hx
        exact ⟨cx, ys, zs, rfl, ih hys, hzs⟩
      · cases hx
    have hlast : ∀ cx e ys zs, deviceEvents zs = [] → Tracks r'' (handle (replay ys) ⟨cx, .device e⟩) →
        Tracks r'' (replay (ys ++ ⟨cx, .device e⟩ :: zs)) := by
      intro cx e ys zs hzs hs
      rw [replay, Runs.run_append, Runs.run_cons]
      exact hs.quiet hzs
    cases he with
    | registered _ _ _ hnew =>
      obtain ⟨cx, ys, zs, rfl, hs, hzs⟩ := hsplit _ (hstream.trans DeviceRegistry.lifecycle_registered)
      exact hlast _ _ _ _ hzs (hs.registered hr hnew)
    | moved _ hm =>
      obtain ⟨cx, ys, zs, rfl, hs, hzs⟩ := hsplit _ (hstream.trans (DeviceRegistry.lifecycle_setStatus hm.isLifecycle))
      exact hlast _ _ _ _ hzs (hs.moved hr cx hm)
    | same h =>
      rw [h.lifecycle] at hstream
      exact (ih hstream).same h

end Tracks

/-! ### The mirror -/

/-- What a client of the subgraph sees: the entities and counters agree with the contract. -/
structure Mirrors (r : RegistryState) (s : Store) : Prop where
  ids : (s.devices.map Device.id).Nodup ∧ ∀ d ∈ s.devices, ∃ h, d.id = toHexString h
  absent : ∀ h, s.device (toHexString h) = none ↔ (r.devices h).status = .Unknown
  device : ∀ h d, s.device (toHexString h) = some d → d.status.onChain = (r.devices h).status ∧
    d.latE7 = (r.devices h).latE7 ∧ d.lonE7 = (r.devices h).lonE7 ∧ d.registeredAt = (r.devices h).registeredAt.toNat
  total : (loadOrCreateProtocol s).totalDevices.toInt = r.deviceCount.toNat
  count : ∀ st, ((loadOrCreateProtocol s).count st).toInt = {h | (r.devices h).status = st.onChain}.ncard
  nonneg : ∀ st, 0 ≤ ((loadOrCreateProtocol s).count st).toInt
  sum : (loadOrCreateProtocol s).activeDevices.toInt + (loadOrCreateProtocol s).revokedDevices.toInt +
    (loadOrCreateProtocol s).suspendedDevices.toInt = (loadOrCreateProtocol s).totalDevices.toInt

theorem toInt_ofNat32 {n : Nat} (h : n < 2 ^ 31) : (BitVec.ofNat 32 n).toInt = n := by
  have hn : (BitVec.ofNat 32 n).toNat = n := by
    rw [BitVec.toNat_ofNat]
    omega
  rw [BitVec.toInt_eq_toNat_of_lt (by omega), hn]

theorem countP_status (ds : List Device) : ds.countP (·.status = .Active) + ds.countP (·.status = .Revoked) +
    ds.countP (·.status = .Suspended) = ds.length := by
  induction ds with
  | nil => rfl
  | cons d ds ih =>
    simp only [List.countP_cons, List.length_cons, decide_eq_true_eq]
    cases d.status <;> simp <;> omega

theorem Tracks.mirrors {r : RegistryState} {s : Store} (hs : Tracks r s) (hr : RegistryInv r)
    (hlt : (hashes r).length < 2 ^ 31) : Mirrors r s := by
  have hlen : s.devices.length = (hashes r).length := by
    have h := congrArg List.length hs.rows
    rwa [List.length_map, List.length_map] at h
  have hle : ∀ st, s.devices.countP (·.status = st) < 2 ^ 31 := fun st =>
    Nat.lt_of_le_of_lt List.countP_le_length (hlen ▸ hlt)
  have hcount : ∀ st, ((loadOrCreateProtocol s).count st).toInt = (s.devices.countP (·.status = st) : ℕ) := by
    intro st
    rw [hs.counts.byStatus st, toInt_ofNat32 (hle st)]
  have htotal : (loadOrCreateProtocol s).totalDevices.toInt = s.devices.length := by
    rw [hs.counts.total, toInt_ofNat32 (hlen ▸ hlt)]
  refine ⟨⟨hs.nodup hr, fun d hd => ?_⟩, fun h => hs.device_eq_none_iff hr, fun h d hd => ?_, ?_, fun st => ?_,
    fun st => ?_, ?_⟩
  · have hid : d.id ∈ s.devices.map Device.id := List.mem_map_of_mem hd
    rw [hs.ids] at hid
    obtain ⟨h, -, heq⟩ := List.mem_map.1 hid
    exact ⟨h, heq.symm⟩
  · have hrow := hs.row_of_device hd
    exact ⟨congrArg Row.status hrow, congrArg Row.latE7 hrow, congrArg Row.lonE7 hrow, congrArg Row.registeredAt hrow⟩
  · rw [htotal, hlen, hr.toNat_deviceCount (by omega), hr.ncard_registered]
  · rw [hcount st]
    have hcard := hr.ncard_status (p := fun st' => decide (st' = st.onChain)) (by cases st <;> rfl)
    simp only [decide_eq_true_eq] at hcard
    rw [hcard]
    have hrows := congrArg (List.countP fun row : Row => decide (row.status = st.onChain)) hs.rows
    rw [List.countP_map, List.countP_map] at hrows
    refine congrArg Nat.cast (Eq.trans (List.countP_congr fun d _ => ?_) hrows)
    simp [Device.row, Status.onChain_inj]
  · rw [hcount st]
    omega
  · have hsum := countP_status s.devices
    have ha := hcount .Active
    have hv := hcount .Revoked
    have hp := hcount .Suspended
    simp only [Protocol.count] at ha hv hp
    omega

theorem registry_mirrored {keccak : Bytes → Bytes32} {sender admin : Address} {r : RegistryState}
    (h0 : construct sender admin = .ok r) (txs : List DeviceRegistry.Tx) {stream : List Entry}
    (hstream : deviceEvents stream = lifecycle (Runs.run (DeviceRegistry.exec keccak) r txs))
    (hcount : {h | ((Runs.run (DeviceRegistry.exec keccak) r txs).devices h).status ≠ .Unknown}.ncard < 2 ^ 31)
    {pre : List Entry} (hpre : pre <+: stream) :
    (∃ txs', txs' <+: txs ∧ deviceEvents pre = lifecycle (Runs.run (DeviceRegistry.exec keccak) r txs')) ∧
    ∀ txs', txs' <+: txs → deviceEvents pre = lifecycle (Runs.run (DeviceRegistry.exec keccak) r txs') →
      Mirrors (Runs.run (DeviceRegistry.exec keccak) r txs') (replay pre) := by
  have hadds := @DeviceRegistry.lifecycle_addsOne keccak
  have hlog : deviceEvents pre <+: lifecycle (Runs.run (DeviceRegistry.exec keccak) r txs) := by
    rw [← hstream]
    exact hpre.filterMap deviceEvent
  refine ⟨?_, ?_⟩
  · obtain ⟨txs', htxs, heq⟩ := hadds.exists_run (DeviceRegistry.lifecycle_construct h0) hlog
    exact ⟨txs', htxs, heq.symm⟩
  · intro txs' htxs hes
    have hr := @RegistryInv.run keccak _ _ _ h0 txs'
    refine (Tracks.run h0 txs' hes).mirrors hr ?_
    obtain ⟨more, rfl⟩ := htxs
    have hgrow := (hadds.grows (Runs.run (DeviceRegistry.exec keccak) r txs') more).filterMap DeviceRegistry.registeredHash
    rw [← Runs.run_append] at hgrow
    rw [(RegistryInv.run h0 _).ncard_registered] at hcount
    exact Nat.lt_of_le_of_lt hgrow.length_le hcount

namespace SampleStream
open V3.TestChain DeviceRegistry.SampleDevices

def context : EventContext := ⟨1, 1000, 0⟩

def proof : Entry := ⟨context, .proof ⟨7, 1, 1000, 0, false⟩⟩

def deviceEntry (e : RegistryEvent) : Entry := ⟨context, .device e⟩

/-- The events of the key's life, with submissions in between. -/
def stream : List Entry :=
  (lifecycle (Runs.run (DeviceRegistry.exec packKeccak) start lives)).flatMap fun e => [deviceEntry e, proof]

end SampleStream

open SampleStream V3.TestChain DeviceRegistry.SampleDevices in
theorem registry_mirrored_sample :
    construct 1 1 = .ok start ∧
    deviceEvents stream = lifecycle (Runs.run (DeviceRegistry.exec packKeccak) start lives) ∧
    {h | ((Runs.run (DeviceRegistry.exec packKeccak) start lives).devices h).status ≠ .Unknown}.ncard < 2 ^ 31 ∧
    stream.length = 6 ∧ Mirrors (Runs.run (DeviceRegistry.exec packKeccak) start lives) (replay stream) := by
  have h0 : construct 1 1 = .ok start := rfl
  have hstream : deviceEvents stream = lifecycle (Runs.run (DeviceRegistry.exec packKeccak) start lives) := by
    decide +kernel
  have hcount : {h | ((Runs.run (DeviceRegistry.exec packKeccak) start lives).devices h).status ≠ .Unknown}.ncard <
      2 ^ 31 := by
    have hlen := @DeviceRegistry.length_hashes_run packKeccak _ _ _ h0 lives
    have hlives : lives.length < 2 ^ 31 := by decide
    rw [(RegistryInv.run h0 lives).ncard_registered]
    omega
  have hmirror := registry_mirrored h0 lives hstream hcount List.prefix_rfl
  exact ⟨h0, hstream, hcount, by decide +kernel, hmirror.2 lives List.prefix_rfl hstream⟩

end Subgraph
end InfraVeritas
