import InfraVeritas.Circuit
import InfraVeritas.DeviceRegistry
import InfraVeritas.V3Log

/-!
# From an accepted submission back to the device

The two contracts run together: V3 asks the registry deployed at its `deviceRegistry` address. Under
`Assumptions` on the verifiers, the sponge and the registered keys, the circuit's witness is the
serialization of a payload the device signed, and the range checks of `encodePublicInputs` turn the
field equations of the circuit into integer ones.

The circuit verifies a signature too, but under a public key of the prover's choice; only the
contract's P-256 check names the registered key.
-/

namespace InfraVeritas
open BigEndian Checks

structure World where
  v3 : V3State
  registries : Address → RegistryState

namespace World

inductive Action
  | v3 (t : V3.Tx)
  | registry (addr : Address) (t : DeviceRegistry.Tx)

variable (keccak : Bytes → Bytes32)

/-- The context of a call to the proxy: `isAuthorized` is answered by the registries of `w`. -/
def envIn (w : World) (env : Env) : Env :=
  { env with oracles := { env.oracles with
      isAuthorized := fun addr pk => .returned (DeviceRegistry.isAuthorized keccak (w.registries addr) pk) } }

def step (w : World) : Action → World
  | .v3 t => { w with v3 := V3.exec keccak w.v3 ⟨envIn keccak w t.env, t.call⟩ }
  | .registry addr t =>
    { w with registries := Function.update w.registries addr (DeviceRegistry.exec keccak (w.registries addr) t) }

structure Deployed (w : World) : Prop where
  v3 : V3.Deployed keccak w.v3
  registries : ∀ addr, ∃ sender admin, DeviceRegistry.construct sender admin = .ok (w.registries addr)

/-- The arguments of the submission that action `x.2` gets accepted in the world `x.1`. -/
def acceptedArgs (x : World × Action) : Option SubmitArgs :=
  match x.2 with
  | .v3 ⟨env, .submitProof a⟩ =>
    if (V3.submitProof keccak (envIn keccak x.1 env) x.1.v3 a).isOk then some a else none
  | _ => none

variable {keccak}

theorem acceptedArgs_eq_some {x : World × Action} {a : SubmitArgs} (h : acceptedArgs keccak x = some a) :
    ∃ env, x.2 = .v3 ⟨env, .submitProof a⟩ ∧ V3.Accepts keccak (envIn keccak x.1 env) x.1.v3 a := by
  unfold acceptedArgs at h
  split at h
  · next env b hx =>
    split at h
    · next hok =>
      obtain rfl := Option.some.inj h
      exact ⟨env, hx, V3.accepts_of_isOk hok⟩
    · cases h
  · cases h

theorem step_v3_of_accepts {w : World} {env : Env} {a : SubmitArgs}
    (h : V3.Accepts keccak (envIn keccak w env) w.v3 a) :
    (step keccak w (.v3 ⟨env, .submitProof a⟩)).v3 = V3.accepted keccak w.v3 a.pubInputs :=
  V3.exec_of_accepts (t := ⟨envIn keccak w env, .submitProof a⟩) rfl h

/-! ### Assumptions -/

/-- What the verifiers and the devices are assumed to do during a run. `signs pk q` says that the
holder of `pk` signed the payload `q`, `signed pk h` that it signed the 32-byte hash `h`; `vectors` are
the 307-element vectors that occur, as serializations of signed payloads or in a prover's witness. -/
structure Assumptions (keccak : Bytes → Bytes32) (perm : Poseidon.Permutation) (std : Circuit.Std)
    (vectors : Set (List Field)) (signed : Bytes → Bytes32 → Prop) (signs : Bytes → CanonicalPayload → Prop)
    (run : List (World × Action)) : Prop where
  honk : ∀ x ∈ run, ∀ t, x.2 = .v3 t → ∀ addr proof words,
    t.env.oracles.verifyHonk addr proof words = .returned true →
      (∀ w ∈ words, w.toNat < P) ∧
      ∃ priv : Circuit.Private, priv.canonical_payload ∈ vectors ∧
        Circuit.main std (.ofList (toFields (words.map (·.toNat)))) priv = .ok ()
  p256 : ∀ x ∈ run, ∀ t, x.2 = .v3 t → ∀ addr h r s pk, pk.length = 64 →
    t.env.oracles.verifyP256 addr h r s (calldataload pk 0) (calldataload pk 32) = .returned true → signed pk h
  devices : ∀ x ∈ run, ∀ addr pk, DeviceRegistry.getDeviceStatus keccak (x.1.registries addr) pk ≠ .Unknown →
    ∀ h, signed pk h → ∃ q, signs pk q ∧ Edge.computePayloadHash perm q = .ok (wordBytes h)
  occurs : ∀ pk q, signs pk q → toFields q.words ∈ vectors
  collisionFree : Set.InjOn std.sponge vectors
  sponge : ∀ ws, (∀ w ∈ ws, w < P) → std.sponge (toFields ws) = (Poseidon.poseidonSponge perm ws : Field)

/-- The nine public inputs are those of the payload `q`, as integers. -/
structure Reports (perm : Poseidon.Permutation) (pi : PublicInputs) (q : CanonicalPayload) : Prop where
  deviceId : (pi.deviceId.toNat : ℤ) = q.device_id
  sessionId : (pi.sessionId.toNat : ℤ) = q.session_id
  epochStartTs : (pi.epochStartTs.toNat : ℤ) = q.epoch_start_ts
  lat_e7 : pi.lat_e7.toInt = q.lat_e7 ∧ 0 ≤ q.lat_e7
  lon_e7 : pi.lon_e7.toInt = q.lon_e7 ∧ 0 ≤ q.lon_e7
  lightLevel : (pi.lightLevel.toNat : ℤ) = q.light_level
  tamperFlag : (pi.tamperFlag.toNat : ℤ) = q.tamper_flag
  payloadHash : Edge.computePayloadHash perm q = .ok (wordBytes pi.payloadHash)
  totalEnergyMWh : (pi.totalEnergyMWh.toNat : ℤ) = (q.readings.map fun r => r.voltage_mv * r.current_ma).sum

section
variable {perm : Poseidon.Permutation} {pi : PublicInputs} {q : CanonicalPayload}

theorem ofList_encodePublicInputs (pi : PublicInputs) :
    Circuit.Public.ofList (toFields ((V3.encodePublicInputs pi).map (·.toNat))) =
      ⟨((bytes32OfU64 pi.deviceId).toNat : Field), ((bytes32OfU64 pi.sessionId).toNat : Field),
        ((bytes32OfU64 pi.epochStartTs).toNat : Field), ((bytes32OfI64 pi.lat_e7).toNat : Field),
        ((bytes32OfI64 pi.lon_e7).toNat : Field), ((bytes32OfU64 pi.lightLevel).toNat : Field),
        ((bytes32OfU64 pi.tamperFlag).toNat : Field), (pi.payloadHash.toNat : Field),
        ((bytes32OfU64 pi.totalEnergyMWh).toNat : Field)⟩ := rfl

theorem lt_P_of_lt {v : Nat} (h : v < 2 ^ 64) : v < P := h.trans (by decide)

theorem u64_of_field {x : U64} {v : Int} (hv : IsU64 v)
    (h : (wrap64 v : Field) = ((bytes32OfU64 x).toNat : Field)) : (x.toNat : ℤ) = v := by
  rw [toNat_bytes32OfU64, natCast_inj (lt_P_of_lt (wrap64_lt v)) (lt_P_of_lt x.isLt)] at h
  rw [← h, wrap64_of_nonneg hv.1 hv.2]

/-- A signed metadata field: its word is in range only if it was non-negative. -/
theorem i64_of_field {x : I64} {v : Int} (hv : IsI64 v) (hx : (bytes32OfI64 x).toNat < P)
    (h : (wrap64 v : Field) = ((bytes32OfI64 x).toNat : Field)) : x.toInt = v ∧ 0 ≤ v := by
  have hP : P < 2 ^ 255 := by decide
  rw [natCast_inj (lt_P_of_lt (wrap64_lt v)) hx] at h
  have hi := toInt_of_bytes32OfI64_lt (hx.trans hP)
  have hle : x.toInt < 2 ^ 63 := by have := BitVec.toInt_lt (x := x); simpa using this
  obtain ⟨hlo, hhi⟩ := hv
  by_cases h0 : 0 ≤ v
  · have hw := wrap64_of_nonneg h0 (by omega)
    exact ⟨by omega, h0⟩
  · have hw := wrap64_of_neg (by omega : v < 0) hlo
    omega

theorem sponge_words_of_hash (h : Edge.computePayloadHash perm q = .ok (wordBytes pi.payloadHash)) :
    pi.payloadHash.toNat = Poseidon.poseidonSponge perm q.words := by
  obtain ⟨-, hb⟩ := Edge.computePayloadHash_eq_ok.1 h
  have hlt : Poseidon.poseidonSponge perm q.words < 256 ^ 32 :=
    Aggregator.lt_pow_of_lt_P (Poseidon.poseidonSponge_lt _)
  exact (wordBytes_eq_toBE hlt).1 hb.symm

/-- A satisfying witness that is the serialization of `q` makes the inputs those of `q`. -/
theorem reports_of_witness {std : Circuit.Std} {priv : Circuit.Private}
    (hq : Edge.computePayloadHash perm q = .ok (wordBytes pi.payloadHash))
    (hlt : ∀ w ∈ V3.encodePublicInputs pi, w.toNat < P)
    (hsat : Circuit.Satisfies std (.ofList (toFields ((V3.encodePublicInputs pi).map (·.toNat)))) priv)
    (hcp : priv.canonical_payload = toFields q.words) : Reports perm pi q := by
  have henc := (Edge.computePayloadHash_eq_ok.1 hq).1
  have hmeta := hsat.metadata
  have henergy := hsat.energy
  rw [ofList_encodePublicInputs] at hmeta henergy
  rw [hcp, Circuit.totalEnergy_words henc.readings] at henergy
  have hwords : (toFields q.words).take 7 = toFields (q.metadata.map wrap64) := by
    rw [toFields, toFields, ← List.map_take, CanonicalPayload.words, List.map_append,
      List.take_left' (by rw [List.length_map]; rfl)]
  rw [hcp, hwords] at hmeta
  simp only [toFields, CanonicalPayload.metadata, Circuit.Public.metadata, List.map_cons, List.map_nil,
    List.cons.injEq, and_true] at hmeta
  obtain ⟨h0, h1, h2, h3, h4, h5, h6⟩ := hmeta
  have hlat : (bytes32OfI64 pi.lat_e7).toNat < P := hlt _ (by simp [V3.encodePublicInputs])
  have hlon : (bytes32OfI64 pi.lon_e7).toNat < P := hlt _ (by simp [V3.encodePublicInputs])
  refine ⟨u64_of_field henc.device_id h0, u64_of_field henc.session_id h1, u64_of_field henc.epoch_start_ts h2,
    i64_of_field henc.lat_e7 hlat h3, i64_of_field henc.lon_e7 hlon h4, u64_of_field henc.light_level h5,
    u64_of_field henc.tamper_flag h6, hq, ?_⟩
  have htotal : (Circuit.energyWords q.readings : Field) = ((bytes32OfU64 pi.totalEnergyMWh).toNat : Field) := henergy
  rw [toNat_bytes32OfU64, natCast_inj (Circuit.energyWords_lt_P henc.readings)
    (lt_P_of_lt pi.totalEnergyMWh.isLt)] at htotal
  rw [← htotal, Circuit.energyWords_eq_sum fun r hr => ⟨(henc.reading r hr).1, (henc.reading r hr).2.1⟩]

end

/-! ### Accepted submissions -/

section
variable {perm : Poseidon.Permutation} {std : Circuit.Std} {vectors : Set (List Field)}
  {signed : Bytes → Bytes32 → Prop} {signs : Bytes → CanonicalPayload → Prop}
  {run : List (World × Action)} {x : World × Action} {a : SubmitArgs}

/-- The contract's two key checks: the key is Active in the registry V3 asks, and its holder signed a
payload with the submitted hash. -/
theorem signed_of_accepted (hA : Assumptions keccak perm std vectors signed signs run) (hx : x ∈ run)
    (ha : acceptedArgs keccak x = some a) :
    DeviceRegistry.getDeviceStatus keccak (x.1.registries x.1.v3.deviceRegistry) a.devicePubkey = .Active ∧
      ∃ q, signs a.devicePubkey q ∧ Edge.computePayloadHash perm q = .ok (wordBytes a.pubInputs.payloadHash) := by
  obtain ⟨env, hx2, hacc⟩ := acceptedArgs_eq_some ha
  have hauth : DeviceRegistry.isAuthorized keccak (x.1.registries x.1.v3.deviceRegistry) a.devicePubkey = true :=
    CallResult.returned.inj hacc.authorized
  obtain ⟨hlen, hactive⟩ := DeviceRegistry.isAuthorized_iff.1 hauth
  refine ⟨hactive, ?_⟩
  have hsigned : signed a.devicePubkey a.pubInputs.payloadHash := by
    rw [hacc.payloadHash]
    exact hA.p256 x hx _ hx2 _ _ _ _ _ hlen hacc.p256
  refine hA.devices x hx x.1.v3.deviceRegistry a.devicePubkey ?_ _ hsigned
  rw [hactive]
  decide

/-- The circuit's witness is the serialization of the signed payload: both have the same sponge. -/
theorem reports_of_accepted (hA : Assumptions keccak perm std vectors signed signs run) (hx : x ∈ run)
    (ha : acceptedArgs keccak x = some a) {q : CanonicalPayload} (hs : signs a.devicePubkey q)
    (hq : Edge.computePayloadHash perm q = .ok (wordBytes a.pubInputs.payloadHash)) :
    Reports perm a.pubInputs q := by
  obtain ⟨env, hx2, hacc⟩ := acceptedArgs_eq_some ha
  obtain ⟨hlt, priv, hpriv, hmain⟩ := hA.honk x hx _ hx2 _ _ _ hacc.honk
  have hsat := Circuit.main_eq_ok.1 hmain
  refine reports_of_witness hq hlt hsat (hA.collisionFree hpriv (hA.occurs _ _ hs) ?_)
  have hhash := hsat.hash
  rw [ofList_encodePublicInputs] at hhash
  have hword : ∀ w ∈ q.words, w < P := fun w hw => lt_P_of_lt (CanonicalPayload.words_lt hw)
  rw [hhash, hA.sponge _ hword, sponge_words_of_hash hq]

/-- Every accepted submission reports, as integers, a payload signed by the holder of its key, which
was Active at that call. -/
theorem authenticity (w₀ : World) (actions : List Action)
    (hA : Assumptions keccak perm std vectors signed signs (Runs.steps (step keccak) w₀ actions)) :
    ∀ x ∈ Runs.steps (step keccak) w₀ actions, ∀ a, acceptedArgs keccak x = some a →
      DeviceRegistry.getDeviceStatus keccak (x.1.registries x.1.v3.deviceRegistry) a.devicePubkey = .Active ∧
        ∃ q, signs a.devicePubkey q ∧ Reports perm a.pubInputs q := by
  intro x hx a ha
  obtain ⟨hactive, q, hs, hq⟩ := signed_of_accepted hA hx ha
  exact ⟨hactive, q, hs, reports_of_accepted hA hx ha hs hq⟩

/-- The registry knows keys, not device ids: V3 binds an id to a key only through what the key's holder
signs. Keys whose payloads name different ids stay apart. -/
theorem device_identity (hk : V3.PackedInjective keccak) (w₀ : World) (actions : List Action)
    (hA : Assumptions keccak perm std vectors signed signs (Runs.steps (step keccak) w₀ actions)) :
    (∀ x ∈ Runs.steps (step keccak) w₀ actions, ∀ a, acceptedArgs keccak x = some a →
      DeviceRegistry.getDeviceStatus keccak (x.1.registries x.1.v3.deviceRegistry) a.devicePubkey = .Active ∧
        ∃ q, signs a.devicePubkey q ∧ q.device_id = a.pubInputs.deviceId.toNat) ∧
    ((∀ pk pk' q q', signs pk q → signs pk' q' → q.device_id = q'.device_id → pk = pk') →
      ∀ x ∈ Runs.steps (step keccak) w₀ actions, ∀ x' ∈ Runs.steps (step keccak) w₀ actions, ∀ a a',
        acceptedArgs keccak x = some a → acceptedArgs keccak x' = some a' →
        a.pubInputs.deviceId = a'.pubInputs.deviceId → a.devicePubkey = a'.devicePubkey) ∧
    (∀ pk (d : U64), (∀ q, signs pk q → q.device_id ≠ d.toNat) →
      ∀ x ∈ Runs.steps (step keccak) w₀ actions, ∀ a, acceptedArgs keccak x = some a → a.devicePubkey = pk →
        (step keccak x.1 x.2).v3.lastSubmissionTimestamp (bytes32OfU64 d) =
            x.1.v3.lastSubmissionTimestamp (bytes32OfU64 d) ∧
          ∀ n, (step keccak x.1 x.2).v3.usedSessionKeys (V3.sessionKey keccak d n) =
            x.1.v3.usedSessionKeys (V3.sessionKey keccak d n)) := by
  have hid : ∀ x ∈ Runs.steps (step keccak) w₀ actions, ∀ a, acceptedArgs keccak x = some a →
      DeviceRegistry.getDeviceStatus keccak (x.1.registries x.1.v3.deviceRegistry) a.devicePubkey = .Active ∧
        ∃ q, signs a.devicePubkey q ∧ q.device_id = a.pubInputs.deviceId.toNat := by
    intro x hx a ha
    obtain ⟨hactive, q, hs, hq⟩ := signed_of_accepted hA hx ha
    exact ⟨hactive, q, hs, (reports_of_accepted hA hx ha hs hq).deviceId.symm⟩
  refine ⟨hid, ?_, ?_⟩
  · intro hkeys x hx x' hx' a a' ha ha' hd
    obtain ⟨-, q, hs, hq⟩ := hid x hx a ha
    obtain ⟨-, q', hs', hq'⟩ := hid x' hx' a' ha'
    exact hkeys _ _ q q' hs hs' (by rw [hq, hq', hd])
  · intro pk d hne x hx a ha hpk
    obtain ⟨-, q, hs, hq⟩ := hid x hx a ha
    have hd : a.pubInputs.deviceId ≠ d := by
      rintro rfl
      exact hne q (hpk ▸ hs) hq
    obtain ⟨env, hx2, hacc⟩ := acceptedArgs_eq_some ha
    have hstep : (step keccak x.1 x.2).v3 = V3.accepted keccak x.1.v3 a.pubInputs := by
      rw [hx2]; exact step_v3_of_accepts hacc
    rw [hstep]
    refine ⟨Function.update_of_ne (fun h => hd (bytes32OfU64_inj.1 h).symm) .., fun n => ?_⟩
    exact Function.update_of_ne (fun h => hd ((V3.sessionKey_inj hk).1 h).1.symm) ..

end

/-! ### Two keys under one device id -/

namespace SampleWorld
open V3.TestChain

def keyA : Bytes := List.replicate 64 1
def keyB : Bytes := List.replicate 64 2

def payload (session epoch lon : Int) : CanonicalPayload :=
  ⟨7, session, epoch, 0, lon, 0, 0, List.replicate 100 ⟨0, 0, 0⟩⟩

def payloadA : CanonicalPayload := payload 1 100 0
def payloadB : CanonicalPayload := payload 2 200 1
def inputsA : PublicInputs := ⟨7, 1, 100, 0, 0, 0, 0, 7, 0⟩
def inputsB : PublicInputs := ⟨7, 2, 200, 0, 1, 0, 0, 8, 0⟩

/-- With the identity as permutation the sponge adds up every fourth word. -/
def std : Circuit.Std :=
  ⟨fun xs => (Poseidon.poseidonSponge id (xs.map ZMod.val) : Field), fun _ _ _ _ => true⟩

def vectors : Set (List Field) := {toFields payloadA.words, toFields payloadB.words}

def signs (pk : Bytes) (q : CanonicalPayload) : Prop := pk = keyA ∧ q = payloadA ∨ pk = keyB ∧ q = payloadB

def signed (pk : Bytes) (h : Bytes32) : Prop := pk = keyA ∧ h = 7 ∨ pk = keyB ∧ h = 8

def oracles : Oracles where
  isAuthorized _ _ := .returned false
  verifyP256 _ h _ _ x y := .returned (decide
    (h = 7 ∧ x = calldataload keyA 0 ∧ y = calldataload keyA 32 ∨
      h = 8 ∧ x = calldataload keyB 0 ∧ y = calldataload keyB 32))
  verifyHonk _ _ words := .returned (decide
    (words = V3.encodePublicInputs inputsA ∨ words = V3.encodePublicInputs inputsB))

def env : Env := envAt oracles 9 1

def world : World :=
  ⟨deployed env, fun _ => ((DeviceRegistry.construct 1 1).toOption).getD DeviceRegistry.fresh⟩

def registryTx (c : DeviceRegistry.Call) : Action := .registry 2 ⟨⟨1, 1000⟩, c⟩

def submit (pi : PublicInputs) (pk : Bytes) : Action :=
  .v3 ⟨env, .submitProof ⟨pi, pi.payloadHash, List.replicate 64 0, pk, []⟩⟩

def actions : List Action :=
  [registryTx (.grantRole (DeviceRegistry.OPERATOR_ROLE packKeccak) 1), registryTx (.registerDevice keyA 0 0),
    registryTx (.registerDevice keyB 0 0), .v3 (grantOperator env), submit inputsA keyA, submit inputsB keyB]

def steps : List (World × Action) := Runs.steps (step packKeccak) world actions

theorem deployed_world : Deployed packKeccak world := ⟨deployed_deployed env, fun _ => ⟨1, 1, rfl⟩⟩

theorem oracles_of_mem {x : World × Action} (hx : x ∈ steps) {t : V3.Tx} (ht : x.2 = .v3 t) :
    t.env.oracles = oracles := by
  obtain ⟨us, vs, hacts, -⟩ := (Runs.mem_steps_iff (step packKeccak)).1 (show (x.1, x.2) ∈ steps from hx)
  have hmem : Action.v3 t ∈ actions := by rw [hacts, ← ht]; simp
  simp only [actions, registryTx, submit, List.mem_cons, List.not_mem_nil, or_false, reduceCtorEq, false_or,
    Action.v3.injEq] at hmem
  rcases hmem with rfl | rfl | rfl <;> rfl

theorem encodable_payload {session epoch lon : Int} (hs : IsU64 session) (he : IsU64 epoch) (hl : IsI64 lon) :
    Encodable (payload session epoch lon) := by
  have h7 : IsU64 7 := by decide
  have h0 : IsU64 0 := by decide
  have h0' : IsI64 0 := by decide
  refine ⟨List.length_replicate, h7, hs, he, h0', hl, h0, h0, ?_⟩
  intro r hr
  obtain rfl := (List.mem_replicate.1 hr).2
  exact ⟨h0, h0, h0⟩

theorem sponge_payloadA : Poseidon.poseidonSponge id payloadA.words = inputsA.payloadHash.toNat := by decide +kernel

theorem sponge_payloadB : Poseidon.poseidonSponge id payloadB.words = inputsB.payloadHash.toNat := by decide +kernel

theorem sponge_toFields {ws : List Nat} (h : ∀ w ∈ ws, w < P) :
    std.sponge (toFields ws) = (Poseidon.poseidonSponge id ws : Field) := by
  show (Poseidon.poseidonSponge id ((toFields ws).map ZMod.val) : Field) = _
  rw [val_toFields h]

theorem words_lt_P (p : CanonicalPayload) : ∀ w ∈ p.words, w < P := fun _ hw => lt_P_of_lt (CanonicalPayload.words_lt hw)

theorem hash_payload {p : CanonicalPayload} {h : Bytes32} (henc : Encodable p)
    (hs : Poseidon.poseidonSponge id p.words = h.toNat) : Edge.computePayloadHash id p = .ok (wordBytes h) :=
  Edge.computePayloadHash_eq_ok.2 ⟨henc, congrArg (toBE 32) hs⟩

theorem main_payload {p : CanonicalPayload} {pi : PublicInputs} (hr : p.readings = List.replicate 100 ⟨0, 0, 0⟩)
    (hs : Poseidon.poseidonSponge id p.words = pi.payloadHash.toNat)
    (hm : (toFields p.words).take 7 =
      (Circuit.Public.ofList (toFields ((V3.encodePublicInputs pi).map (·.toNat)))).metadata)
    (ht : pi.totalEnergyMWh = 0) :
    ∃ priv : Circuit.Private, priv.canonical_payload = toFields p.words ∧
      Circuit.main std (.ofList (toFields ((V3.encodePublicInputs pi).map (·.toNat)))) priv = .ok () := by
  have hlen : p.readings.length = 100 := by rw [hr, List.length_replicate]
  have hzero : Circuit.energyWords p.readings = 0 := by rw [hr]; decide +kernel
  let priv : Circuit.Private := {
    canonical_payload := toFields p.words
    signature := List.replicate 64 0
    pubkey_x := List.replicate 32 0
    pubkey_y := List.replicate 32 0
    length_canonical_payload := by rw [toFields, List.length_map, CanonicalPayload.length_words hlen]
    length_signature := List.length_replicate
    length_pubkey_x := List.length_replicate
    length_pubkey_y := List.length_replicate }
  refine ⟨priv, rfl, Circuit.main_eq_ok.2 ⟨?_, hm, rfl, ?_⟩⟩
  · rw [ofList_encodePublicInputs]
    exact (sponge_toFields (words_lt_P p)).trans (by rw [hs])
  · rw [ofList_encodePublicInputs]
    show Circuit.totalEnergy (toFields p.words) = ((bytes32OfU64 pi.totalEnergyMWh).toNat : Field)
    rw [Circuit.totalEnergy_words hlen, hzero, ht]
    rfl

theorem words_in_range {pi : PublicInputs} (h : (V3.encodePublicInputs pi).all (fun w => decide (w.toNat < P)) = true) :
    ∀ w ∈ V3.encodePublicInputs pi, w.toNat < P := fun w hw => of_decide_eq_true (List.all_eq_true.1 h w hw)

theorem assumptions : Assumptions packKeccak id std vectors signed signs steps where
  honk x hx t ht addr proof words h := by
    rw [oracles_of_mem hx ht] at h
    rcases of_decide_eq_true (CallResult.returned.inj h) with rfl | rfl
    · obtain ⟨priv, hp, hmain⟩ := main_payload rfl sponge_payloadA (by decide +kernel) rfl
      exact ⟨words_in_range (by decide +kernel), priv, Set.mem_insert_iff.2 (.inl hp), hmain⟩
    · obtain ⟨priv, hp, hmain⟩ := main_payload rfl sponge_payloadB (by decide +kernel) rfl
      exact ⟨words_in_range (by decide +kernel), priv, Set.mem_insert_iff.2 (.inr hp), hmain⟩
  p256 x hx t ht addr h r s pk hlen hv := by
    rw [oracles_of_mem hx ht] at hv
    have hpk := eq_words_of_length hlen
    rcases of_decide_eq_true (CallResult.returned.inj hv) with ⟨rfl, hx, hy⟩ | ⟨rfl, hx, hy⟩
    · rw [hx, hy, ← eq_words_of_length (by decide : keyA.length = 64)] at hpk
      exact .inl ⟨hpk, rfl⟩
    · rw [hx, hy, ← eq_words_of_length (by decide : keyB.length = 64)] at hpk
      exact .inr ⟨hpk, rfl⟩
  devices x hx addr pk hreg h hs := by
    rcases hs with ⟨rfl, rfl⟩ | ⟨rfl, rfl⟩
    · exact ⟨payloadA, .inl ⟨rfl, rfl⟩,
        hash_payload (encodable_payload (by decide) (by decide) (by decide)) sponge_payloadA⟩
    · exact ⟨payloadB, .inr ⟨rfl, rfl⟩,
        hash_payload (encodable_payload (by decide) (by decide) (by decide)) sponge_payloadB⟩
  occurs pk q hs := by
    rcases hs with ⟨-, rfl⟩ | ⟨-, rfl⟩
    · exact Set.mem_insert ..
    · exact Set.mem_insert_of_mem _ rfl
  collisionFree := by
    have hA := (sponge_toFields (words_lt_P payloadA)).trans (congrArg Nat.cast sponge_payloadA)
    have hB := (sponge_toFields (words_lt_P payloadB)).trans (congrArg Nat.cast sponge_payloadB)
    have hne : (inputsA.payloadHash.toNat : Field) ≠ (inputsB.payloadHash.toNat : Field) := fun h =>
      absurd ((natCast_inj (by decide) (by decide)).1 h) (by decide)
    rintro _ (rfl | rfl) _ (rfl | rfl) h
    · rfl
    · exact absurd (hA.symm.trans (h.trans hB)) hne
    · exact absurd (hA.symm.trans (h.symm.trans hB)) hne
    · rfl
  sponge ws h := sponge_toFields h

theorem accepted_steps :
    steps.filterMap (acceptedArgs packKeccak) =
      [⟨inputsA, 7, List.replicate 64 0, keyA, []⟩, ⟨inputsB, 8, List.replicate 64 0, keyB, []⟩] := by
  decide +kernel

end SampleWorld

open V3.TestChain SampleWorld in
theorem authenticity_sample :
    (∃ x ∈ Runs.steps (step packKeccak) world actions, ∃ a, acceptedArgs packKeccak x = some a) ∧
    ∀ x ∈ Runs.steps (step packKeccak) world actions, ∀ a, acceptedArgs packKeccak x = some a →
      DeviceRegistry.getDeviceStatus packKeccak (x.1.registries x.1.v3.deviceRegistry) a.devicePubkey = .Active ∧
        ∃ q, signs a.devicePubkey q ∧ Reports id a.pubInputs q := by
  refine ⟨?_, authenticity world actions assumptions⟩
  have hmem : (⟨inputsA, 7, List.replicate 64 0, keyA, []⟩ : SubmitArgs) ∈ steps.filterMap (acceptedArgs packKeccak) := by
    rw [accepted_steps]; simp
  obtain ⟨x, hx, ha⟩ := List.mem_filterMap.1 hmem
  exact ⟨x, hx, _, ha⟩

open V3.TestChain SampleWorld in
theorem device_identity_sample :
    V3.PackedInjective packKeccak ∧
    ∀ x ∈ Runs.steps (step packKeccak) world actions, ∀ a, acceptedArgs packKeccak x = some a →
      DeviceRegistry.getDeviceStatus packKeccak (x.1.registries x.1.v3.deviceRegistry) a.devicePubkey = .Active ∧
        ∃ q, signs a.devicePubkey q ∧ q.device_id = a.pubInputs.deviceId.toNat :=
  ⟨packKeccak_injective, (device_identity packKeccak_injective world actions assumptions).1⟩

open V3.TestChain SampleWorld in
/-- One device id, two Active keys: all assumptions hold and both submissions are accepted. -/
theorem two_keys_one_device :
    Deployed packKeccak world ∧ Assumptions packKeccak id std vectors signed signs steps ∧
    ∃ x ∈ steps, ∃ x' ∈ steps, ∃ a a', acceptedArgs packKeccak x = some a ∧ acceptedArgs packKeccak x' = some a' ∧
      a.pubInputs.deviceId = a'.pubInputs.deviceId ∧ a.devicePubkey ≠ a'.devicePubkey := by
  refine ⟨deployed_world, assumptions, ?_⟩
  have hA : (⟨inputsA, 7, List.replicate 64 0, keyA, []⟩ : SubmitArgs) ∈ steps.filterMap (acceptedArgs packKeccak) := by
    rw [accepted_steps]; simp
  have hB : (⟨inputsB, 8, List.replicate 64 0, keyB, []⟩ : SubmitArgs) ∈ steps.filterMap (acceptedArgs packKeccak) := by
    rw [accepted_steps]; simp
  obtain ⟨x, hx, ha⟩ := List.mem_filterMap.1 hA
  obtain ⟨x', hx', ha'⟩ := List.mem_filterMap.1 hB
  exact ⟨x, hx, x', hx', _, _, ha, ha', rfl, by decide⟩

end World
end InfraVeritas
