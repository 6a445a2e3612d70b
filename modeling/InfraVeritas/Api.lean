import InfraVeritas.Process
import InfraVeritas.Schema
import InfraVeritas.V3Log

/-!
# `POST /submissions`

The handler over the queue and its worker, rate limiting apart. A session key is reserved by the first
request that passes the schema, before anything looks at its signature, and no transition of the queue
releases it (`post_answer`); so the answer to a request depends on the earlier requests for the same device
and session only, and a job that is enqueued is claimed however many others there are (`session_reservation`).
-/

namespace InfraVeritas
open Checks

namespace Server
open InMemoryQueue

inductive Response
  | validationFailed
  | duplicateSessionKey (sessionKey : String)
  | pending (sessionKey : String)
  /-- what the framework sends when the handler throws -/
  | internalError (message : String)
deriving DecidableEq, Repr

def Response.code : Response → Nat
  | .validationFailed => 400
  | .duplicateSessionKey _ => 409
  | .pending _ => 202
  | .internalError _ => 500

variable (keccak : Bytes → Bytes32)

def computeSessionKey (deviceId sessionId : Int) : String :=
  let buf := Aggregator.setBigUint64 deviceId ++ Aggregator.setBigUint64 sessionId
  String.ofList ('0' :: 'x' :: Hex.bytesToHex (wordBytes (keccak buf)))

def submissionJob (req : SubmissionRequest) : SubmissionJob :=
  let payload := parsePayload req
  ⟨computeSessionKey keccak payload.device_id payload.session_id, payload, hexToBytes req.signature,
    hexToBytes req.public_key⟩

theorem signature_submissionJob (req : SubmissionRequest) :
    (submissionJob keccak req).signature = hexToBytes req.signature := rfl

theorem pubkey_submissionJob (req : SubmissionRequest) :
    (submissionJob keccak req).pubkey = hexToBytes req.public_key := rfl

variable {R : Type}

def post (w : Worker SubmissionJob R) (req : SubmissionRequest) : Worker SubmissionJob R × Response :=
  match safeParse req with
  | .error message => (w, .internalError message)
  | .ok false => (w, .validationFailed)
  | .ok true =>
    let job := submissionJob keccak req
    if (w.queue.get job.sessionKey).isSome then (w, .duplicateSessionKey job.sessionKey)
    else match w.enqueue job.sessionKey job with
      | .ok w' => (w', .pending job.sessionKey)
      | .error message => (w, .internalError message)

inductive Event (R : Type)
  | post (req : SubmissionRequest)
  | settle (outcome : Except WorkerError R)

def step (w : Worker SubmissionJob R) : Event R → Worker SubmissionJob R
  | .post req => (post keccak w req).1
  | .settle outcome => w.settle outcome

/-- What an event means to the worker. -/
def toWorker : Event R → Option (Worker.Event SubmissionJob R)
  | .post req =>
    if submissionSchema req then some (.enqueue (submissionJob keccak req).sessionKey (submissionJob keccak req)) else none
  | .settle outcome => some (.settle outcome)

/-- The request is accepted by the schema and names the device and the session of `req`. -/
def Event.Reserves (req : SubmissionRequest) : Event R → Prop
  | .post req' => submissionSchema req' = true ∧ (parsePayload req').device_id = (parsePayload req).device_id ∧
      (parsePayload req').session_id = (parsePayload req).session_id
  | .settle _ => False

instance (req : SubmissionRequest) : DecidablePred (Event.Reserves (R := R) req)
  | .post _ => inferInstanceAs (Decidable (_ ∧ _))
  | .settle _ => inferInstanceAs (Decidable False)

def Event.isSettle : Event R → Bool
  | .post _ => false
  | .settle _ => true

variable {keccak} {w : Worker SubmissionJob R} {req req' : SubmissionRequest} {history : List (Event R)}

/-! ### The session key -/

theorem sessionKey_ne_empty (deviceId sessionId : Int) : computeSessionKey keccak deviceId sessionId ≠ "" := by
  intro h
  have hl := congrArg String.toList h
  rw [computeSessionKey, String.toList_ofList] at hl
  cases hl

theorem setBigUint64_inj {v v' : Int} (hv : IsU64 v) (hv' : IsU64 v') :
    Aggregator.setBigUint64 v = Aggregator.setBigUint64 v' ↔ v = v' := by
  refine ⟨fun h => ?_, fun h => h ▸ rfl⟩
  have hw := (BigEndian.toBE_inj (wrap64_lt v) (wrap64_lt v')).1 h
  rw [← wrap64_of_nonneg hv.1 hv.2, ← wrap64_of_nonneg hv'.1 hv'.2, hw]

theorem setBigUint64_append (d n : U64) :
    Aggregator.setBigUint64 d.toNat ++ Aggregator.setBigUint64 n.toNat = encodePackedU64 d n := by
  have hwrap (x : U64) : wrap64 x.toNat = x.toNat := by
    have hx := x.isLt
    unfold wrap64
    omega
  rw [Aggregator.setBigUint64, Aggregator.setBigUint64, hwrap, hwrap, encodePackedU64]

theorem computeSessionKey_toNat (d n : U64) : computeSessionKey keccak d.toNat n.toNat =
    String.ofList ('0' :: 'x' :: Hex.bytesToHex (wordBytes (V3.sessionKey keccak d n))) := by
  rw [computeSessionKey, setBigUint64_append, V3.sessionKey]

/-- Two accepted requests share a session key only if they name the same device and session. -/
theorem sessionKey_inj (hk : V3.PackedInjective keccak) (h : submissionSchema req = true)
    (h' : submissionSchema req' = true) :
    (submissionJob keccak req').sessionKey = (submissionJob keccak req).sessionKey ↔
      (parsePayload req').device_id = (parsePayload req).device_id ∧
        (parsePayload req').session_id = (parsePayload req).session_id := by
  have hp := (parsePayload_validated h).encodable
  have hp' := (parsePayload_validated h').encodable
  have hlen (v v' : Int) : (Aggregator.setBigUint64 v ++ Aggregator.setBigUint64 v').length = 16 := by
    rw [List.length_append]
    exact congrArg₂ _ (BigEndian.length_toBE ..) (BigEndian.length_toBE ..)
  refine ⟨?_, fun ⟨hd, hn⟩ => ?_⟩
  · intro he
    have hl := congrArg String.toList he
    simp only [submissionJob, computeSessionKey, String.toList_ofList, List.cons.injEq, true_and] at hl
    have hbuf := hk (hlen ..) (hlen ..) (wordBytes_inj.1 (Hex.bytesToHex_inj.1 hl))
    obtain ⟨hd, hn⟩ := List.append_inj hbuf ((BigEndian.length_toBE ..).trans (BigEndian.length_toBE ..).symm)
    exact ⟨(setBigUint64_inj hp'.device_id hp.device_id).1 hd, (setBigUint64_inj hp'.session_id hp.session_id).1 hn⟩
  · show computeSessionKey _ _ _ = computeSessionKey _ _ _
    rw [hd, hn]

theorem length_pubkey (h : submissionSchema req = true) : (submissionJob keccak req).pubkey.length = 64 :=
  length_hexToBytes (hex128_of_schema h).2

/-! ### The handler and the worker -/

theorem post_invalid (h : submissionSchema req = false) :
    post keccak w req = (w, .validationFailed) ∨ ∃ message, post keccak w req = (w, .internalError message) := by
  rw [post]
  rcases safeParse_cases req with ⟨message, hm⟩ | hb
  · rw [hm]
    exact .inr ⟨message, rfl⟩
  · rw [hb, h]
    exact .inl rfl

/-- The handler changes the queue exactly as an `enqueue` of its job would. -/
theorem step_toWorker (e : Event R) : step keccak w e = (toWorker keccak e).elim w (Worker.step w) := by
  cases e with
  | settle outcome => rfl
  | post req =>
    rw [step, toWorker]
    rcases hschema : submissionSchema req with _ | _
    · rcases @post_invalid keccak R w req hschema with hp | ⟨message, hp⟩
      · rw [hp]
        rfl
      · rw [hp]
        rfl
    · rw [post, safeParse_of_schema hschema]
      show _ = Worker.step w (.enqueue _ _)
      rw [Worker.step]
      dsimp only
      split
      · next hs =>
        obtain ⟨r, hr⟩ := Option.isSome_iff_exists.1 hs
        obtain ⟨err, herr⟩ := (Worker.enqueue_error (submissionJob keccak req)).2
          (List.mem_map.2 ⟨r, Keyed.mem_of_find hr, Keyed.key_of_find hr⟩)
        rw [herr]
      · split <;> next h => rw [h]

theorem run_toWorker (events : List (Event R)) :
    Runs.run (step keccak) w events = Runs.run Worker.step w (events.filterMap (toWorker keccak)) := by
  induction events generalizing w with
  | nil => rfl
  | cons e events ih =>
    rw [Runs.run_cons, ih, step_toWorker, List.filterMap_cons]
    cases toWorker keccak e <;> rfl

theorem nonEmpty_toWorker (events : List (Event R)) : ∀ e ∈ events.filterMap (toWorker keccak), e.NonEmpty := by
  intro e' he'
  obtain ⟨e, -, he⟩ := List.mem_filterMap.1 he'
  cases e with
  | settle outcome =>
    obtain rfl := Option.some.inj he
    trivial
  | post req =>
    rw [toWorker] at he
    split at he
    · obtain rfl := Option.some.inj he
      exact sessionKey_ne_empty _ _
    · cases he

theorem inv_run (h : w.Inv) (events : List (Event R)) : (Runs.run (step keccak) w events).Inv := by
  rw [run_toWorker]
  exact h.run (nonEmpty_toWorker events)

theorem id_toWorker (hk : V3.PackedInjective keccak) (h : submissionSchema req = true) (e : Event R) :
    (∃ e', toWorker keccak e = some e' ∧ e'.id? = some (submissionJob keccak req).sessionKey) ↔ e.Reserves req := by
  cases e with
  | settle outcome =>
    refine ⟨fun ⟨e', he', hid⟩ => ?_, False.elim⟩
    obtain rfl := Option.some.inj he'
    cases hid
  | post req' =>
    rw [toWorker]
    constructor
    · rintro ⟨e', he', hid⟩
      split at he'
      · next h' =>
        obtain rfl := Option.some.inj he'
        exact ⟨h', (sessionKey_inj hk h h').1 (Option.some.inj hid)⟩
      · cases he'
    · rintro ⟨h', hpair⟩
      rw [if_pos h']
      exact ⟨_, rfl, congrArg some ((sessionKey_inj hk h h').2 hpair)⟩

theorem taken_iff (hk : V3.PackedInjective keccak) (h : submissionSchema req = true) :
    ((Runs.run (step keccak) (Worker.init : Worker SubmissionJob R) history).queue.get
      (submissionJob keccak req).sessionKey).isSome = true ↔ ∃ e ∈ history, e.Reserves req := by
  have hids := Worker.ids_run (@nonEmpty_toWorker keccak R history)
  rw [run_toWorker, Option.isSome_iff_ne_none, ne_eq, InMemoryQueue.get, Keyed.find_eq_none_iff, not_not, hids,
    Worker.enqueued, List.mem_eraseDups, List.mem_filterMap]
  simp only [List.mem_filterMap, ← id_toWorker hk h]
  constructor
  · rintro ⟨e', ⟨e, he, hw⟩, hid⟩
    exact ⟨e, he, e', hw, hid⟩
  · rintro ⟨e, he, e', hw, hid⟩
    exact ⟨e', ⟨e, he, hw⟩, hid⟩

theorem post_cases (h : submissionSchema req = true) :
    ((w.queue.get (submissionJob keccak req).sessionKey).isSome = true ∧
        post keccak w req = (w, .duplicateSessionKey (submissionJob keccak req).sessionKey)) ∨
      ∃ w', (w.queue.get (submissionJob keccak req).sessionKey).isSome = false ∧
        w.enqueue (submissionJob keccak req).sessionKey (submissionJob keccak req) = .ok w' ∧
        post keccak w req = (w', .pending (submissionJob keccak req).sessionKey) := by
  rw [post, safeParse_of_schema h]
  dsimp only
  split
  · next hs => exact .inl ⟨hs, rfl⟩
  · next hs =>
    rcases hw : w.enqueue (submissionJob keccak req).sessionKey (submissionJob keccak req) with err | w'
    · have hm := (Worker.enqueue_error _).1 ⟨err, hw⟩
      refine absurd ?_ hs
      rw [Option.isSome_iff_ne_none]
      exact fun hn => Keyed.find_eq_none_iff.1 hn hm
    · exact .inr ⟨w', Bool.not_eq_true _ ▸ hs, rfl, rfl⟩

/-- The answer depends on the earlier requests for the same device and session only. -/
theorem post_answer (hk : V3.PackedInjective keccak) (h : submissionSchema req = true) :
    (post keccak (Runs.run (step keccak) (Worker.init : Worker SubmissionJob R) history) req).2 =
      if ∃ e ∈ history, e.Reserves req then .duplicateSessionKey (submissionJob keccak req).sessionKey
      else .pending (submissionJob keccak req).sessionKey := by
  rcases post_cases h with ⟨hs, hp⟩ | ⟨w', hs, -, hp⟩
  · rw [hp, if_pos ((taken_iff hk h).1 hs)]
  · rw [hp, if_neg fun hr => ?_]
    rw [(taken_iff hk h).2 hr] at hs
    cases hs

theorem countP_toWorker (events : List (Event R)) :
    (events.filterMap (toWorker keccak)).countP Worker.Event.isSettle = events.countP Event.isSettle := by
  rw [List.countP_filterMap]
  refine List.countP_congr ?_
  intro e _
  cases e with
  | settle outcome => rfl
  | post req =>
    rw [toWorker]
    split <;> rfl

/-- An accepted job keeps the request's data and is claimed after as many calls as jobs wait. -/
theorem claimed_of_pending {w' : Worker SubmissionJob R} {key : String} {events : List (Event R)} (hw : w.Inv)
    (hp : post keccak w req = (w', .pending key)) (hn : w'.queue.pending.length ≤ events.countP Event.isSettle) :
    ∃ r, (Runs.run (step keccak) w' events).queue.get key = some r ∧ r.data = submissionJob keccak req ∧
      1 ≤ r.attempts := by
  rcases hs : submissionSchema req with _ | _
  · rcases @post_invalid keccak R w req hs with hp' | ⟨message, hp'⟩
    · cases hp.symm.trans hp'
    · cases hp.symm.trans hp'
  · rcases post_cases hs with ⟨-, hp'⟩ | ⟨w₁, -, he, hp'⟩
    · cases hp.symm.trans hp'
    · obtain ⟨rfl, hkey⟩ := Prod.mk.inj (hp.symm.trans hp')
      obtain rfl := Response.pending.inj hkey
      rw [run_toWorker]
      rw [← countP_toWorker] at hn
      exact Worker.claimed_of_enqueue hw (sessionKey_ne_empty _ _) he (nonEmpty_toWorker events) hn

/-- Two histories with the same reservations of the request's device and session, whatever else was posted
and processed in them: the answer is the same, 202 if there is no reservation and 409 otherwise; and an
accepted job is claimed with the request's own data within a bounded number of `process` calls. -/
theorem session_reservation (hk : V3.PackedInjective keccak) (h : submissionSchema req = true)
    {history history' : List (Event R)} (hsame : (∃ e ∈ history', e.Reserves req) ↔ ∃ e ∈ history, e.Reserves req) :
    (post keccak (Runs.run (step keccak) Worker.init history') req).2 =
      (post keccak (Runs.run (step keccak) Worker.init history) req).2 ∧
    ((post keccak (Runs.run (step keccak) Worker.init history) req).2.code =
      if ∃ e ∈ history, e.Reserves req then 409 else 202) ∧
    ((¬ ∃ e ∈ history, e.Reserves req) → ∀ events : List (Event R),
      (post keccak (Runs.run (step keccak) Worker.init history') req).1.queue.pending.length ≤
        events.countP Event.isSettle →
      ∃ r, (Runs.run (step keccak) (post keccak (Runs.run (step keccak) Worker.init history') req).1 events).queue.get
        (submissionJob keccak req).sessionKey = some r ∧ r.data = submissionJob keccak req ∧ 1 ≤ r.attempts) := by
  refine ⟨?_, ?_, ?_⟩
  · rw [post_answer hk h, post_answer hk h]
    exact if_congr hsame rfl rfl
  · rw [post_answer hk h]
    split <;> rfl
  · intro hn events hlen
    have ha := @post_answer keccak R req history' hk h
    rw [if_neg (mt hsame.1 hn)] at ha
    exact claimed_of_pending (inv_run Worker.Inv.init history') (Prod.ext rfl ha) hlen

namespace SampleRequest
open V3.TestChain

def ones128 : String := String.ofList (List.replicate 128 '1')

def squat : SubmissionRequest := request "1" "0" ⟨"0", "0", "0"⟩

def genuine : SubmissionRequest := { squat with signature := ones128 }

def next : SubmissionRequest := request "2" "0" ⟨"0", "0", "0"⟩

def lib : Libraries := ⟨fun _ => Vector.replicate 5 0, fun signature _ _ => .ok (decide (signature = List.replicate 64 0x11))⟩

theorem schema_squat : submissionSchema squat = true := schema_request (by decide) (by decide) (by decide)

theorem schema_genuine : submissionSchema genuine = true := by
  have h := schema_squat
  have hones : hex128 ones128 = true := hex128_replicate (by decide)
  rw [submissionSchema, Bool.and_eq_true, Bool.and_eq_true] at h ⊢
  exact ⟨⟨h.1.1, hones⟩, h.2⟩

theorem length_readings : (parsePayload squat).readings.length = 100 := by
  show (squat.payload.readings.map parseReading).length = 100
  rw [List.length_map]
  rfl

theorem precheck_lib (payloadHash : Bytes) (data : SubmissionJob) (h : data.pubkey.length = 64) :
    Process.precheck lib payloadHash data = .ok (decide (data.signature = List.replicate 64 0x11)) := by
  rw [Process.precheck, Process.pubkeyWithPrefix, revertIf_of_not (by omega)]
  rfl

end SampleRequest

open SampleRequest V3.TestChain in
theorem session_reservation_sample :
    V3.PackedInjective packKeccak ∧ submissionSchema squat = true ∧
    (post packKeccak (Runs.run (step packKeccak) (Worker.init : Worker SubmissionJob Unit) [.post next]) squat).2 =
      (post packKeccak (Runs.run (step packKeccak) (Worker.init : Worker SubmissionJob Unit) []) squat).2 := by
  have hother : ¬ (.post next : Event Unit).Reserves squat := fun h => absurd h.2.2 (by decide)
  have hsame : (∃ e ∈ [(.post next : Event Unit)], e.Reserves squat) ↔ ∃ e ∈ ([] : List (Event Unit)), e.Reserves squat := by
    simp [hother]
  exact ⟨packKeccak_injective, schema_squat, (session_reservation packKeccak_injective schema_squat hsame).1⟩

open SampleRequest V3.TestChain in
/-- A request without a valid signature, posted first, takes the session of the device's own request, also
after the worker has quarantined its job. -/
theorem squatted :
    ¬ Process.ValidSignature lib (submissionJob packKeccak squat) ∧
    (∀ tools, Process.prepare lib tools (submissionJob packKeccak squat) = .error Process.invalidSignature) ∧
    Process.ValidSignature lib (submissionJob packKeccak genuine) ∧
    (post packKeccak (Worker.init : Worker SubmissionJob Unit) genuine).2.code = 202 ∧
    (post packKeccak (Runs.run (step packKeccak) (Worker.init : Worker SubmissionJob Unit) [.post squat]) genuine).2.code =
      409 ∧
    (post packKeccak (Runs.run (step packKeccak) (Worker.init : Worker SubmissionJob Unit)
      [.post squat, .settle (.error Process.invalidSignature)]) genuine).2.code = 409 := by
  have hreserve : (.post squat : Event Unit).Reserves genuine := ⟨schema_squat, rfl, rfl⟩
  have hsquat : (submissionJob packKeccak squat).signature = List.replicate 64 0 :=
    (signature_submissionJob packKeccak squat).trans hexToBytes_zeros128
  have hgenuine : (submissionJob packKeccak genuine).signature = List.replicate 64 0x11 := by
    have hone : UInt8.ofNat (16 * Hex.hexValue '1' + Hex.hexValue '1') = 0x11 := by decide
    exact (signature_submissionJob packKeccak genuine).trans (hexToBytes_replicate hone)
  have hne : List.replicate 64 (0 : UInt8) ≠ List.replicate 64 0x11 := by
    rw [ne_eq, List.replicate_inj]
    decide
  have hzeros : decide ((submissionJob packKeccak squat).signature = List.replicate 64 0x11) = false :=
    decide_eq_false (hsquat ▸ hne)
  have hones : decide ((submissionJob packKeccak genuine).signature = List.replicate 64 0x11) = true :=
    decide_eq_true hgenuine
  have hinvalid (payloadHash : Bytes) : Process.precheck lib payloadHash (submissionJob packKeccak squat) = .ok false := by
    rw [precheck_lib _ _ (length_pubkey schema_squat), hzeros]
  have hash := @Aggregator.computePayloadHash_of_length _ lib.perm length_readings
  refine ⟨fun ⟨payloadHash, _, hv⟩ => ?_, Process.prepare_of_precheck hash (hinvalid _), ⟨_, hash, ?_⟩, ?_, ?_, ?_⟩
  · rw [hinvalid] at hv
    cases hv
  · rw [precheck_lib _ _ (length_pubkey schema_genuine), hones]
  · have ha := @post_answer packKeccak Unit genuine [] packKeccak_injective schema_genuine
    rw [if_neg fun ⟨e, he, _⟩ => List.not_mem_nil he, Runs.run_nil] at ha
    rw [ha]
    rfl
  · rw [post_answer packKeccak_injective schema_genuine, if_pos ⟨_, List.mem_cons_self .., hreserve⟩]
    rfl
  · rw [post_answer packKeccak_injective schema_genuine, if_pos ⟨_, List.mem_cons_self .., hreserve⟩]
    rfl

end Server
end InfraVeritas
