import InfraVeritas.Api
import InfraVeritas.Drain

/-!
# One job for each session

`POST /submissions` over the calls of `drain`, whatever the `process()` calls throw. A job is named by the hash of
its device and session, so requests for one session find each other's job however they spell the numbers, and no
others do; `Deduplicated` says so after every history of requests and worker steps.
-/

namespace InfraVeritas
open Checks InMemoryQueue

namespace DrainLoop
variable {T R : Type} {q : InMemoryQueue T R} {w : DrainLoop T R}

/-! ### Only `enqueue` adds a job -/

/-- The jobs with their data, in the order in which they were added. -/
def entries (q : InMemoryQueue T R) : List (String × T) := q.records.map fun r => (r.id, r.data)

theorem map_fst_entries : (entries q).map Prod.fst = q.records.map (·.id) := List.map_map ..

theorem mem_entries_of_get {id : String} {r : JobRecord T R} (h : q.get id = some r) : (id, r.data) ∈ entries q :=
  List.mem_map.2 ⟨r, Keyed.mem_of_find h, by rw [id_of_get h]⟩

theorem entries_update {id : String} {f : JobRecord T R → JobRecord T R} (hf : ∀ r, (f r).id = r.id ∧ (f r).data = r.data) :
    entries (q.update id f) = entries q := by
  rw [entries, update, Keyed.modify, List.map_map]
  refine List.map_congr_left ?_
  intro r _
  rw [Function.comp_apply]
  split
  · rw [(hf r).1, (hf r).2]
  · rfl

theorem entries_enqueue {id : String} {data : T} {q' : InMemoryQueue T R} (h : q.enqueue id data = .ok q') :
    entries q' = entries q ++ [(id, data)] := by
  obtain ⟨-, rfl⟩ := enqueue_eq_ok.1 h
  rw [entries, List.map_append]
  rfl

theorem entries_claim : entries q.claim.1 = entries q := by
  unfold claim
  split
  · rfl
  · dsimp only
    split
    · rfl
    · split
      · rfl
      · exact entries_update fun _ => ⟨rfl, rfl⟩

theorem entries_takeJob : entries w.takeJob.1.queue = entries w.queue := by
  have hclaim := @entries_claim T R w.queue
  unfold takeJob
  split
  · next q job hq => rwa [hq] at hclaim
  · next q hq => rwa [hq] at hclaim

theorem entries_drain : entries w.drain.queue = entries w.queue := by
  have htake := @entries_takeJob T R w
  unfold DrainLoop.drain
  split
  · rfl
  · split
    · next w' a hw => rwa [hw] at htake
    · next w' hw => rwa [hw] at htake

theorem entries_handleError (job : String) (err : WorkerError) : entries (Worker.handleError q job err) = entries q := by
  have hquarantine (code message : String) : entries (q.quarantine job code message) = entries q :=
    entries_update fun _ => ⟨rfl, rfl⟩
  have hfail (code message : String) : entries (q.fail job code message) = entries q := by
    unfold InMemoryQueue.fail
    split
    · rfl
    · split
      · exact entries_update (q := q) fun _ => ⟨rfl, rfl⟩
      · exact entries_update fun _ => ⟨rfl, rfl⟩
  unfold Worker.handleError
  split
  · split
    · exact hquarantine ..
    · split <;> exact hfail ..
  · split
    · exact hquarantine ..
    · exact hfail ..

theorem entries_processOne (i : Nat) (outcome : Except Thrown R) :
    entries (w.processOne i outcome).queue = entries w.queue := by
  unfold DrainLoop.processOne
  split
  · split
    · exact entries_update fun _ => ⟨rfl, rfl⟩
    · exact entries_handleError ..
    · rfl
  · rfl

theorem entries_resume (i : Nat) : entries (w.resume i).queue = entries w.queue := by
  have htake := @entries_takeJob T R w
  unfold DrainLoop.resume
  split
  · split
    · next w' a hw => rwa [hw] at htake
    · next w' hw => rwa [hw] at htake
  · rfl
  · rfl

theorem entries_of_enqueue {id : String} {data : T} {w' : DrainLoop T R} (h : w.enqueue id data = .ok w') :
    w.queue.get id = none ∧ entries w'.queue = entries w.queue ++ [(id, data)] := by
  obtain ⟨q, hq, hw⟩ := bind_eq_ok.1 h
  obtain rfl := pure_eq_ok.1 hw
  exact ⟨(enqueue_eq_ok.1 hq).1, entries_drain.trans (entries_enqueue hq)⟩

end DrainLoop

namespace Requests
open Server
variable {R : Type} (keccak : Bytes → Bytes32)

def post (w : DrainLoop SubmissionJob R) (req : SubmissionRequest) : DrainLoop SubmissionJob R × Response :=
  match safeParse req with
  | .error message => (w, .internalError message)
  | .ok false => (w, .validationFailed)
  | .ok true =>
    let job := submissionJob keccak req
    if (w.queue.get job.sessionKey).isSome then (w, .duplicateSessionKey job.sessionKey)
    else match w.enqueue job.sessionKey job with
      | .ok w' => (w', .pending job.sessionKey)
      | .error message => (w, .internalError message)

inductive Event (R : Type)
  | post (req : SubmissionRequest)
  | drain
  | processOne (i : Nat) (outcome : Except Thrown R)
  | resume (i : Nat)

def step (w : DrainLoop SubmissionJob R) : Event R → DrainLoop SubmissionJob R
  | .post req => (post keccak w req).1
  | .drain => w.drain
  | .processOne i outcome => w.processOne i outcome
  | .resume i => w.resume i

def after (events : List (Event R)) : DrainLoop SubmissionJob R := Runs.run (step keccak) DrainLoop.init events

def answer (events : List (Event R)) (req : SubmissionRequest) : Response := (post keccak (after keccak events) req).2

/-- The requests name the same device and the same session, as numbers. -/
def SamePair (req req' : SubmissionRequest) : Prop :=
  (parsePayload req).device_id = (parsePayload req').device_id ∧
    (parsePayload req).session_id = (parsePayload req').session_id

variable {keccak} {w w' : DrainLoop SubmissionJob R} {req req' : SubmissionRequest} {events : List (Event R)}

theorem post_cases (h : submissionSchema req = true) :
    ((∃ r, w.queue.get (submissionJob keccak req).sessionKey = some r) ∧
        post keccak w req = (w, .duplicateSessionKey (submissionJob keccak req).sessionKey)) ∨
      ∃ w', w.queue.get (submissionJob keccak req).sessionKey = none ∧
        w.enqueue (submissionJob keccak req).sessionKey (submissionJob keccak req) = .ok w' ∧
        post keccak w req = (w', .pending (submissionJob keccak req).sessionKey) := by
  rw [post, safeParse_of_schema h]
  dsimp only
  rcases hg : w.queue.get (submissionJob keccak req).sessionKey with _ | r
  · rcases he : w.enqueue (submissionJob keccak req).sessionKey (submissionJob keccak req) with err | w'
    · rw [DrainLoop.enqueue, enqueue_eq_ok.2 ⟨hg, rfl⟩] at he
      cases he
    · exact .inr ⟨w', rfl, rfl, rfl⟩
  · exact .inl ⟨⟨r, rfl⟩, rfl⟩

theorem post_invalid (h : submissionSchema req = false) :
    post keccak w req = (w, .validationFailed) ∨ ∃ message, post keccak w req = (w, .internalError message) := by
  rw [post]
  rcases safeParse_cases req with ⟨message, hm⟩ | hb
  · rw [hm]
    exact .inr ⟨message, rfl⟩
  · rw [hb, h]
    exact .inl rfl

theorem fst_post_invalid (h : submissionSchema req = false) : (post keccak w req).1 = w := by
  rcases @post_invalid R keccak w req h with hp | ⟨message, hp⟩
  · rw [hp]
  · rw [hp]

theorem step_cases (e : Event R) : step keccak w e = w ∨
    ∃ e' : DrainLoop.Event SubmissionJob R, e'.NonEmpty ∧ step keccak w e = DrainLoop.step w e' := by
  cases e with
  | drain => exact .inr ⟨.drain, trivial, rfl⟩
  | processOne i outcome => exact .inr ⟨.processOne i outcome, trivial, rfl⟩
  | resume i => exact .inr ⟨.resume i, trivial, rfl⟩
  | post req =>
    rw [step]
    rcases hs : submissionSchema req with _ | _
    · rw [fst_post_invalid hs]
      exact .inl rfl
    · rcases @post_cases R keccak w req hs with ⟨-, hp⟩ | ⟨w', -, he, hp⟩
      · rw [hp]
        exact .inl rfl
      · rw [hp]
        refine .inr ⟨.enqueue (submissionJob keccak req).sessionKey (submissionJob keccak req), sessionKey_ne_empty _ _, ?_⟩
        rw [DrainLoop.step, he]

theorem step_later {stuck : List String} {cur : Option String} (h : DrainLoop.Inv stuck cur w) (e : Event R) :
    (∃ stuck' cur', DrainLoop.Inv stuck' cur' (step keccak w e)) ∧ Keeps w.queue (step keccak w e).queue := by
  rcases @step_cases R keccak w e with hs | ⟨e', he', hs⟩
  · rw [hs]
    exact ⟨⟨stuck, cur, h⟩, .refl _⟩
  · obtain ⟨stuck', cur', h'⟩ := h.step he'
    rw [hs]
    exact ⟨⟨stuck', cur', h'.inv⟩, h'.later.keeps⟩

theorem run_later {stuck : List String} {cur : Option String} (h : DrainLoop.Inv stuck cur w) (events : List (Event R)) :
    (∃ stuck' cur', DrainLoop.Inv stuck' cur' (Runs.run (step keccak) w events)) ∧
      Keeps w.queue (Runs.run (step keccak) w events).queue := by
  induction events generalizing w stuck cur with
  | nil => exact ⟨⟨stuck, cur, h⟩, .refl _⟩
  | cons e events ih =>
    obtain ⟨⟨stuck₁, cur₁, h₁⟩, hk₁⟩ := @step_later R keccak w stuck cur h e
    obtain ⟨h₂, hk₂⟩ := ih h₁
    exact ⟨h₂, hk₁.trans hk₂⟩

/-! ### Where a job comes from -/

theorem key_of_pending {key : String} (h : answer keccak events req = .pending key) :
    submissionSchema req = true ∧ key = (submissionJob keccak req).sessionKey := by
  rw [answer] at h
  rcases hs : submissionSchema req with _ | _
  · rcases @post_invalid R keccak (after keccak events) req hs with hp | ⟨message, hp⟩
    · rw [hp] at h
      cases h
    · rw [hp] at h
      cases h
  · refine ⟨rfl, ?_⟩
    rcases @post_cases R keccak (after keccak events) req hs with ⟨-, hp⟩ | ⟨w', -, -, hp⟩
    · rw [hp] at h
      cases h
    · rw [hp] at h
      exact (Response.pending.inj h).symm

/-- The state after `events`: no two jobs have one id, and each comes from a request that was answered 202. -/
structure Served (keccak : Bytes → Bytes32) (events : List (Event R)) (w : DrainLoop SubmissionJob R) : Prop where
  nodup : (w.queue.records.map (·.id)).Nodup
  origin : ∀ entry ∈ DrainLoop.entries w.queue, ∃ us req vs, events = us ++ .post req :: vs ∧
    answer keccak us req = .pending entry.1 ∧ entry.2 = submissionJob keccak req

theorem Served.snoc {e : Event R} (h : Served keccak events w) (hw : DrainLoop.entries w'.queue = DrainLoop.entries w.queue) :
    Served keccak (events ++ [e]) w' := by
  refine ⟨?_, ?_⟩
  · rw [← DrainLoop.map_fst_entries, hw, DrainLoop.map_fst_entries]
    exact h.nodup
  · intro entry hm
    obtain ⟨us, req, vs, rfl, ha, hd⟩ := h.origin entry (hw ▸ hm)
    exact ⟨us, req, vs ++ [e], by rw [List.append_assoc, List.cons_append], ha, hd⟩

theorem Served.step (h : Served keccak events (after keccak events)) (e : Event R) :
    Served keccak (events ++ [e]) (step keccak (after keccak events) e) := by
  cases e with
  | drain => exact h.snoc DrainLoop.entries_drain
  | processOne i outcome => exact h.snoc (DrainLoop.entries_processOne i outcome)
  | resume i => exact h.snoc (DrainLoop.entries_resume i)
  | post req =>
    rw [Requests.step]
    rcases hs : submissionSchema req with _ | _
    · rw [fst_post_invalid hs]
      exact h.snoc rfl
    · rcases @post_cases R keccak (after keccak events) req hs with ⟨-, hp⟩ | ⟨w', hnone, he, hp⟩
      · rw [hp]
        exact h.snoc rfl
      · rw [hp]
        have hentries := (DrainLoop.entries_of_enqueue he).2
        refine ⟨?_, ?_⟩
        · rw [← DrainLoop.map_fst_entries, hentries, List.map_append, DrainLoop.map_fst_entries]
          refine List.nodup_append.2 ⟨h.nodup, List.nodup_singleton _, ?_⟩
          intro id hid id' hid' heq
          obtain rfl := List.mem_singleton.1 hid'
          rw [heq] at hid
          exact Keyed.find_eq_none_iff.1 hnone hid
        · intro entry hm
          rw [hentries, List.mem_append] at hm
          rcases hm with hm | hm
          · obtain ⟨us, req', vs, rfl, ha, hd⟩ := h.origin entry hm
            exact ⟨us, req', vs ++ [.post req], by rw [List.append_assoc, List.cons_append], ha, hd⟩
          · obtain rfl := List.mem_singleton.1 hm
            exact ⟨events, req, [], rfl, by rw [answer, hp], rfl⟩

theorem served (keccak : Bytes → Bytes32) (events : List (Event R)) : Served keccak events (after keccak events) := by
  have hinit : Served keccak ([] : List (Event R)) DrainLoop.init :=
    ⟨List.nodup_nil, fun _ hm => absurd hm List.not_mem_nil⟩
  exact Runs.run_induction (P := Served keccak) hinit (fun _ e h => h.step e) events

/-! ### Answers -/

theorem after_inv (keccak : Bytes → Bytes32) (events : List (Event R)) :
    ∃ stuck cur, DrainLoop.Inv stuck cur (after keccak events) :=
  (run_later DrainLoop.Inv.init events).1

theorem after_keeps (events later : List (Event R)) :
    Keeps (after keccak events).queue (after keccak (events ++ later)).queue := by
  obtain ⟨stuck, cur, h⟩ := after_inv keccak events
  rw [after, after, Runs.run_append]
  exact (run_later h later).2

/-- Once a request has passed the schema, its session has a job. -/
theorem get_of_posted {us vs : List (Event R)} (h : submissionSchema req = true) :
    ∃ r, (after keccak (us ++ .post req :: vs)).queue.get (submissionJob keccak req).sessionKey = some r := by
  have hpost : ∃ r, (after keccak (us ++ [.post req])).queue.get (submissionJob keccak req).sessionKey = some r := by
    rw [after, Runs.run_concat]
    show ∃ r, (post keccak (after keccak us) req).1.queue.get _ = some r
    rcases @post_cases R keccak (after keccak us) req h with ⟨hr, hp⟩ | ⟨w', -, he, hp⟩
    · rw [hp]
      exact hr
    · obtain ⟨stuck, cur, hinv⟩ := after_inv keccak us
      rw [hp]
      exact (hinv.enqueue (sessionKey_ne_empty _ _) he).1
  obtain ⟨r, hr⟩ := hpost
  obtain ⟨r', hr', -⟩ := @after_keeps R keccak (us ++ [.post req]) vs _ r hr
  rw [List.append_assoc] at hr'
  exact ⟨r', hr'⟩

theorem get_iff_posted (hk : V3.PackedInjective keccak) (h : submissionSchema req = true) :
    (∃ r, (after keccak events).queue.get (submissionJob keccak req).sessionKey = some r) ↔
      ∃ us req' vs, events = us ++ .post req' :: vs ∧
        answer keccak us req' = .pending (submissionJob keccak req).sessionKey ∧ SamePair req' req := by
  constructor
  · rintro ⟨r, hr⟩
    obtain ⟨us, req', vs, he, ha, -⟩ := (served keccak events).origin _ (DrainLoop.mem_entries_of_get hr)
    obtain ⟨h', hkey⟩ := key_of_pending ha
    exact ⟨us, req', vs, he, ha, (sessionKey_inj hk h h').1 hkey.symm⟩
  · rintro ⟨us, req', vs, rfl, ha, hpair⟩
    obtain ⟨h', hkey⟩ := key_of_pending ha
    rw [hkey]
    exact get_of_posted h'

/-- The server after `events`. -/
structure Deduplicated (keccak : Bytes → Bytes32) (events : List (Event R)) : Prop where
  oneJob : ((after keccak events).queue.records.map fun r =>
    (r.data.payload.device_id, r.data.payload.session_id)).Nodup
  duplicate : ∀ req key, answer keccak events req = .duplicateSessionKey key ↔
    submissionSchema req = true ∧ key = (submissionJob keccak req).sessionKey ∧
      ∃ us req' vs, events = us ++ .post req' :: vs ∧ answer keccak us req' = .pending key ∧ SamePair req' req
  distinct : ∀ us req' vs req key key', events = us ++ .post req' :: vs → answer keccak us req' = .pending key' →
    answer keccak events req = .duplicateSessionKey key → ¬ SamePair req' req → key ≠ key'
  kept : ∀ req key later, answer keccak events req = .pending key →
    (after keccak events).queue.get key = none ∧
    Keeps (after keccak events).queue (after keccak (events ++ .post req :: later)).queue ∧
    ∃ r, (after keccak (events ++ .post req :: later)).queue.get key = some r ∧ r.data = submissionJob keccak req

theorem oneJob (keccak : Bytes → Bytes32) (events : List (Event R)) :
    ((after keccak events).queue.records.map fun r =>
      (r.data.payload.device_id, r.data.payload.session_id)).Nodup := by
  have h := served keccak events
  refine List.Nodup.of_map (fun pair => computeSessionKey keccak pair.1 pair.2) ?_
  have hids : ((after keccak events).queue.records.map fun r =>
      (r.data.payload.device_id, r.data.payload.session_id)).map (fun pair => computeSessionKey keccak pair.1 pair.2) =
      (after keccak events).queue.records.map (·.id) := by
    rw [List.map_map]
    refine List.map_congr_left ?_
    intro r hr
    obtain ⟨us, req, vs, -, ha, hd⟩ := h.origin (r.id, r.data) (List.mem_map.2 ⟨r, hr, rfl⟩)
    have hid : r.id = (submissionJob keccak req).sessionKey := (key_of_pending ha).2
    have hdata : r.data = submissionJob keccak req := hd
    rw [Function.comp_apply, hid, hdata]
    rfl
  rw [hids]
  exact h.nodup

theorem duplicate_iff (hk : V3.PackedInjective keccak) {key : String} :
    answer keccak events req = .duplicateSessionKey key ↔
      submissionSchema req = true ∧ key = (submissionJob keccak req).sessionKey ∧
        ∃ us req' vs, events = us ++ .post req' :: vs ∧ answer keccak us req' = .pending key ∧ SamePair req' req := by
  constructor
  · intro h
    rw [answer] at h
    rcases hs : submissionSchema req with _ | _
    · rcases @post_invalid R keccak (after keccak events) req hs with hp | ⟨message, hp⟩
      · rw [hp] at h
        cases h
      · rw [hp] at h
        cases h
    · rcases @post_cases R keccak (after keccak events) req hs with ⟨hr, hp⟩ | ⟨w', -, -, hp⟩
      · rw [hp] at h
        obtain rfl := Response.duplicateSessionKey.inj h
        exact ⟨rfl, rfl, (get_iff_posted hk hs).1 hr⟩
      · rw [hp] at h
        cases h
  · rintro ⟨hs, rfl, hposted⟩
    rcases @post_cases R keccak (after keccak events) req hs with ⟨-, hp⟩ | ⟨w', hnone, -, -⟩
    · rw [answer, hp]
    · obtain ⟨r, hr⟩ := (get_iff_posted hk hs).2 hposted
      rw [hnone] at hr
      cases hr

theorem kept {key : String} (h : answer keccak events req = .pending key) (later : List (Event R)) :
    (after keccak events).queue.get key = none ∧
    Keeps (after keccak events).queue (after keccak (events ++ .post req :: later)).queue ∧
    ∃ r, (after keccak (events ++ .post req :: later)).queue.get key = some r ∧ r.data = submissionJob keccak req := by
  obtain ⟨hs, rfl⟩ := key_of_pending h
  rcases @post_cases R keccak (after keccak events) req hs with ⟨-, hp⟩ | ⟨w', hnone, he, hp⟩
  · rw [answer, hp] at h
    cases h
  · have hw : after keccak (events ++ [.post req]) = w' := by
      rw [after, Runs.run_concat]
      show (post keccak (after keccak events) req).1 = w'
      rw [hp]
    obtain ⟨stuck, cur, hinv⟩ := after_inv keccak events
    obtain ⟨r, hr⟩ := (hinv.enqueue (sessionKey_ne_empty _ _) he).1
    have hm := DrainLoop.mem_entries_of_get hr
    rw [(DrainLoop.entries_of_enqueue he).2, List.mem_append] at hm
    have hd : r.data = submissionJob keccak req := by
      rcases hm with hm | hm
      · have hid := List.mem_map_of_mem (f := Prod.fst) hm
        rw [DrainLoop.map_fst_entries] at hid
        exact absurd hid (Keyed.find_eq_none_iff.1 hnone)
      · exact (Prod.mk.inj (List.mem_singleton.1 hm)).2
    obtain ⟨r', hr', hd', -⟩ := @after_keeps R keccak (events ++ [.post req]) later _ r (hw ▸ hr)
    rw [List.append_assoc] at hr'
    exact ⟨hnone, after_keeps events (.post req :: later), r', hr', hd'.trans hd⟩

/-- The server and V3 hash the same 16 bytes for a session, which determine it; and after every history of requests
and worker steps there is one job for a session at most, whatever it was spelled like, sessions are not mistaken for
each other, and no job is overwritten. -/
theorem session_identity {keccak : Bytes → Bytes32} (hk : V3.PackedInjective keccak) :
    (∀ d n : U64, Aggregator.setBigUint64 d.toNat ++ Aggregator.setBigUint64 n.toNat = encodePackedU64 d n ∧
      computeSessionKey keccak d.toNat n.toNat =
        String.ofList ('0' :: 'x' :: Hex.bytesToHex (wordBytes (V3.sessionKey keccak d n)))) ∧
    (∀ d n d' n' : U64, encodePackedU64 d n = encodePackedU64 d' n' → d = d' ∧ n = n') ∧
    ∀ events : List (Event R), Deduplicated keccak events := by
  refine ⟨fun d n => ⟨setBigUint64_append d n, computeSessionKey_toNat d n⟩, fun d n d' n' => encodePackedU64_inj.1,
    fun events => ⟨oneJob keccak events, fun req key => duplicate_iff hk, ?_, fun req key later h => kept h later⟩⟩
  intro us req' vs req key key' _ ha hd hpair heq
  obtain ⟨h', hkey'⟩ := key_of_pending ha
  obtain ⟨h, hkey, -⟩ := (duplicate_iff hk).1 hd
  exact hpair ((sessionKey_inj hk h h').1 (hkey'.symm.trans (heq.symm.trans hkey)))

open Server.SampleRequest V3.TestChain in
/-- Session 01 finds the job of session 1. -/
theorem session_identity_sample : V3.PackedInjective packKeccak ∧
    answer packKeccak [(.post squat : Event Unit)] (request "01" "0" ⟨"0", "0", "0"⟩) =
      .duplicateSessionKey (submissionJob packKeccak squat).sessionKey := by
  have hschema : submissionSchema (request "01" "0" ⟨"0", "0", "0"⟩) = true :=
    schema_request (by decide) (by decide) (by decide)
  have hpair : SamePair squat (request "01" "0" ⟨"0", "0", "0"⟩) := ⟨rfl, by decide⟩
  have hfirst : answer packKeccak ([] : List (Event Unit)) squat =
      .pending (submissionJob packKeccak squat).sessionKey := by
    rcases @post_cases Unit packKeccak DrainLoop.init squat schema_squat with ⟨⟨r, hr⟩, -⟩ | ⟨w', -, -, hp⟩
    · cases hr
    · rw [answer, after, Runs.run_nil, hp]
  have hdedup : Deduplicated packKeccak [(.post squat : Event Unit)] := (session_identity packKeccak_injective).2.2 _
  exact ⟨packKeccak_injective, (hdedup.duplicate _ _).2 ⟨hschema, (sessionKey_inj packKeccak_injective hschema schema_squat).2
    hpair, [], squat, [], rfl, hfirst, hpair⟩⟩

end Requests
end InfraVeritas
