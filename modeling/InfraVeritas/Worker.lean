import InfraVeritas.ChainErrors
import InfraVeritas.Lib.Runs
import InfraVeritas.Queue
import Mathlib.Data.List.Infix

/-!
# `SubmissionWorker`

The single-flight worker over one queue (`worker/index.ts`), at event-loop boundaries: a job is enqueued,
or the `process()` call of the current job resolves or throws. The loop of `drain` runs to its next
`await` within such a step, so `current` is the job whose `process()` call is pending, and `none` means
that no drain is running.
-/

namespace InfraVeritas
open Checks

inductive WorkerError
  | chain (e : ChainSubmissionError)
  | other (message : String)
deriving DecidableEq, Repr

def QUARANTINE_CODES : List ChainErrorCode :=
  [.DeviceNotActive, .InvalidP256Signature, .InvalidZKProof, .PayloadHashMismatch, .InvalidPubkeyLength,
    .InvalidSignatureLength, .SessionKeyAlreadyUsed]

def RETRY_CODES : List ChainErrorCode := [.EpochInFuture, .EnforcedPause, .InvalidTimestamp, .TX_REVERTED, .UNKNOWN]

/-- `/Cannot satisfy constraint|verify_signature|assertion failed/i`. -/
def isConstraintFailure (msg : String) : Bool :=
  ["cannot satisfy constraint", "verify_signature", "assertion failed"].any fun needle =>
    decide (needle.toList <:+: msg.toLower.toList)

structure Worker (T R : Type) where
  queue : InMemoryQueue T R
  current : Option String

namespace Worker
open InMemoryQueue
variable {T R : Type}

def init : Worker T R := ⟨InMemoryQueue.empty, none⟩

/-- The head of the loop of `drain`. -/
def drain (q : InMemoryQueue T R) : Worker T R :=
  match q.claim with
  | (q, some job) => ⟨q, some job.id⟩
  | (q, none) => ⟨q, none⟩

/-- `enqueue` with the worker's listener: a running drain is left alone. -/
def enqueue (w : Worker T R) (id : String) (data : T) : Except String (Worker T R) := do
  let q ← w.queue.enqueue id data
  match w.current with
  | some job => return ⟨q, some job⟩
  | none => return drain q

def handleError (q : InMemoryQueue T R) (jobId : String) (err : WorkerError) : InMemoryQueue T R :=
  match err with
  | .chain e =>
    if e.code ∈ QUARANTINE_CODES then q.quarantine jobId e.code.name e.message
    else if e.code ∈ RETRY_CODES then q.fail jobId e.code.name e.message
    else q.fail jobId e.code.name e.message  -- ALERT codes: failed like the others
  | .other msg =>
    if isConstraintFailure msg then q.quarantine jobId "CircuitConstraintFailed" msg
    else q.fail jobId "WorkerError" msg

/-- The end of `processOne` for the current job, and the next claim. -/
def settle (w : Worker T R) (outcome : Except WorkerError R) : Worker T R :=
  match w.current with
  | none => w
  | some job => match outcome with
    | .ok result => drain (w.queue.complete job result)
    | .error err => drain (handleError w.queue job err)

inductive Event (T R : Type)
  | enqueue (id : String) (data : T)
  | settle (outcome : Except WorkerError R)

def step (w : Worker T R) : Event T R → Worker T R
  | .enqueue id data => match w.enqueue id data with
    | .ok w' => w'
    | .error _ => w
  | .settle outcome => w.settle outcome

/-! ### The invariant -/

/-- The queue's invariant, and no job waits while no drain runs. -/
structure Inv (w : Worker T R) : Prop where
  queue : QueueInv w.queue w.current
  idle : w.current = none → w.queue.pending = []

variable {w : Worker T R} {q : InMemoryQueue T R} {id : String}

theorem Inv.init : Inv (Worker.init : Worker T R) := ⟨QueueInv.empty, fun _ => rfl⟩

theorem drain_cases (h : QueueInv q none) :
    (q.pending = [] ∧ drain q = ⟨q, none⟩) ∨
      ∃ id rest r, q.pending = id :: rest ∧ q.get id = some r ∧ r.status = .pending ∧
        drain q = ⟨({ q with pending := rest } : InMemoryQueue T R).update id start, some id⟩ ∧
        QueueInv (drain q).queue (some id) := by
  rcases hp : q.pending with _ | ⟨id, rest⟩
  · refine .inl ⟨rfl, ?_⟩
    rw [drain, QueueInv.claim_none hp]
  · obtain ⟨r, hget, hclaim, hinv⟩ := h.claim_some hp
    obtain ⟨r', hr', hst⟩ := (h.pending id).1 (by rw [hp]; exact List.mem_cons_self ..)
    have hrr : r = r' := Option.some.inj (hget.symm.trans hr')
    have hid : r.id = id := id_of_get hget
    have hdrain : drain q = ⟨({ q with pending := rest } : InMemoryQueue T R).update id start, some id⟩ := by
      rw [drain, hclaim]
      exact congrArg _ (congrArg some hid)
    refine .inr ⟨id, rest, r, rfl, hget, hrr ▸ hst, hdrain, ?_⟩
    rw [hdrain]
    exact hinv

theorem drain_inv (h : QueueInv q none) : Inv (drain q) := by
  rcases drain_cases h with ⟨hp, hd⟩ | ⟨id, rest, r, -, -, -, hd, hinv⟩
  · rw [hd]
    exact ⟨h, fun _ => hp⟩
  · have hcur : (drain q).current = some id := by rw [hd]
    exact ⟨hcur ▸ hinv, fun hc => by rw [hcur] at hc; cases hc⟩

theorem drain_get_current {id : String} {r : JobRecord T R} (h : QueueInv q none) (hr : q.get id = some r)
    (hc : (drain q).current = some id) : (drain q).queue.get id = some (start r) := by
  rcases drain_cases h with ⟨-, hd⟩ | ⟨id', rest, r', -, -, -, hd, -⟩
  · rw [hd] at hc; cases hc
  · rw [hd] at hc ⊢
    obtain rfl := Option.some.inj hc
    exact get_update_self (fun _ => rfl) hr

theorem drain_get_other {id : String} (h : QueueInv q none) (hc : (drain q).current ≠ some id) :
    (drain q).queue.get id = q.get id := by
  rcases drain_cases h with ⟨-, hd⟩ | ⟨id', rest, r', -, -, -, hd, -⟩
  · rw [hd]
  · rw [hd] at hc ⊢
    exact get_update_ne (fun _ => rfl) fun he => hc (he ▸ rfl)

theorem drain_keeps (h : QueueInv q none) : Keeps q (drain q).queue := by
  rcases drain_cases h with ⟨-, hd⟩ | ⟨id, rest, r, -, hr, hst, hd, -⟩
  · rw [hd]; exact .refl q
  · have hcur : (drain q).current = some id := by rw [hd]
    refine Keeps.of_get hr (drain_get_current h hr hcur) rfl (Nat.le_succ _) ?_ fun id' hne => ?_
    · rw [hst]; decide
    · refine drain_get_other h fun hc => hne ?_
      rw [hcur] at hc
      exact (Option.some.inj hc).symm

theorem drain_ids (h : QueueInv q none) : (drain q).queue.records.map (·.id) = q.records.map (·.id) := by
  rcases drain_cases h with ⟨-, hd⟩ | ⟨id, rest, r, -, -, -, hd, -⟩
  · rw [hd]
  · rw [hd]; exact ids_update fun _ => rfl

/-- `q'` is `q` after the end of `job`'s `process()` call: completed if it resolved (`done`). -/
structure Settled (q q' : InMemoryQueue T R) (job : String) (done : Prop) : Prop where
  inv : QueueInv q' none
  ids : q'.records.map (·.id) = q.records.map (·.id)
  pending : q.pending <+: q'.pending
  others : ∀ id, id ≠ job → q'.get id = q.get id
  self : ∀ r, q.get job = some r → ∃ r', q'.get job = some r' ∧ r'.data = r.data ∧ r'.attempts = r.attempts ∧
    (r'.status = .complete ↔ done)

/-- A settlement rewrites the job's record and at most appends the job to the pending list. -/
theorem Settled.of_update {f : JobRecord T R → JobRecord T R} {more : List String} {done : Prop}
    (hinv : QueueInv { q.update id f with pending := q.pending ++ more } none)
    (hid : ∀ r, (f r).id = r.id) (hdata : ∀ r, (f r).data = r.data) (ha : ∀ r, (f r).attempts = r.attempts)
    (hs : ∀ r, (f r).status = .complete ↔ done) :
    Settled q { q.update id f with pending := q.pending ++ more } id done :=
  ⟨hinv, ids_update hid, List.prefix_append .., fun _ hne => get_update_ne hid hne,
    fun r hr => ⟨f r, get_update_self hid hr, hdata r, ha r, hs r⟩⟩

theorem Settled.of_finish {f : JobRecord T R → JobRecord T R} {done : Prop} (hinv : QueueInv (q.update id f) none)
    (hid : ∀ r, (f r).id = r.id) (hdata : ∀ r, (f r).data = r.data) (ha : ∀ r, (f r).attempts = r.attempts)
    (hs : ∀ r, (f r).status = .complete ↔ done) : Settled q (q.update id f) id done :=
  ⟨hinv, ids_update hid, List.prefix_refl _, fun _ hne => get_update_ne hid hne,
    fun r hr => ⟨f r, get_update_self hid hr, hdata r, ha r, hs r⟩⟩

theorem complete_settled (result : R) (h : QueueInv q (some id)) : Settled q (q.complete id result) id True := by
  obtain ⟨r, hget⟩ := h.current id rfl
  refine Settled.of_finish (h.finish hget (fun _ => ⟨rfl, rfl⟩) ?_ ?_) (fun _ => rfl) (fun _ => rfl) (fun _ => rfl)
    fun _ => ⟨fun _ => trivial, fun _ => rfl⟩
  · intro hs; cases hs
  · intro hs; cases hs

theorem quarantine_settled {code message : String} (h : QueueInv q (some id)) :
    Settled q (q.quarantine id code message) id False := by
  obtain ⟨r, hget⟩ := h.current id rfl
  refine Settled.of_finish (h.finish hget (fun _ => ⟨rfl, rfl⟩) ?_ ?_) (fun _ => rfl) (fun _ => rfl) (fun _ => rfl)
    fun _ => ⟨fun hs => (by cases hs), False.elim⟩
  · intro hs; cases hs
  · intro hs; cases hs

theorem fail_settled {code message : String} (h : QueueInv q (some id)) :
    Settled q (q.fail id code message) id False := by
  obtain ⟨r, hget⟩ := h.current id rfl
  rw [fail, hget]
  dsimp only
  split
  · next hlt =>
    exact Settled.of_update (h.requeue hget (fun _ => ⟨rfl, rfl⟩) rfl hlt rfl) (fun _ => rfl) (fun _ => rfl)
      (fun _ => rfl) fun _ => ⟨fun hs => (by cases hs), False.elim⟩
  · refine Settled.of_finish (h.finish hget (fun _ => ⟨rfl, rfl⟩) ?_ ?_) (fun _ => rfl) (fun _ => rfl) (fun _ => rfl)
      fun _ => ⟨fun hs => (by cases hs), False.elim⟩
    · intro hs; cases hs
    · intro hs; cases hs

theorem handleError_settled (err : WorkerError) (h : QueueInv q (some id)) :
    Settled q (handleError q id err) id False := by
  unfold handleError
  split
  · split
    · exact quarantine_settled h
    · split <;> exact fail_settled h
  · split
    · exact quarantine_settled h
    · exact fail_settled h

theorem settle_cases (outcome : Except WorkerError R) (h : Inv w) (hc : w.current = some id) :
    ∃ q', w.settle outcome = drain q' ∧ Settled w.queue q' id (∃ result, outcome = .ok result) := by
  have hq := h.queue
  rw [hc] at hq
  rw [settle, hc]
  rcases outcome with err | result
  · refine ⟨_, rfl, ?_⟩
    have hs := handleError_settled err hq
    rwa [show (∃ result : R, Except.error err = Except.ok result) = False from
      eq_false fun ⟨_, he⟩ => by cases he]
  · refine ⟨_, rfl, ?_⟩
    have hs := complete_settled result hq
    rwa [show (∃ r : R, (Except.ok result : Except WorkerError R) = Except.ok r) = True from eq_true ⟨_, rfl⟩]

theorem settle_idle {outcome : Except WorkerError R} (hc : w.current = none) : w.settle outcome = w := by
  rw [settle, hc]

theorem enqueue_init {id : String} {data : T} (hid : id ≠ "") :
    (init : Worker T R).enqueue id data = .ok ⟨⟨[⟨id, data, .processing, 1, none, none⟩], []⟩, some id⟩ := by
  simp [Worker.enqueue, init, InMemoryQueue.enqueue, InMemoryQueue.empty, InMemoryQueue.get, Keyed.find, drain, claim,
    update, Keyed.modify, start, revertIf, hid]

theorem enqueue_cases {data : T} {w' : Worker T R} (h : Inv w) (hid : id ≠ "") (he : w.enqueue id data = .ok w') :
    ∃ q', w.queue.enqueue id data = .ok q' ∧ QueueInv q' w.current ∧
      (w' = ⟨q', w.current⟩ ∧ w.current ≠ none ∨ w' = drain q' ∧ w.current = none) := by
  obtain ⟨q', hq, hw⟩ := bind_eq_ok.1 he
  refine ⟨q', hq, h.queue.enqueue hid hq, ?_⟩
  rcases hc : w.current with _ | job
  · rw [hc] at hw
    exact .inr ⟨(pure_eq_ok.1 hw).symm, rfl⟩
  · rw [hc] at hw
    exact .inl ⟨(pure_eq_ok.1 hw).symm, fun hn => (by cases hn)⟩

theorem Inv.enqueue {data : T} {w' : Worker T R} (h : Inv w) (hid : id ≠ "") (he : w.enqueue id data = .ok w') :
    Inv w' := by
  obtain ⟨q', -, hinv, ⟨rfl, hc⟩ | ⟨rfl, hc⟩⟩ := enqueue_cases h hid he
  · exact ⟨hinv, fun hn => absurd hn hc⟩
  · rw [hc] at hinv
    exact drain_inv hinv

theorem Inv.settle {outcome : Except WorkerError R} (h : Inv w) : Inv (w.settle outcome) := by
  rcases hc : w.current with _ | job
  · rw [settle_idle hc]; exact h
  · obtain ⟨q', hs, hq⟩ := settle_cases outcome h hc
    rw [hs]
    exact drain_inv hq.inv

def Event.NonEmpty : Event T R → Prop
  | .enqueue id _ => id ≠ ""
  | .settle _ => True

theorem Inv.step {e : Event T R} (h : Inv w) (he : e.NonEmpty) : Inv (step w e) := by
  cases e with
  | enqueue id data =>
    rcases hw : w.enqueue id data with err | w'
    · rw [Worker.step, hw]; exact h
    · rw [Worker.step, hw]; exact h.enqueue he hw
  | settle outcome => exact h.settle

theorem Inv.run {events : List (Event T R)} (h : Inv w) (he : ∀ e ∈ events, e.NonEmpty) :
    Inv (Runs.run Worker.step w events) :=
  Runs.run_inv_of_steps h fun x hx hw => hw.step (he x.2 (Runs.input_mem _ hx))

/-! ### What a step does to the records -/

theorem Settled.keeps {q' : InMemoryQueue T R} {done : Prop} (h : QueueInv q (some id)) (hs : Settled q q' id done) :
    Keeps q q' := by
  obtain ⟨r, hr⟩ := h.current id rfl
  obtain ⟨r', hr', hd, ha, -⟩ := hs.self r hr
  have hproc : r.status = .processing := (h.records id r hr).processing.2 (congrArg some (id_of_get hr).symm)
  refine Keeps.of_get hr hr' hd ha.ge ?_ hs.others
  rw [hproc]
  decide

theorem settle_keeps {outcome : Except WorkerError R} (h : Inv w) : Keeps w.queue (w.settle outcome).queue := by
  rcases hc : w.current with _ | job
  · rw [settle_idle hc]; exact .refl _
  · obtain ⟨q', hs, hq⟩ := settle_cases outcome h hc
    rw [hs]
    exact (hq.keeps (hc ▸ h.queue)).trans (drain_keeps hq.inv)

theorem enqueue_keeps {data : T} {w' : Worker T R} (h : Inv w) (hid : id ≠ "") (he : w.enqueue id data = .ok w') :
    Keeps w.queue w'.queue := by
  obtain ⟨q', hq, hinv, ⟨rfl, -⟩ | ⟨rfl, hc⟩⟩ := enqueue_cases h hid he
  · exact Keeps.enqueue hq
  · rw [hc] at hinv
    exact (Keeps.enqueue hq).trans (drain_keeps hinv)

theorem step_keeps {e : Event T R} (h : Inv w) (he : e.NonEmpty) : Keeps w.queue (step w e).queue := by
  cases e with
  | enqueue id data =>
    rcases hw : w.enqueue id data with err | w'
    · rw [step, hw]; exact .refl _
    · rw [step, hw]; exact enqueue_keeps h he hw
  | settle outcome => exact settle_keeps h

/-- Final states are final, over every run. -/
theorem run_keeps {events : List (Event T R)} (h : Inv w) (he : ∀ e ∈ events, e.NonEmpty) :
    Keeps w.queue (Runs.run step w events).queue := by
  induction events generalizing w with
  | nil => exact .refl _
  | cons e events ih =>
    have he' := List.forall_mem_cons.1 he
    exact (step_keeps h he'.1).trans (ih (h.step he'.1) he'.2)

theorem drain_complete {r : JobRecord T R} (h : QueueInv q none) (hr : (drain q).queue.get id = some r)
    (hs : r.status = .complete) : q.get id = some r := by
  by_cases hc : (drain q).current = some id
  · rcases hq : q.get id with _ | r₀
    · rcases drain_cases h with ⟨-, hd⟩ | ⟨id', rest, r', -, hr', -, hd, -⟩
      · rw [hd] at hc; cases hc
      · rw [hd] at hc
        obtain rfl := Option.some.inj hc
        rw [hr'] at hq; cases hq
    · rw [drain_get_current h hq hc, Option.some.injEq] at hr
      subst hr
      cases hs
  · rwa [drain_get_other h hc] at hr

/-- A job completes only when its own `process()` call resolves. -/
theorem settle_complete {outcome : Except WorkerError R} {r : JobRecord T R} (h : Inv w)
    (hr : (w.settle outcome).queue.get id = some r) (hs : r.status = .complete) :
    w.queue.get id = some r ∨ w.current = some id ∧ ∃ result, outcome = .ok result := by
  rcases hc : w.current with _ | job
  · rw [settle_idle hc] at hr; exact .inl hr
  · obtain ⟨q', hd, hq⟩ := settle_cases outcome h hc
    rw [hd] at hr
    have hr' := drain_complete hq.inv hr hs
    by_cases he : id = job
    · subst he
      obtain ⟨r₀, hr₀⟩ := h.queue.current id hc
      obtain ⟨r₁, hr₁, -, -, hdone⟩ := hq.self r₀ hr₀
      rw [hr', Option.some.injEq] at hr₁
      subst hr₁
      exact .inr ⟨rfl, hdone.1 hs⟩
    · rw [hq.others id he] at hr'
      exact .inl hr'

theorem settle_ok {result : R} (h : Inv w) (hc : w.current = some id) :
    ∃ r, (w.settle (.ok result)).queue.get id = some r ∧ r.status = .complete := by
  obtain ⟨q', hd, hq⟩ := settle_cases (.ok result) h hc
  obtain ⟨r₀, hr₀⟩ := h.queue.current id hc
  obtain ⟨r₁, hr₁, -, -, hdone⟩ := hq.self r₀ hr₀
  have hs := hdone.2 ⟨result, rfl⟩
  obtain ⟨r₂, hr₂, -, -, hkeep⟩ := drain_keeps hq.inv id r₁ hr₁
  rw [hd]
  exact ⟨r₂, hr₂, hkeep (.inl hs) ▸ hs⟩

theorem enqueue_complete {job : String} {data : T} {w' : Worker T R} {r : JobRecord T R} (h : Inv w)
    (hid : job ≠ "") (he : w.enqueue job data = .ok w') (hr : w'.queue.get id = some r) (hs : r.status = .complete) :
    w.queue.get id = some r := by
  obtain ⟨q', hq, hinv, hw⟩ := enqueue_cases h hid he
  have hr' : q'.get id = some r := by
    rcases hw with ⟨rfl, -⟩ | ⟨rfl, hc⟩
    · exact hr
    · rw [hc] at hinv
      exact drain_complete hinv hr hs
  rw [get_enqueue hq] at hr'
  split at hr'
  · obtain rfl := Option.some.inj hr'
    cases hs
  · exact hr'

/-! ### The order of the jobs -/

def Event.id? : Event T R → Option String
  | .enqueue id _ => some id
  | .settle _ => none

/-- The ids a run enqueues, in order; an id that exists already is refused. -/
def enqueued (events : List (Event T R)) : List String := (events.filterMap Event.id?).eraseDups

theorem settle_ids {outcome : Except WorkerError R} (h : Inv w) :
    (w.settle outcome).queue.records.map (·.id) = w.queue.records.map (·.id) := by
  rcases hc : w.current with _ | job
  · rw [settle_idle hc]
  · obtain ⟨q', hs, hq⟩ := settle_cases outcome h hc
    rw [hs, drain_ids hq.inv, hq.ids]

theorem enqueue_ids {data : T} {w' : Worker T R} (h : Inv w) (hid : id ≠ "") (he : w.enqueue id data = .ok w') :
    id ∉ w.queue.records.map (·.id) ∧ w'.queue.records.map (·.id) = w.queue.records.map (·.id) ++ [id] := by
  obtain ⟨q', hq, hinv, hw⟩ := enqueue_cases h hid he
  obtain ⟨hnone, hq'⟩ := enqueue_eq_ok.1 hq
  refine ⟨Keyed.find_eq_none_iff.1 hnone, ?_⟩
  have hids : q'.records.map (·.id) = w.queue.records.map (·.id) ++ [id] := by rw [hq', List.map_append]; rfl
  rcases hw with ⟨rfl, -⟩ | ⟨rfl, hc⟩
  · exact hids
  · rw [hc] at hinv
    rw [drain_ids hinv, hids]

/-- An id is refused exactly when it has a record. -/
theorem enqueue_error (data : T) : (∃ err, w.enqueue id data = .error err) ↔ id ∈ w.queue.records.map (·.id) := by
  constructor
  · rintro ⟨err, he⟩
    by_contra hn
    have hq : w.queue.enqueue id data = .ok _ := enqueue_eq_ok.2 ⟨Keyed.find_eq_none_iff.2 hn, rfl⟩
    rw [enqueue, hq, ok_bind] at he
    split at he <;> cases he
  · intro hm
    rcases hw : w.enqueue id data with err | w'
    · exact ⟨err, rfl⟩
    · obtain ⟨q', hq, -⟩ := bind_eq_ok.1 hw
      exact absurd hm (Keyed.find_eq_none_iff.1 (enqueue_eq_ok.1 hq).1)

theorem eraseDups_concat (ids : List String) (id : String) :
    (ids ++ [id]).eraseDups = if id ∈ ids.eraseDups then ids.eraseDups else ids.eraseDups ++ [id] := by
  rw [List.eraseDups_append]
  split
  · next h => simp [List.removeAll, List.mem_eraseDups.1 h]
  · next h =>
    have hn : id ∉ ids := fun h' => h (List.mem_eraseDups.2 h')
    have hself : [id].removeAll ids = [id] := by simp [List.removeAll, hn]
    rw [hself]
    rfl

theorem ids_run {events : List (Event T R)} (he : ∀ e ∈ events, e.NonEmpty) :
    (Runs.run step (Worker.init : Worker T R) events).queue.records.map (·.id) = enqueued events := by
  induction events using List.reverseRecOn with
  | nil => rfl
  | append_singleton events e ih =>
    have hinit := List.forall_mem_append.1 he
    have hinv := Inv.run Inv.init hinit.1
    have ih := ih hinit.1
    rw [Runs.run_concat, enqueued, List.filterMap_append]
    cases e with
    | settle outcome =>
      rw [show [Event.settle outcome].filterMap Event.id? = [] from rfl, List.append_nil]
      exact (settle_ids hinv).trans ih
    | enqueue id data =>
      have hid : id ≠ "" := hinit.2 _ (List.mem_singleton_self _)
      rw [show [Event.enqueue id data].filterMap (Event.id? (R := R)) = [id] from rfl, eraseDups_concat, ← enqueued,
        ← ih]
      rcases hw : (Runs.run step (Worker.init : Worker T R) events).enqueue id data with err | w'
      · rw [step, hw, if_pos ((enqueue_error data).1 ⟨err, hw⟩)]
      · obtain ⟨hn, hids⟩ := enqueue_ids hinv hid hw
        rw [step, hw, if_neg hn, hids]

/-- A job enqueued before the one in process has been claimed, and either has ended or failed and waits
for its next attempt. -/
def InOrder (w : Worker T R) : Prop :=
  ∀ j l₁ l₂, w.current = some j.id → w.queue.records = l₁ ++ j :: l₂ →
    ∀ r ∈ l₁, 1 ≤ r.attempts ∧ (r.status.Terminal ∨ r.status = .pending ∧ r.error.isSome = true)

theorem Inv.inOrder (h : Inv w) : InOrder w := by
  intro j l₁ l₂ hc hrec r hr
  have hq := h.queue
  rw [hc] at hq
  have hattempts := hq.claimed_before hrec r hr
  have hnd := hq.nodup
  rw [hrec, List.map_append, List.map_cons, List.nodup_append] at hnd
  have hne : r.id ≠ j.id := hnd.2.2 r.id (List.mem_map_of_mem hr) j.id (List.mem_cons_self ..)
  have hget : w.queue.get r.id = some r := hq.get_iff.2 ⟨by rw [hrec]; simp [hr], rfl⟩
  have hinv := hq.records _ r hget
  refine ⟨hattempts, ?_⟩
  rcases hs : r.status with _ | _ | _ | _ | _
  · exact .inr ⟨rfl, (hinv.retry hs).2 hattempts⟩
  · exact absurd (Option.some.inj (hinv.processing.1 hs)).symm hne
  · exact .inl (.inl rfl)
  · exact .inl (.inr (.inl rfl))
  · exact .inl (.inr (.inr rfl))

/-! ### Progress -/

def Event.isSettle : Event T R → Bool
  | .enqueue _ _ => false
  | .settle _ => true

/-- A job with `pre` before it in the pending list is claimed by the end of `pre.length + 1` calls. -/
theorem claimed_after {pre post : List String} {events : List (Event T R)} (h : Inv w)
    (hp : w.queue.pending = pre ++ id :: post) (he : ∀ e ∈ events, e.NonEmpty)
    (hn : pre.length < events.countP Event.isSettle) :
    ∃ r, (Runs.run step w events).queue.get id = some r ∧ 1 ≤ r.attempts := by
  induction events generalizing w pre post with
  | nil => exact absurd hn (Nat.not_lt_zero _)
  | cons e events ih =>
    have he' := List.forall_mem_cons.1 he
    have hinv := h.step he'.1
    have hcur : w.current ≠ none := fun hc => by
      have hnil := h.idle hc
      rw [hp] at hnil
      simp at hnil
    rw [Runs.run_cons]
    cases e with
    | enqueue id' data =>
      rw [List.countP_cons_of_neg Bool.false_ne_true] at hn
      rcases hw : w.enqueue id' data with err | w'
      · rw [step, hw] at hinv ⊢
        exact ih hinv hp he'.2 hn
      · rw [step, hw] at hinv ⊢
        obtain ⟨q', hq, -, ⟨rfl, -⟩ | ⟨-, hc⟩⟩ := enqueue_cases h he'.1 hw
        · have hp' : q'.pending = pre ++ id :: (post ++ [id']) := by
            rw [pending_enqueue hq, hp, List.append_assoc]
            rfl
          exact ih hinv hp' he'.2 hn
        · exact absurd hc hcur
    | settle outcome =>
      rw [List.countP_cons_of_pos rfl] at hn
      obtain ⟨job, hjob⟩ := Option.ne_none_iff_exists'.1 hcur
      obtain ⟨q', hs, hq⟩ := settle_cases outcome h hjob
      obtain ⟨more, hmore⟩ := hq.pending
      rw [hp] at hmore
      rw [step, hs] at hinv ⊢
      rcases drain_cases hq.inv with ⟨hnil, -⟩ | ⟨id', rest, r, hrest, hr, -, hd, -⟩
      · rw [hnil] at hmore
        simp at hmore
      · rw [hrest] at hmore
        rcases pre with _ | ⟨a, pre⟩
        · -- it is the head: this step claims it
          obtain ⟨rfl, -⟩ := List.cons.inj hmore
          have hget := drain_get_current hq.inv hr (by rw [hd])
          obtain ⟨r', hr', -, ha, -⟩ := run_keeps hinv he'.2 id (start r) hget
          exact ⟨r', hr', (Nat.succ_pos r.attempts).trans_le ha⟩
        · obtain ⟨-, hrest'⟩ := List.cons.inj hmore
          have hp' : (drain q').queue.pending = pre ++ id :: (post ++ more) := by
            rw [hd, ← List.cons_append, ← List.append_assoc]
            exact hrest'.symm
          exact ih hinv hp' he'.2 (Nat.lt_of_succ_lt_succ hn)

/-- A job keeps its data, and is claimed after as many calls as jobs wait once it is enqueued. -/
theorem claimed_of_enqueue {data : T} {w' : Worker T R} {events : List (Event T R)} (h : Inv w) (hid : id ≠ "")
    (hw : w.enqueue id data = .ok w') (he : ∀ e ∈ events, e.NonEmpty)
    (hn : w'.queue.pending.length ≤ events.countP Event.isSettle) :
    ∃ r, (Runs.run step w' events).queue.get id = some r ∧ r.data = data ∧ 1 ≤ r.attempts := by
  have hinv := h.enqueue hid hw
  obtain ⟨q', hq, hqinv, hcase⟩ := enqueue_cases h hid hw
  have hget : q'.get id = some ⟨id, data, .pending, 0, none, none⟩ := by rw [get_enqueue hq, if_pos rfl]
  have hpend := pending_enqueue hq
  rcases hcase with ⟨rfl, -⟩ | ⟨rfl, hc⟩
  · have hlt : w.queue.pending.length < events.countP Event.isSettle := by
      refine Nat.lt_of_succ_le (Nat.le_trans (Nat.le_of_eq ?_) hn)
      rw [hpend, List.length_append, List.length_singleton]
    obtain ⟨r, hr, ha⟩ := claimed_after hinv hpend he hlt
    obtain ⟨r', hr', hd, -⟩ := run_keeps hinv he id _ hget
    exact ⟨r, hr, Option.some.inj (hr.symm.trans hr') ▸ hd, ha⟩
  · rw [hc] at hqinv
    rw [h.idle hc, List.nil_append] at hpend
    rcases drain_cases hqinv with ⟨hnil, -⟩ | ⟨id', rest, r, hrest, -, -, hd, -⟩
    · rw [hpend] at hnil
      cases hnil
    · obtain ⟨rfl, -⟩ := List.cons.inj (hpend.symm.trans hrest)
      obtain ⟨r', hr', hdata, ha, -⟩ := run_keeps hinv he id _ (drain_get_current hqinv hget (by rw [hd]))
      exact ⟨r', hr', hdata, ha⟩

end Worker
end InfraVeritas
