import InfraVeritas.Termination

/-!
# Best-effort validation

`process` with its last stage: once the chain call has given a result, the validation pipeline is awaited,
and its outcome, if it has one, is put into the result. What the pipeline throws is caught and reported to
the logger as a string; where it has no string form the report throws out of `process`. The run is compared
with the run that has no pipeline, over the queue, the claims and the results without their validation.
-/

namespace InfraVeritas
open InMemoryQueue Checks

/-! ### Queues under a map of results -/

section MapResult
variable {T R S : Type}

def JobRecord.mapResult (f : R → S) (r : JobRecord T R) : JobRecord T S :=
  ⟨r.id, r.data, r.status, r.attempts, r.result.map f, r.error⟩

namespace InMemoryQueue

def mapResult (f : R → S) (q : InMemoryQueue T R) : InMemoryQueue T S :=
  ⟨q.records.map (JobRecord.mapResult f), q.pending⟩

variable (f : R → S) (q : InMemoryQueue T R) (id : String)

theorem get_mapResult : (q.mapResult f).get id = (q.get id).map (JobRecord.mapResult f) := by
  rw [get, get, Keyed.find, Keyed.find, mapResult, List.find?_map]
  rfl

theorem mapResult_update {g : JobRecord T R → JobRecord T R} {g' : JobRecord T S → JobRecord T S}
    (hg : ∀ r, (g r).mapResult f = g' (r.mapResult f)) :
    (q.update id g).mapResult f = (q.mapResult f).update id g' := by
  simp only [mapResult, update, Keyed.modify, List.map_map]
  congr 1
  refine List.map_congr_left ?_
  intro r _
  simp only [Function.comp_apply]
  by_cases h : r.id = id
  · rw [if_pos h, if_pos (show (r.mapResult f).id = id from h), hg]
  · rw [if_neg h, if_neg (show ¬ (r.mapResult f).id = id from h)]

theorem mapResult_enqueue (data : T) :
    (q.mapResult f).enqueue id data = (q.enqueue id data).map (mapResult f) := by
  rw [enqueue, enqueue, get_mapResult, Option.isSome_map]
  by_cases h : (q.get id).isSome = true
  · rw [revertIf_of h]
    rfl
  · rw [revertIf_of_not h]
    simp [mapResult, JobRecord.mapResult, Except.map, Bind.bind, Except.bind, Pure.pure, Except.pure]

theorem mapResult_claim :
    (q.mapResult f).claim = (q.claim.1.mapResult f, q.claim.2.map (JobRecord.mapResult f)) := by
  obtain ⟨records, pending⟩ := q
  cases pending with
  | nil => rfl
  | cons id rest =>
    have hget : (mapResult f (⟨records, rest⟩ : InMemoryQueue T R)).get id =
        ((⟨records, rest⟩ : InMemoryQueue T R).get id).map (JobRecord.mapResult f) := get_mapResult f _ id
    by_cases hid : id = ""
    · simp [claim, mapResult, hid]
    · simp only [claim, mapResult, if_neg hid] at hget ⊢
      rw [hget]
      rcases (⟨records, rest⟩ : InMemoryQueue T R).get id with _ | r
      · rfl
      · exact congrArg₂ Prod.mk (mapResult_update f (⟨records, rest⟩ : InMemoryQueue T R) id fun _ => rfl).symm rfl

theorem mapResult_complete (result : R) :
    (q.complete id result).mapResult f = (q.mapResult f).complete id (f result) :=
  mapResult_update f q id fun _ => rfl

theorem mapResult_quarantine (code message : String) :
    (q.quarantine id code message).mapResult f = (q.mapResult f).quarantine id code message :=
  mapResult_update f q id fun _ => rfl

theorem mapResult_fail (code message : String) :
    (q.fail id code message).mapResult f = (q.mapResult f).fail id code message := by
  rw [InMemoryQueue.fail, InMemoryQueue.fail, get_mapResult]
  rcases q.get id with _ | r
  · rfl
  · dsimp only [Option.map_some]
    by_cases h : r.attempts < MAX_ATTEMPTS
    · rw [if_pos h, if_pos (show (r.mapResult f).attempts < MAX_ATTEMPTS from h)]
      have hupdate : (q.update id fun r => { r with error := some ⟨code, message⟩, status := .pending }).mapResult f =
          (q.mapResult f).update id fun r => { r with error := some ⟨code, message⟩, status := .pending } :=
        mapResult_update f q id fun _ => rfl
      exact congrArg (fun q' : InMemoryQueue T S => { q' with pending := q.pending ++ [id] }) hupdate
    · rw [if_neg h, if_neg (show ¬ (r.mapResult f).attempts < MAX_ATTEMPTS from h)]
      exact mapResult_update f q id fun _ => rfl

theorem mapResult_handleError (err : WorkerError) :
    (Worker.handleError q id err).mapResult f = Worker.handleError (q.mapResult f) id err := by
  unfold Worker.handleError
  split
  · split
    · exact mapResult_quarantine ..
    · split <;> exact mapResult_fail ..
  · split
    · exact mapResult_quarantine ..
    · exact mapResult_fail ..

end InMemoryQueue

namespace DrainLoop

def mapResult (f : R → S) (w : DrainLoop T R) : DrainLoop T S :=
  ⟨w.queue.mapResult f, w.isProcessing, w.drains, w.started⟩

variable (f : R → S) (w : DrainLoop T R)

theorem mapResult_takeJob : (w.mapResult f).takeJob = (w.takeJob.1.mapResult f, w.takeJob.2) := by
  unfold takeJob
  rw [mapResult, mapResult_claim]
  rcases w.queue.claim with ⟨q, _ | job⟩ <;> rfl

theorem mapResult_drain : w.drain.mapResult f = (w.mapResult f).drain := by
  rw [drain, drain, mapResult_takeJob]
  by_cases hp : w.isProcessing = true
  · rw [if_pos hp, if_pos (show (w.mapResult f).isProcessing = true from hp)]
  · rw [if_neg hp, if_neg (show ¬ (w.mapResult f).isProcessing = true from hp)]
    rcases w.takeJob with ⟨w', _ | a⟩ <;> rfl

theorem mapResult_enqueue (id : String) (data : T) :
    (w.mapResult f).enqueue id data = (w.enqueue id data).map (mapResult f) := by
  rw [enqueue, enqueue]
  rcases hq : w.queue.enqueue id data with err | q
  · have hq' : (w.mapResult f).queue.enqueue id data = .error err := by
      rw [mapResult, InMemoryQueue.mapResult_enqueue, hq]
      rfl
    rw [hq']
    rfl
  · have hq' : (w.mapResult f).queue.enqueue id data = .ok (q.mapResult f) := by
      rw [mapResult, InMemoryQueue.mapResult_enqueue, hq]
      rfl
    rw [hq']
    exact congrArg Except.ok (mapResult_drain f { w with queue := q }).symm

theorem mapResult_step_enqueue (id : String) (data : T) :
    (step w (.enqueue id data)).mapResult f = step (w.mapResult f) (.enqueue id data) := by
  rw [step, step, mapResult_enqueue]
  rcases w.enqueue id data with err | w' <;> rfl

theorem mapResult_processOne (i : Nat) (outcome : Except Thrown R) :
    (w.processOne i outcome).mapResult f = (w.mapResult f).processOne i (outcome.map f) := by
  rw [processOne, processOne, show (w.mapResult f).drains = w.drains from rfl]
  rcases w.drains[i]? with _ | a
  · rfl
  · cases a with
    | returned | threw => rfl
    | processing job =>
      rcases outcome with (err | _) | result
      · exact congrArg (fun q : InMemoryQueue T S => (⟨q, w.isProcessing, w.drains.set i .returned, w.started⟩ : DrainLoop T S))
          (mapResult_handleError f w.queue job err)
      · rfl
      · exact congrArg (fun q : InMemoryQueue T S => (⟨q, w.isProcessing, w.drains.set i .returned, w.started⟩ : DrainLoop T S))
          (mapResult_complete f w.queue job result)

theorem mapResult_resume (i : Nat) : (w.resume i).mapResult f = (w.mapResult f).resume i := by
  rw [resume, resume, show (w.mapResult f).drains = w.drains from rfl]
  rcases w.drains[i]? with _ | a
  · rfl
  · cases a with
    | processing | threw => rfl
    | returned =>
      dsimp only
      rw [mapResult_takeJob]
      rcases w.takeJob with ⟨w', _ | a⟩ <;> rfl

/-- The end of the current `process()` call, and the loop up to its next `await`. -/
def settle (w : DrainLoop T R) (outcome : Except Thrown R) : DrainLoop T R := (w.processOne 0 outcome).resume 0

theorem mapResult_settle (outcome : Except Thrown R) :
    (w.settle outcome).mapResult f = (w.mapResult f).settle (outcome.map f) := by
  rw [settle, mapResult_resume, mapResult_processOne]
  rfl

end DrainLoop

end MapResult

/-! ### The worker with a validation pipeline -/

/-- `baseResult`: what `process` has before it validates. -/
inductive BaseResult (X : Type)
  | submitted (tx : X)
  | mock (proofBytes : Nat)
deriving DecidableEq, Repr

inductive WorkerResult (X V : Type)
  | submitted (tx : X) (validation : Option V)
  | mock (proofBytes : Nat) (validation : Option V)
deriving DecidableEq, Repr

def BaseResult.merge {X V : Type} (b : BaseResult X) (validation : Option V) : WorkerResult X V :=
  match b with
  | .submitted tx => .submitted tx validation
  | .mock proofBytes => .mock proofBytes validation

/-- The result without its `validation` field. -/
def WorkerResult.base {X V : Type} : WorkerResult X V → BaseResult X
  | .submitted tx _ => .submitted tx
  | .mock proofBytes _ => .mock proofBytes

@[simp] theorem base_merge {X V : Type} (b : BaseResult X) (validation : Option V) : (b.merge validation).base = b := by
  cases b <;> rfl

/-- What validation throws, with what reading it as a string throws, if that throws. -/
structure ValidationError where
  report : Option Thrown
deriving DecidableEq, Repr

structure WorkerOptions where
  logger : Bool
  validationPipeline : Bool

/-- The `catch` around the pipeline; without a logger the error is not read. -/
def catchValidation {V : Type} (opts : WorkerOptions) (err : ValidationError) : Except Thrown (Option V) :=
  match err.report with
  | some thrown => if opts.logger then .error thrown else .ok none
  | none => .ok none

/-- The rest of `process`, from the end of the inner `try`. -/
def mergeValidation {X V : Type} (opts : WorkerOptions) (b : BaseResult X) :
    Except ValidationError V → Except Thrown (WorkerResult X V)
  | .ok validation => .ok (b.merge (some validation))
  | .error err => match catchValidation opts err with
    | .ok validation => .ok (b.merge validation)
    | .error thrown => .error thrown

/-- `baseResult` is set while the current `process()` call awaits the pipeline. -/
structure SubmissionWorker (T X V : Type) where
  loop : DrainLoop T (WorkerResult X V)
  baseResult : Option (BaseResult X)

namespace SubmissionWorker
variable {T X V : Type}

inductive Event (T X V : Type)
  | enqueue (id : String) (data : T)
  | drain
  /-- `process` reaches `baseResult`, or something throws before -/
  | processed (outcome : Except Thrown (BaseResult X))
  /-- the inner `try`: the pipeline, and the building of its arguments -/
  | validated (outcome : Except ValidationError V)

def init : SubmissionWorker T X V := ⟨DrainLoop.init, none⟩

/-- `none`: the event cannot happen, as no call awaits it. -/
def step (opts : WorkerOptions) (s : SubmissionWorker T X V) : Event T X V → Option (SubmissionWorker T X V)
  | .enqueue id data => some { s with loop := DrainLoop.step s.loop (.enqueue id data) }
  | .drain => some { s with loop := s.loop.drain }
  | .processed outcome => match s.loop.drains, s.baseResult, outcome with
    | [.processing _], none, .error thrown => some ⟨s.loop.settle (.error thrown), none⟩
    | [.processing _], none, .ok b =>
      if opts.validationPipeline then some ⟨s.loop, some b⟩ else some ⟨s.loop.settle (.ok (b.merge none)), none⟩
    | _, _, _ => none
  | .validated outcome => match s.baseResult with
    | none => none
    | some b => some ⟨s.loop.settle (mergeValidation opts b outcome), none⟩

def run (opts : WorkerOptions) (events : List (Event T X V)) : Option (SubmissionWorker T X V) :=
  events.foldlM (step opts) init

def Event.isValidated : Event T X V → Bool
  | .validated _ => true
  | _ => false

def Event.NonEmpty : Event T X V → Prop
  | .enqueue id _ => id ≠ ""
  | _ => True

/-- The report of a failed validation does not throw. -/
def Event.Reported (logger : Bool) : Event T X V → Prop
  | .validated (.error err) => err.report = none ∨ logger = false
  | _ => True

/-- The events of the worker without a pipeline. -/
def submissions (events : List (Event T X V)) : List (Event T X V) := events.filter fun e => ¬ e.isValidated

/-- The loop once the base result in hand, if there is one, has settled its job. -/
def settled (s : SubmissionWorker T X V) : DrainLoop T (WorkerResult X V) :=
  match s.baseResult with
  | none => s.loop
  | some b => s.loop.settle (.ok (b.merge none))

/-- Claims, pending jobs, and every record up to the `validation` of its result. -/
def submitted (loop : DrainLoop T (WorkerResult X V)) : DrainLoop T (BaseResult X) := loop.mapResult WorkerResult.base

/-- After these events the worker without a pipeline stands where this one does. -/
def Unaffected (logger : Bool) (events : List (Event T X V)) : Prop :=
  ∀ s, run ⟨logger, true⟩ events = some s →
    ∃ t, run ⟨logger, false⟩ (submissions events) = some t ∧ t.baseResult = none ∧ submitted t.loop = submitted s.settled

end SubmissionWorker

/-! ### A job that settles earlier -/

namespace DrainLoop
variable {T R : Type} {w : DrainLoop T R} {stuck : List String} {cur : Option String} {job id : String}

theorem step_enqueue_of_get {r : JobRecord T R} (data : T) (hr : w.queue.get id = some r) :
    step w (.enqueue id data) = w := by
  rw [step, enqueue, InMemoryQueue.enqueue, revertIf_of (by rw [hr]; rfl)]
  rfl

section Returned
variable {q q' : InMemoryQueue T R} {started : List String}

theorem resume_cases (h : Core stuck none (⟨q, true, [.returned], started⟩ : DrainLoop T R)) :
    (q.pending = [] ∧ resume ⟨q, true, [.returned], started⟩ 0 = (⟨q, false, [], started⟩ : DrainLoop T R)) ∨
      ∃ job rest r, q.pending = job :: rest ∧ job ≠ "" ∧ q.get job = some r ∧
        resume ⟨q, true, [.returned], started⟩ 0 = ⟨q.claim.1, true, [.processing job], started ++ [job]⟩ := by
  rcases takeJob_cases h.queue with ⟨hp, ht⟩ | ⟨job, rest, r, hp, -, hr, -, ht, -⟩
  · refine .inl ⟨hp, ?_⟩
    rw [resume]
    dsimp only [List.getElem?_cons_zero]
    rw [ht]
    rfl
  · have hjob : job ≠ "" := by
      obtain ⟨r', hr', -⟩ := (h.queue.pending job).1 (by rw [pending_writeOff, hp]; exact List.mem_cons_self ..)
      exact id_of_get hr' ▸ (h.queue.records job r' hr').nonempty
    refine .inr ⟨job, rest, r, hp, hjob, hr, ?_⟩
    rw [resume]
    dsimp only [List.getElem?_cons_zero]
    rw [ht, claim_cons hp hjob hr]
    rfl

/-- After a `process()` call has ended, an `enqueue` may come before or after the next claim. -/
theorem resume_enqueue {data : T} (h : Core stuck none (⟨q, true, [.returned], started⟩ : DrainLoop T R))
    (hq : q.enqueue id data = .ok q') :
    resume ⟨q', true, [.returned], started⟩ 0 = step (resume ⟨q, true, [.returned], started⟩ 0) (.enqueue id data) := by
  rcases resume_cases h with ⟨-, hres⟩ | ⟨job, rest, r, hp, hjob, hr, hres⟩
  · have hstep : step (⟨q, false, [], started⟩ : DrainLoop T R) (.enqueue id data) = drain ⟨q', false, [], started⟩ := by
      rw [step, enqueue, hq]
      rfl
    rw [hres, hstep, drain, if_neg Bool.false_ne_true, resume]
    dsimp only [List.getElem?_cons_zero]
    unfold takeJob
    dsimp only
    rcases q'.claim with ⟨q₁, _ | r⟩ <;> rfl
  · obtain ⟨q₁, q₁', hc, hc', henq⟩ := claim_enqueue hp hjob hr hq
    have hid : (start r).id = job := (id_of_get hr : r.id = job)
    rw [hres, hc, step, enqueue, henq, resume]
    dsimp only [List.getElem?_cons_zero, takeJob]
    rw [hc']
    dsimp only
    rw [hid]
    rfl

theorem resume_drain (h : Core stuck none (⟨q, true, [.returned], started⟩ : DrainLoop T R)) :
    (resume ⟨q, true, [.returned], started⟩ 0).drain = resume ⟨q, true, [.returned], started⟩ 0 := by
  rcases resume_cases h with ⟨hp, hres⟩ | ⟨job, rest, r, -, -, -, hres⟩
  · rw [hres, drain, if_neg Bool.false_ne_true, takeJob, QueueInv.claim_none hp]
  · rw [hres]
    rfl

end Returned

/-- While a `process()` call runs it is the only call there is, and the worker is in order once it has ended well. -/
theorem Inv.returned (h : Inv stuck (some job) w) (hd : w.drains = [.processing job]) (result : R) :
    ∃ q started, w = ⟨q, true, [.processing job], started⟩ ∧
      Core stuck none (⟨q.complete job result, true, [.returned], started⟩ : DrainLoop T R) := by
  obtain ⟨hcore, -⟩ := h.complete result
  obtain ⟨q, p, ds, started⟩ := w
  obtain rfl : ds = [.processing job] := hd
  have hf : Flight stuck p [.processing job] (some job) := h.flight
  cases hf
  exact ⟨q, started, rfl, hcore.queue, hcore.processing, hcore.started⟩

theorem settle_enqueue (h : Inv stuck (some job) w) (hd : w.drains = [.processing job]) (data : T)
    (result : R) : (step w (.enqueue id data)).settle (.ok result) = step (w.settle (.ok result)) (.enqueue id data) := by
  rcases hq : w.queue.enqueue id data with err | q'
  · -- refused in both
    obtain ⟨r, hr⟩ : ∃ r, w.queue.get id = some r := by
      rcases hg : w.queue.get id with _ | r
      · rw [enqueue_eq_ok.2 ⟨hg, rfl⟩] at hq
        cases hq
      · exact ⟨r, rfl⟩
    obtain ⟨stuck₁, cur₁, h₁⟩ := h.processOne 0 (.ok result)
    obtain ⟨cur₂, h₂⟩ := h₁.inv.resume 0
    obtain ⟨r₁, hr₁, -⟩ := h₁.later.keeps id r hr
    obtain ⟨r₂, hr₂, -⟩ := h₂.later.keeps id r₁ hr₁
    rw [step_enqueue_of_get data hr, settle, step_enqueue_of_get data hr₂]
  · have hne : id ≠ job := fun he => by
      obtain ⟨-, r, hr, -⟩ := h.get_current
      rw [← he, (enqueue_eq_ok.1 hq).1] at hr
      cases hr
    obtain ⟨q, started, rfl, hcore⟩ := h.returned hd result
    have hstep : step (⟨q, true, [.processing job], started⟩ : DrainLoop T R) (.enqueue id data) =
        ⟨q', true, [.processing job], started⟩ := by
      rw [step, enqueue, hq]
      rfl
    rw [hstep]
    exact resume_enqueue hcore (enqueue_update (fun _ => rfl) hne hq)

theorem settle_drain (h : Inv stuck (some job) w) (hd : w.drains = [.processing job]) (result : R) :
    w.drain = w ∧ (w.settle (.ok result)).drain = w.settle (.ok result) := by
  obtain ⟨q, started, rfl, hcore⟩ := h.returned hd result
  exact ⟨rfl, resume_drain hcore⟩

theorem Inv.settle (h : Inv stuck cur w) (outcome : Except Thrown R) :
    ∃ stuck' cur', Inv stuck' cur' (w.settle outcome) := by
  obtain ⟨stuck₁, cur₁, h₁⟩ := h.processOne 0 outcome
  obtain ⟨cur₂, h₂⟩ := h₁.inv.resume 0
  exact ⟨stuck₁, cur₂, h₂.inv⟩

theorem claim_complete {q : InMemoryQueue T R} {r : JobRecord T R} (hr : q.claim.1.get id = some r)
    (hs : r.status = .complete) : q.get id = some r := by
  unfold claim at hr
  split at hr
  · exact hr
  · dsimp only at hr
    split at hr
    · exact hr
    · split at hr
      · exact hr
      · -- the claimed job is `processing`
        rw [get_update (f := start) fun _ => rfl, Option.map_eq_some_iff] at hr
        obtain ⟨r₀, hr₀, rfl⟩ := hr
        split at hs
        · cases hs
        · next hne => rwa [if_neg hne]

theorem resume_complete {i : Nat} {r : JobRecord T R} (hr : (w.resume i).queue.get id = some r)
    (hs : r.status = .complete) : w.queue.get id = some r := by
  rw [resume] at hr
  rcases hd : w.drains[i]? with _ | a
  · rw [hd] at hr; exact hr
  · rw [hd] at hr
    cases a with
    | processing | threw => exact hr
    | returned =>
      have hclaim : w.queue.claim.1.get id = some r := by
        dsimp only [takeJob] at hr
        rcases hc : w.queue.claim with ⟨q, _ | job⟩
        · rw [hc] at hr; exact hr
        · rw [hc] at hr; exact hr
      exact claim_complete hclaim hs

theorem settle_ok_complete (h : Inv stuck (some job) w) (hd : w.drains = [.processing job]) (result : R) :
    ∃ r, (w.settle (.ok result)).queue.get job = some r ∧ r.status = .complete := by
  obtain ⟨-, r, hr, -⟩ := h.get_current
  obtain ⟨stuck₁, cur₁, h₁⟩ := h.processOne 0 (.ok result)
  obtain ⟨cur₂, h₂⟩ := h₁.inv.resume 0
  have hq : (w.processOne 0 (.ok result)).queue = w.queue.complete job result := by
    rw [processOne, hd]
    rfl
  have hget : (w.processOne 0 (.ok result)).queue.get job = some { r with status := .complete, result := some result } := by
    rw [hq]
    exact get_update_self (fun _ => rfl) hr
  obtain ⟨r', hr', -, -, hkeep⟩ := h₂.later.keeps job _ hget
  exact ⟨r', hr', hkeep (.inl rfl) ▸ rfl⟩

theorem settle_error_incomplete (h : Inv stuck (some job) w) (hd : w.drains = [.processing job]) (thrown : Thrown)
    {r : JobRecord T R} (hr : (w.settle (.error thrown)).queue.get job = some r) : r.status ≠ .complete := by
  intro hs
  have hr₁ := resume_complete hr hs
  obtain ⟨hn, r₀, hr₀, hproc⟩ := h.get_current
  cases thrown with
  | noString =>
    rw [processOne, hd] at hr₁
    obtain rfl : r₀ = r := Option.some.inj (hr₀.symm.trans hr₁)
    rw [hproc] at hs
    cases hs
  | error err =>
    rw [processOne_error hd] at hr₁
    have hq := Worker.handleError_settled err h.queue
    rw [← writeOff_handleError hn] at hq
    obtain ⟨r', hr', -, -, hst⟩ := hq.self r₀ ((get_writeOff_of_notMem hn).trans hr₀)
    rw [get_writeOff_of_notMem hn] at hr'
    obtain rfl : r' = r := Option.some.inj (hr'.symm.trans hr₁)
    exact hst.1 hs

end DrainLoop

/-! ### Runs with and without a pipeline -/

namespace SubmissionWorker
variable {T X V : Type} {opts : WorkerOptions} {logger : Bool} {events : List (Event T X V)} {e : Event T X V}
  {s s' t : SubmissionWorker T X V}

theorem step_processed {outcome : Except Thrown (BaseResult X)} (hs : step opts s (.processed outcome) = some s') :
    ∃ job, s.loop.drains = [.processing job] ∧ s.baseResult = none ∧
      ((∃ thrown, outcome = .error thrown ∧ s' = ⟨s.loop.settle (.error thrown), none⟩) ∨
        ∃ b, outcome = .ok b ∧
          s' = if opts.validationPipeline then ⟨s.loop, some b⟩ else ⟨s.loop.settle (.ok (b.merge none)), none⟩) := by
  unfold step at hs
  dsimp only at hs
  split at hs
  · next job thrown hd hb => exact ⟨job, hd, hb, .inl ⟨thrown, rfl, (Option.some.inj hs).symm⟩⟩
  · next job b hd hb =>
    refine ⟨job, hd, hb, .inr ⟨b, rfl, ?_⟩⟩
    split at hs
    · next hp => rw [if_pos hp, Option.some.inj hs]
    · next hp => rw [if_neg hp, Option.some.inj hs]
  · cases hs

theorem step_validated {outcome : Except ValidationError V} (hs : step opts s (.validated outcome) = some s') :
    ∃ b, s.baseResult = some b ∧ s' = ⟨s.loop.settle (mergeValidation opts b outcome), none⟩ := by
  unfold step at hs
  dsimp only at hs
  split at hs
  · cases hs
  · next b hb => exact ⟨b, hb, (Option.some.inj hs).symm⟩

theorem run_concat : run opts (events ++ [e]) = (run opts events).bind fun s => step opts s e := by
  rw [run, List.foldlM_append]
  rcases hr : events.foldlM (step opts) init with _ | s
  · rw [run, hr]
    rfl
  · rw [run, hr]
    simp

theorem run_concat_eq_some : run opts (events ++ [e]) = some s' ↔ ∃ s, run opts events = some s ∧ step opts s e = some s' := by
  rw [run_concat, Option.bind_eq_some_iff]

structure Inv (s : SubmissionWorker T X V) : Prop where
  loop : ∃ stuck cur, DrainLoop.Inv stuck cur s.loop
  awaits : ∀ b, s.baseResult = some b → ∃ job, s.loop.drains = [.processing job]

theorem Inv.init : Inv (SubmissionWorker.init : SubmissionWorker T X V) :=
  ⟨⟨[], none, DrainLoop.Inv.init⟩, fun b h => (by cases h)⟩

/-- Where the base result is in hand, its job is the one in process. -/
theorem Inv.processing (h : Inv s) {b : BaseResult X} (hb : s.baseResult = some b) :
    ∃ stuck job, DrainLoop.Inv stuck (some job) s.loop ∧ s.loop.drains = [.processing job] := by
  obtain ⟨job, hd⟩ := h.awaits b hb
  obtain ⟨stuck, cur, hl⟩ := h.loop
  obtain ⟨-, rfl, -⟩ := hl.of_processing (i := 0) (by rw [hd]; rfl)
  exact ⟨stuck, job, hl, hd⟩

theorem Inv.of_settle (h : Inv s) (outcome : Except Thrown (WorkerResult X V)) :
    Inv (⟨s.loop.settle outcome, none⟩ : SubmissionWorker T X V) := by
  obtain ⟨stuck, cur, hl⟩ := h.loop
  exact ⟨hl.settle outcome, fun b hb => (by cases hb)⟩

theorem drains_step_enqueue {w : DrainLoop T (WorkerResult X V)} {job : String} (id : String) (data : T)
    (hd : w.drains = [.processing job]) (hp : w.isProcessing = true) :
    (DrainLoop.step w (.enqueue id data)).drains = [.processing job] := by
  rw [DrainLoop.step, DrainLoop.enqueue]
  rcases w.queue.enqueue id data with err | q
  · exact hd
  · show (DrainLoop.drain { w with queue := q }).drains = _
    rw [DrainLoop.drain, if_pos hp, hd]

theorem Inv.step (h : Inv s) (he : e.NonEmpty) (hs : step opts s e = some s') : Inv s' := by
  cases e with
  | enqueue id data =>
    obtain rfl := Option.some.inj hs
    obtain ⟨stuck, cur, hl⟩ := h.loop
    obtain ⟨stuck', cur', hl'⟩ := hl.step (e := .enqueue id data) he
    refine ⟨⟨stuck', cur', hl'.inv⟩, ?_⟩
    intro b hb
    obtain ⟨stuck₁, job, hl₁, hd⟩ := h.processing hb
    have hp : s.loop.isProcessing = true := by
      have hf := hl₁.flight
      rw [hd] at hf
      generalize s.loop.isProcessing = p at hf ⊢
      cases hf
      rfl
    exact ⟨job, drains_step_enqueue id data hd hp⟩
  | drain =>
    obtain rfl := Option.some.inj hs
    obtain ⟨stuck, cur, hl⟩ := h.loop
    obtain ⟨cur', hl'⟩ := hl.drain
    refine ⟨⟨stuck, cur', hl'.inv⟩, ?_⟩
    intro b hb
    obtain ⟨stuck₁, job, hl₁, hd⟩ := h.processing hb
    refine ⟨job, ?_⟩
    show s.loop.drain.drains = _
    rw [(DrainLoop.settle_drain hl₁ hd (b.merge none)).1, hd]
  | processed outcome =>
    obtain ⟨job, hd, -, ⟨thrown, -, rfl⟩ | ⟨b, -, rfl⟩⟩ := step_processed hs
    · exact h.of_settle _
    · split
      · exact ⟨h.loop, fun b' hb' => ⟨job, hd⟩⟩
      · exact h.of_settle _
  | validated outcome =>
    obtain ⟨b, -, rfl⟩ := step_validated hs
    exact h.of_settle _

theorem Inv.run (he : ∀ e ∈ events, e.NonEmpty) (hrun : run opts events = some s) : Inv s := by
  induction events using List.reverseRecOn generalizing s with
  | nil =>
    obtain rfl := Option.some.inj hrun
    exact Inv.init
  | append_singleton events e ih =>
    obtain ⟨hinit, hlast⟩ := List.forall_mem_append.1 he
    obtain ⟨s₀, hr, hs⟩ := run_concat_eq_some.1 hrun
    exact (ih hinit hr).step (hlast e (List.mem_singleton_self e)) hs

theorem submissions_concat : submissions (events ++ [e]) = submissions events ++ if e.isValidated then [] else [e] := by
  rw [submissions, List.filter_append, ← submissions]
  cases e <;> rfl

theorem submitted_settle {w w' : DrainLoop T (WorkerResult X V)} {outcome outcome' : Except Thrown (WorkerResult X V)}
    (hw : submitted w = submitted w') (ho : outcome.map WorkerResult.base = outcome'.map WorkerResult.base) :
    submitted (w.settle outcome) = submitted (w'.settle outcome') := by
  rw [submitted, submitted, DrainLoop.mapResult_settle, DrainLoop.mapResult_settle, ho]
  exact congrArg (fun w => DrainLoop.settle w _) hw

theorem map_mergeValidation {outcome : Except ValidationError V} {b : BaseResult X}
    (hr : (Event.validated outcome : Event T X V).Reported logger) :
    (mergeValidation ⟨logger, true⟩ b outcome).map WorkerResult.base = .ok b := by
  rcases outcome with ⟨report⟩ | validation
  · rw [mergeValidation, catchValidation]
    rcases report with _ | thrown
    · exact congrArg Except.ok (base_merge b none)
    · obtain rfl : logger = false := hr.resolve_left fun hn => by cases hn
      exact congrArg Except.ok (base_merge b none)
  · exact congrArg Except.ok (base_merge b (some validation))

/-- Jobs come in alike before and after the validation that is under way. -/
theorem Inv.settled_enqueue (h : Inv s) (id : String) (data : T) :
    settled { s with loop := DrainLoop.step s.loop (.enqueue id data) } =
      DrainLoop.step s.settled (.enqueue id data) := by
  rcases hb : s.baseResult with _ | b
  · rw [settled, settled, hb]
  · obtain ⟨stuck, job, hl, hd⟩ := h.processing hb
    rw [settled, settled, hb]
    exact DrainLoop.settle_enqueue hl hd data _

theorem Inv.settled_drain (h : Inv s) : settled { s with loop := s.loop.drain } = s.settled.drain := by
  rcases hb : s.baseResult with _ | b
  · rw [settled, settled, hb]
  · obtain ⟨stuck, job, hl, hd⟩ := h.processing hb
    obtain ⟨hbusy, hdone⟩ := DrainLoop.settle_drain hl hd (b.merge none)
    rw [settled, settled, hb]
    dsimp only
    rw [hbusy, hdone]

/-- An event of the run keeps the two workers together, if its report does not throw. -/
theorem Unaffected.concat (he : ∀ x ∈ events ++ [e], x.NonEmpty) (h : Unaffected logger events) (hr : e.Reported logger) :
    Unaffected logger (events ++ [e]) := by
  intro s' hrun
  obtain ⟨s, hs₀, hs⟩ := run_concat_eq_some.1 hrun
  obtain ⟨hinit, hlast⟩ := List.forall_mem_append.1 he
  have hne := hlast e (List.mem_singleton_self e)
  have hinv := Inv.run hinit hs₀
  obtain ⟨t, ht, htb, heq⟩ := h s hs₀
  rw [submissions_concat]
  have hdrains : t.loop.drains = s.settled.drains :=
    congrArg (fun w : DrainLoop T (BaseResult X) => w.drains) heq
  cases e with
  | enqueue id data =>
    obtain rfl := Option.some.inj hs
    refine ⟨{ t with loop := DrainLoop.step t.loop (.enqueue id data) }, run_concat_eq_some.2 ⟨t, ht, rfl⟩, htb, ?_⟩
    rw [hinv.settled_enqueue, submitted, submitted, DrainLoop.mapResult_step_enqueue, DrainLoop.mapResult_step_enqueue]
    exact congrArg (fun w => DrainLoop.step w (.enqueue id data)) heq
  | drain =>
    obtain rfl := Option.some.inj hs
    refine ⟨{ t with loop := t.loop.drain }, run_concat_eq_some.2 ⟨t, ht, rfl⟩, htb, ?_⟩
    rw [hinv.settled_drain, submitted, submitted, DrainLoop.mapResult_drain, DrainLoop.mapResult_drain]
    exact congrArg DrainLoop.drain heq
  | processed outcome =>
    obtain ⟨job, hd, hb, hcase⟩ := step_processed hs
    have hsettled : s.settled = s.loop := by rw [settled, hb]
    rw [hsettled] at heq hdrains
    have hstep : step ⟨logger, false⟩ t (.processed outcome) =
        some ⟨t.loop.settle (outcome.map fun b => b.merge none), none⟩ := by
      rw [hd] at hdrains
      unfold step
      dsimp only
      rw [hdrains, htb]
      rcases outcome with thrown | b <;> rfl
    refine ⟨_, run_concat_eq_some.2 ⟨t, ht, hstep⟩, rfl, ?_⟩
    rcases hcase with ⟨thrown, rfl, rfl⟩ | ⟨b, rfl, rfl⟩
    · exact submitted_settle heq rfl
    · exact submitted_settle heq rfl
  | validated outcome =>
    obtain ⟨b, hb, rfl⟩ := step_validated hs
    refine ⟨t, by simpa [Event.isValidated] using ht, htb, ?_⟩
    have hsettled : s.settled = s.loop.settle (.ok (b.merge none)) := by rw [settled, hb]
    rw [heq, hsettled]
    refine submitted_settle rfl ?_
    rw [map_mergeValidation hr]
    exact congrArg Except.ok (base_merge b none)

/-- A report that throws takes the job's completion away. -/
theorem Unaffected.not_concat (he : ∀ x ∈ events ++ [e], x.NonEmpty) (h : Unaffected logger events)
    (hrun : run ⟨logger, true⟩ (events ++ [e]) = some s') (hr : ¬ e.Reported logger) :
    ¬ Unaffected logger (events ++ [e]) := by
  intro h'
  obtain ⟨s, hs₀, hs⟩ := run_concat_eq_some.1 hrun
  obtain ⟨hinit, -⟩ := List.forall_mem_append.1 he
  have hinv := Inv.run hinit hs₀
  obtain ⟨t, ht, -, heq⟩ := h s hs₀
  obtain ⟨t', ht', -, heq'⟩ := h' s' hrun
  cases e with
  | enqueue | drain | processed => exact hr trivial
  | validated outcome =>
    obtain ⟨b, hb, rfl⟩ := step_validated hs
    rcases outcome with ⟨_ | thrown⟩ | validation
    · exact hr (.inl rfl)
    · have hlogger : logger = true := by
        cases logger with
        | true => rfl
        | false => exact absurd (.inr rfl) hr
      obtain rfl : t' = t := by
        rw [submissions_concat, Event.isValidated, if_pos rfl, List.append_nil, ht] at ht'
        exact (Option.some.inj ht').symm
      obtain ⟨stuck, job, hl, hd⟩ := hinv.processing hb
      obtain ⟨r, hget, hcomplete⟩ := DrainLoop.settle_ok_complete hl hd (b.merge none)
      have hmerge : mergeValidation ⟨logger, true⟩ b (.error ⟨some thrown⟩ : Except ValidationError V) = .error thrown := by
        rw [mergeValidation, catchValidation, hlogger]
        rfl
      have hsame : submitted (s.loop.settle (.ok (b.merge none))) = submitted (s.loop.settle (.error thrown)) := by
        rw [settled, hb] at heq
        rw [settled, hmerge] at heq'
        exact heq.symm.trans heq'
      have hq := congrArg (fun w : DrainLoop T (BaseResult X) => w.queue.get job) hsame
      dsimp only [submitted, DrainLoop.mapResult] at hq
      rw [get_mapResult, get_mapResult, hget, Option.map_some] at hq
      obtain ⟨r', hr', hrr⟩ := Option.map_eq_some_iff.1 hq.symm
      have hstatus : r'.status = r.status := congrArg (fun r : JobRecord T (BaseResult X) => r.status) hrr
      exact DrainLoop.settle_error_incomplete hl hd thrown hr' (hstatus.trans hcomplete)
    · exact hr trivial

theorem unaffected_of_reported (he : ∀ e ∈ events, e.NonEmpty) (hr : ∀ e ∈ events, e.Reported logger) :
    Unaffected logger events := by
  induction events using List.reverseRecOn with
  | nil =>
    intro s hs
    obtain rfl := Option.some.inj hs
    exact ⟨init, rfl, rfl, rfl⟩
  | append_singleton events e ih =>
    obtain ⟨hr₁, hr₂⟩ := List.forall_mem_append.1 hr
    exact (ih (List.forall_mem_append.1 he).1 hr₁).concat he (hr₂ e (List.mem_singleton_self e))

/-- Over every run: at each of its points the worker without a pipeline has made the same claims and has the same
records but for the validation, exactly if every failed validation was reported or there is no logger. -/
theorem unaffected_iff (he : ∀ e ∈ events, e.NonEmpty) (hrun : run ⟨logger, true⟩ events = some s) :
    (∀ us, us <+: events → Unaffected logger us) ↔ ∀ e ∈ events, e.Reported logger := by
  constructor
  · intro hall
    induction events using List.reverseRecOn generalizing s with
    | nil => exact fun e hm => absurd hm List.not_mem_nil
    | append_singleton events e ih =>
      obtain ⟨hinit, -⟩ := List.forall_mem_append.1 he
      obtain ⟨s₀, hs₀, -⟩ := run_concat_eq_some.1 hrun
      have hbefore := fun us (hus : us <+: events) => hall us (hus.trans (List.prefix_append ..))
      refine List.forall_mem_append.2 ⟨ih hinit hs₀ hbefore, List.forall_mem_singleton.2 ?_⟩
      by_contra hne
      exact (hbefore events List.prefix_rfl).not_concat he hrun hne (hall _ List.prefix_rfl)
  · intro hr us hus
    exact unaffected_of_reported (fun e hm => he e (hus.subset hm)) fun e hm => hr e (hus.subset hm)

namespace SampleWorker

/-- The first job's validation fails, the second job is retried and validated. -/
def reported : List (Event Unit Nat Bool) :=
  [.enqueue "a" (), .processed (.ok (.submitted 1)), .enqueue "b" (), .validated (.error ⟨none⟩),
    .processed (.error (.error (.other "timeout"))), .processed (.ok (.submitted 2)), .validated (.ok true)]

/-- The job is on chain when its validation throws an object that has no string form. -/
def onChain : List (Event Unit Nat Bool) := [.enqueue "a" (), .processed (.ok (.submitted 1))]

def unreadable : Event Unit Nat Bool :=
  .validated (.error ⟨some (.error (.other "Cannot convert object to primitive value"))⟩)

end SampleWorker

open SampleWorker in
theorem unaffected_iff_sample :
    (∀ e ∈ reported, e.NonEmpty) ∧ (∃ s, run ⟨true, true⟩ reported = some s) ∧
    (∀ us, us <+: reported → Unaffected true us) := by
  have he : ∀ e ∈ reported, e.NonEmpty := by simp [reported, Event.NonEmpty]
  have hr : ∀ e ∈ reported, e.Reported true := by simp [reported, Event.Reported]
  have hsome : (run ⟨true, true⟩ reported).isSome = true := by decide +kernel
  obtain ⟨s, hs⟩ := Option.isSome_iff_exists.1 hsome
  exact ⟨he, ⟨s, hs⟩, (unaffected_iff he hs).2 hr⟩

open SampleWorker in
/-- The job is claimed a second time; without a pipeline it is complete. -/
theorem retried_after_submission :
    (∀ e ∈ onChain ++ [unreadable], e.NonEmpty) ∧
    (run ⟨true, true⟩ (onChain ++ [unreadable])).map (fun s => s.loop.started) = some ["a", "a"] ∧
    (run ⟨true, true⟩ (onChain ++ [unreadable])).map (fun s => s.loop.queue.records.map (·.status)) = some [.processing] ∧
    (run ⟨true, false⟩ (submissions (onChain ++ [unreadable]))).map (fun t => t.loop.started) = some ["a"] ∧
    (run ⟨true, false⟩ (submissions (onChain ++ [unreadable]))).map (fun t => t.loop.queue.records.map (·.status)) =
      some [.complete] ∧
    ¬ Unaffected true (onChain ++ [unreadable]) := by
  have he : ∀ e ∈ onChain ++ [unreadable], e.NonEmpty := by simp [onChain, unreadable, Event.NonEmpty]
  have hr : ∀ e ∈ onChain, e.Reported true := by simp [onChain, Event.Reported]
  have hsome : (run ⟨true, true⟩ (onChain ++ [unreadable])).isSome = true := by decide +kernel
  obtain ⟨s, hs⟩ := Option.isSome_iff_exists.1 hsome
  refine ⟨he, by decide +kernel, by decide +kernel, by decide +kernel, by decide +kernel, ?_⟩
  refine (unaffected_of_reported (List.forall_mem_append.1 he).1 hr).not_concat he hs ?_
  simp [unreadable, Event.Reported]

end SubmissionWorker
end InfraVeritas
