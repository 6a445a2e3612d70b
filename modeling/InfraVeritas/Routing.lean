import InfraVeritas.Representation

/-!
# Error routing

The worker documents three categories: QUARANTINE (never retry), RETRY (re-queue up to the attempt limit) and
ALERT (fail terminal). `Routed` says what they demand of the job once its `process()` call has thrown, over
every later run. `handleError` treats an ALERT code like a RETRY code, and `routed_iff` says when that shows.
-/

namespace InfraVeritas
open InMemoryQueue

/-- QUARANTINE: a code on the list, or a circuit constraint failure. -/
def WorkerError.IsQuarantine : WorkerError → Prop
  | .chain e => e.code ∈ QUARANTINE_CODES
  | .other msg => isConstraintFailure msg = true

/-- ALERT: a code on neither list. -/
def WorkerError.IsAlert : WorkerError → Prop
  | .chain e => e.code ∉ QUARANTINE_CODES ∧ e.code ∉ RETRY_CODES
  | .other _ => False

instance : DecidablePred WorkerError.IsQuarantine
  | .chain _ => inferInstanceAs (Decidable (_ ∈ _))
  | .other _ => inferInstanceAs (Decidable (_ = _))

/-- The errors after which a job is documented to be over. -/
def Thrown.IsFinal : Thrown → Prop
  | .error err => err.IsQuarantine ∨ err.IsAlert
  | .noString => False

def Thrown.IsAlert : Thrown → Prop
  | .error err => err.IsAlert
  | .noString => False

theorem WorkerError.IsAlert.not_isQuarantine {err : WorkerError} (h : err.IsAlert) : ¬ err.IsQuarantine := by
  cases err with
  | chain e => exact h.1
  | other msg => exact h.elim

namespace InMemoryQueue
variable {T R : Type} {q : InMemoryQueue T R} {id : String} {r : JobRecord T R}

theorem get_quarantine (code message : String) (hr : q.get id = some r) :
    ∃ r', (q.quarantine id code message).get id = some r' ∧ r'.status = .quarantined :=
  ⟨_, get_update_self (fun _ => rfl) hr, rfl⟩

theorem get_fail_of_lt (code message : String) (hr : q.get id = some r) (h : r.attempts < MAX_ATTEMPTS) :
    (∃ r', (q.fail id code message).get id = some r' ∧ r'.status = .pending) ∧
      (q.fail id code message).pending = q.pending ++ [id] := by
  rw [fail, hr]
  dsimp only
  rw [if_pos h]
  exact ⟨⟨_, get_update_self (q := q) (fun _ => rfl) hr, rfl⟩, rfl⟩

theorem get_fail_of_le (code message : String) (hr : q.get id = some r) (h : ¬ r.attempts < MAX_ATTEMPTS) :
    ∃ r', (q.fail id code message).get id = some r' ∧ r'.status = .failed := by
  rw [fail, hr]
  dsimp only
  rw [if_neg h]
  exact ⟨_, get_update_self (fun _ => rfl) hr, rfl⟩

end InMemoryQueue

namespace Worker
variable {T R : Type} {q : InMemoryQueue T R} {id : String}

theorem handleError_of_quarantine (q : InMemoryQueue T R) (id : String) {err : WorkerError} (h : err.IsQuarantine) :
    ∃ code message, handleError q id err = q.quarantine id code message := by
  cases err with
  | chain e => exact ⟨_, _, if_pos h⟩
  | other msg => exact ⟨_, _, if_pos h⟩

/-- RETRY and ALERT errors are treated alike. -/
theorem handleError_of_not_quarantine (q : InMemoryQueue T R) (id : String) {err : WorkerError} (h : ¬ err.IsQuarantine) :
    ∃ code message, handleError q id err = q.fail id code message := by
  cases err with
  | chain e => exact ⟨_, _, (if_neg h).trans (ite_self _)⟩
  | other msg => exact ⟨_, _, if_neg h⟩

end Worker

namespace DrainLoop
variable {T R : Type} {w w' : DrainLoop T R} {stuck : List String} {cur : Option String} {job : String}

/-- However the run goes on, the job is not claimed again. -/
def NeverStarted (w : DrainLoop T R) (job : String) : Prop :=
  ∀ events : List (Event T R), (∀ e ∈ events, e.NonEmpty) →
    (Runs.run step w events).started.count job = w.started.count job

/-- The job can be claimed again, and it is once as many claims have followed as jobs wait. -/
def StartedAgain (w : DrainLoop T R) (job : String) : Prop :=
  (∃ events : List (Event T R), (∀ e ∈ events, e.NonEmpty) ∧
    w.started.count job < (Runs.run step w events).started.count job) ∧
  ∀ events : List (Event T R), (∀ e ∈ events, e.NonEmpty) →
    w.started.length + w.queue.pending.length ≤ (Runs.run step w events).started.length →
    w.started.count job < (Runs.run step w events).started.count job

/-- The documented routing, after `job` threw in `w` and `w'` is the state that follows. -/
structure Routed (thrown : Thrown) (job : String) (w w' : DrainLoop T R) : Prop where
  final : thrown.IsFinal → (∃ r, w'.queue.get job = some r ∧ r.status.Terminal) ∧ NeverStarted w' job
  retry : ¬ thrown.IsFinal → w.started.count job < 3 → StartedAgain w' job
  exhausted : ¬ thrown.IsFinal → ¬ w.started.count job < 3 →
    (∃ r, w'.queue.get job = some r ∧ r.status = .failed) ∧ NeverStarted w' job

theorem Inv.count_eq (h : Inv stuck cur w) {r : JobRecord T R} (hr : w.queue.get job = some r) :
    w.started.count job = r.attempts := by
  rw [h.started, hr]
  rfl

theorem Inv.neverStarted_of_terminal (h : Inv stuck cur w) {r : JobRecord T R} (hr : w.queue.get job = some r)
    (ht : r.status.Terminal) : NeverStarted w job := by
  intro events he
  obtain ⟨stuck', cur', h'⟩ := h.run he
  obtain ⟨r', hr', -, -, hkeep⟩ := h'.later.keeps job r hr
  rw [h'.inv.count_eq hr', h.count_eq hr, hkeep ht]

theorem Inv.neverStarted_of_stuck (h : Inv stuck cur w) (hm : job ∈ stuck) : NeverStarted w job := by
  intro events he
  obtain ⟨stuck', cur', h'⟩ := h.run he
  rw [h'.inv.started, h.started, h'.later.frozen job hm]

/-! ### The turn of a waiting job -/

theorem resume_returned (h : Inv stuck cur w) (hd : w.drains = [.returned]) {id : String} {rest : List String}
    (hp : w.queue.pending = id :: rest) : (w.resume 0).drains = [.processing id] ∧
      (w.resume 0).queue.pending = rest ∧ (w.resume 0).started = w.started ++ [id] := by
  obtain ⟨q, p, ds, started⟩ := w
  obtain rfl : ds = [.returned] := hd
  have hcur : cur = none := by
    have hf : Flight stuck p [.returned] cur := h.flight
    cases hf
    rfl
  subst hcur
  rcases takeJob_cases h.queue with ⟨hnil, -⟩ | ⟨id', rest', r, hp', -, -, -, ht, -⟩
  · rw [hp] at hnil
    cases hnil
  · obtain ⟨rfl, rfl⟩ := List.cons.inj (hp.symm.trans hp')
    have hr : DrainLoop.resume ⟨q, p, [.returned], started⟩ 0 =
        ⟨({ q with pending := rest } : InMemoryQueue T R).update id start, p, [.processing id], started ++ [id]⟩ := by
      rw [DrainLoop.resume]
      dsimp only [List.getElem?_cons_zero]
      rw [ht]
      rfl
    rw [hr]
    exact ⟨rfl, rfl, rfl⟩

theorem fail_processing (h : Inv stuck cur w) {id : String} (hd : w.drains = [.processing id]) (err : WorkerError) :
    (w.processOne 0 (.error (.error err))).drains = [.returned] ∧
      w.queue.pending <+: (w.processOne 0 (.error (.error err))).queue.pending ∧
      (w.processOne 0 (.error (.error err))).started = w.started := by
  obtain ⟨q, p, ds, started⟩ := w
  obtain rfl : ds = [.processing id] := hd
  have hcur : cur = some id := by
    have hf : Flight stuck p [.processing id] cur := h.flight
    cases hf
    rfl
  subst hcur
  have hq := (Worker.handleError_settled err h.queue).pending
  rw [← writeOff_handleError h.get_current.1, pending_writeOff, pending_writeOff] at hq
  exact ⟨rfl, hq, rfl⟩

/-- A waiting job is claimed when the calls before it fail one after the other. -/
theorem Inv.exists_started {pre post : List String} (h : Inv stuck cur w) (hd : w.drains = [.returned])
    (hp : w.queue.pending = pre ++ job :: post) : ∃ events : List (Event T R), (∀ e ∈ events, e.NonEmpty) ∧
      w.started.count job < (Runs.run DrainLoop.step w events).started.count job := by
  induction pre generalizing w stuck cur post with
  | nil =>
    obtain ⟨-, -, hs⟩ := resume_returned h hd hp
    refine ⟨[.resume 0], List.forall_mem_singleton.2 trivial, ?_⟩
    show w.started.count job < (w.resume 0).started.count job
    rw [hs, List.count_append, List.count_singleton_self]
    exact Nat.lt_succ_self _
  | cons id pre ih =>
    obtain ⟨hd₁, hp₁, hs₁⟩ := resume_returned h hd (hp.trans List.cons_append)
    obtain ⟨cur₁, h₁⟩ := h.resume 0
    obtain ⟨hd₂, ⟨more, hp₂⟩, hs₂⟩ := fail_processing h₁.inv hd₁ (.other "")
    obtain ⟨stuck₂, cur₂, h₂⟩ := h₁.inv.processOne 0 (.error (.error (.other "")))
    rw [hp₁, List.append_assoc, List.cons_append] at hp₂
    obtain ⟨events, he, hlt⟩ := ih h₂.inv hd₂ hp₂.symm
    refine ⟨.resume 0 :: .processOne 0 (.error (.error (.other ""))) :: events,
      List.forall_mem_cons.2 ⟨trivial, List.forall_mem_cons.2 ⟨trivial, he⟩⟩, Nat.lt_of_le_of_lt ?_ hlt⟩
    rw [hs₂, hs₁, List.count_append]
    exact Nat.le_add_right ..

theorem Inv.startedAgain (h : Inv stuck cur w) (hd : w.drains = [.returned]) (hm : job ∈ w.queue.pending) :
    StartedAgain w job := by
  obtain ⟨pre, post, hp⟩ := List.append_of_mem hm
  refine ⟨h.exists_started hd hp, ?_⟩
  intro events he hlen
  obtain ⟨stuck', cur', h'⟩ := h.run he
  obtain ⟨more, pushed, hs, hpend⟩ := h'.later.fifo
  have hle : w.queue.pending.length ≤ more.length := by
    rw [hs, List.length_append] at hlen
    omega
  have hmore : job ∈ more := by
    have hpre : w.queue.pending <+: more :=
      List.prefix_of_prefix_length_le ⟨pushed, rfl⟩ ⟨_, hpend.symm⟩ hle
    exact hpre.subset hm
  rw [hs, List.count_append]
  exact Nat.lt_add_of_pos_right (List.count_pos_iff.2 hmore)

/-! ### The routing -/

theorem Inv.of_processing {i : Nat} (h : Inv stuck cur w) (hp : w.drains[i]? = some (.processing job)) :
    i = 0 ∧ cur = some job ∧ w.drains = [.processing job] := by
  obtain ⟨q, p, ds, started⟩ := w
  have hflight : Flight stuck p ds cur := h.flight
  rcases i with _ | i
  · cases hflight with
    | idle | returned | threw => cases hp
    | processing job' =>
      obtain rfl : job' = job := Await.processing.inj (Option.some.inj hp)
      exact ⟨rfl, rfl, rfl⟩
  · cases hflight with
    | idle | returned | threw | processing => cases hp

theorem processOne_error (hd : w.drains = [.processing job]) (err : WorkerError) :
    w.processOne 0 (.error (.error err)) =
      { w with queue := Worker.handleError w.queue job err, drains := [.returned] } := by
  obtain ⟨q, p, ds, started⟩ := w
  obtain rfl : ds = [.processing job] := hd
  rfl

theorem Inv.routed_error (h : Inv stuck (some job) w) (hd : w.drains = [.processing job]) (err : WorkerError) :
    Routed (.error err) job w (w.processOne 0 (.error (.error err))) ↔ (err.IsAlert → 3 ≤ w.started.count job) := by
  obtain ⟨-, r, hr, -⟩ := h.get_current
  have hcount : w.started.count job = r.attempts := h.count_eq hr
  obtain ⟨stuck', cur', h'⟩ := h.processOne 0 (.error (.error err))
  obtain ⟨hd', -, -⟩ := fail_processing h hd err
  have hq : (w.processOne 0 (.error (.error err))).queue = Worker.handleError w.queue job err := by
    rw [processOne_error hd]
  by_cases hquar : err.IsQuarantine
  · obtain ⟨code, message, he⟩ := Worker.handleError_of_quarantine w.queue job hquar
    obtain ⟨r', hr', hs⟩ := get_quarantine code message hr
    rw [← he, ← hq] at hr'
    refine ⟨fun _ ha => absurd hquar ha.not_isQuarantine, fun _ => ⟨fun _ => ?_, fun hf => ?_, fun hf => ?_⟩⟩
    · exact ⟨⟨r', hr', .inr (.inr hs)⟩, h'.inv.neverStarted_of_terminal hr' (.inr (.inr hs))⟩
    · exact absurd (.inl hquar) hf
    · exact absurd (.inl hquar) hf
  · obtain ⟨code, message, he⟩ := Worker.handleError_of_not_quarantine w.queue job hquar
    by_cases hlt : r.attempts < MAX_ATTEMPTS
    · obtain ⟨⟨r', hr', hs⟩, hp⟩ := get_fail_of_lt code message hr hlt
      rw [← he, ← hq] at hr' hp
      refine ⟨fun hrouted ha => ?_, fun ha => ⟨fun hf => ?_, fun _ _ => ?_, fun _ hge => ?_⟩⟩
      · -- an alert: the job waits again
        obtain ⟨⟨r₁, hr₁, ht⟩, -⟩ := hrouted.final (.inr ha)
        rw [hr', Option.some.injEq] at hr₁
        subst hr₁
        rw [hs] at ht
        exact absurd ht (by decide)
      · have h3 := ha (hf.resolve_left hquar)
        rw [hcount] at h3
        exact absurd hlt (Nat.not_lt.2 h3)
      · refine h'.inv.startedAgain hd' ?_
        rw [hp]
        exact List.mem_append_right _ (List.mem_singleton_self job)
      · rw [hcount] at hge
        exact absurd hlt hge
    · obtain ⟨r', hr', hs⟩ := get_fail_of_le code message hr hlt
      rw [← he, ← hq] at hr'
      have hnever := h'.inv.neverStarted_of_terminal hr' (.inr (.inl hs))
      refine ⟨fun _ _ => hcount ▸ Nat.not_lt.1 hlt, fun _ => ⟨fun _ => ?_, fun _ h3 => ?_, fun _ _ => ?_⟩⟩
      · exact ⟨⟨r', hr', .inr (.inl hs)⟩, hnever⟩
      · exact absurd (hcount ▸ h3) hlt
      · exact ⟨⟨r', hr', hs⟩, hnever⟩

/-- A job whose error has no string form is neither ended nor claimed again. -/
theorem Inv.not_routed (h : Inv stuck (some job) w) (hd : w.drains = [.processing job]) :
    ¬ Routed .noString job w (w.processOne 0 (.error .noString)) := by
  obtain ⟨-, r, hr, hproc⟩ := h.get_current
  have h' := h.noString hd
  obtain ⟨q, p, ds, started⟩ := w
  obtain rfl : ds = [.processing job] := hd
  intro hrouted
  by_cases hlt : started.count job < 3
  · obtain ⟨⟨events, he, hgrow⟩, -⟩ := hrouted.retry id hlt
    rw [h'.neverStarted_of_stuck (List.mem_cons_self ..) events he] at hgrow
    exact Nat.lt_irrefl _ hgrow
  · obtain ⟨⟨r', hr', hs⟩, -⟩ := hrouted.exhausted id hlt
    have hrr : some r' = some r := hr'.symm.trans hr
    rw [Option.some.inj hrr, hproc] at hs
    cases hs

/-- Whenever a `process()` call throws: the three categories are respected exactly when what it throws has a
string form and is no alert on the first two attempts. -/
theorem routed_iff {events : List (Event T R)} (he : ∀ e ∈ events, e.NonEmpty) {i : Nat} {thrown : Thrown}
    (hp : (Runs.run step init events).drains[i]? = some (.processing job)) :
    Routed thrown job (Runs.run step init events) (Runs.run step init (events ++ [.processOne i (.error thrown)])) ↔
      thrown ≠ .noString ∧ (thrown.IsAlert → 3 ≤ (Runs.run step init events).started.count job) := by
  obtain ⟨stuck, cur, h⟩ := (Inv.init : Inv [] none (init : DrainLoop T R)).run he
  obtain ⟨rfl, rfl, hd⟩ := h.inv.of_processing hp
  rw [Runs.run_concat]
  cases thrown with
  | noString => exact ⟨fun hr => absurd hr (h.inv.not_routed hd), fun hn => absurd rfl hn.1⟩
  | error err =>
    refine (h.inv.routed_error hd err).trans ⟨fun ha => ⟨fun hn => (by cases hn), ha⟩, fun ha => ha.2⟩

namespace SampleDrain

def alert : Thrown := .error (.chain ⟨.AccessControlUnauthorizedAccount, "V3 revert: AccessControlUnauthorizedAccount"⟩)

def oneJob : List (Event Unit Unit) := [.enqueue "a" ()]

def thirdAttempt : List (Event Unit Unit) :=
  [.enqueue "a" (), .processOne 0 (.error (.error (.other "timeout"))), .resume 0,
    .processOne 0 (.error (.error (.other "timeout"))), .resume 0]

end SampleDrain

open SampleDrain in
theorem routed_iff_sample :
    Routed alert "a" (Runs.run step init thirdAttempt)
      (Runs.run step init (thirdAttempt ++ [.processOne 0 (.error alert)])) := by
  have he : ∀ e ∈ thirdAttempt, e.NonEmpty := by simp [thirdAttempt, Event.NonEmpty]
  have hp : (Runs.run step init thirdAttempt).drains[0]? = some (.processing "a") := by decide +kernel
  have hn : (Runs.run step init thirdAttempt).started.count "a" = 3 := by decide +kernel
  exact (routed_iff he hp).2 ⟨by decide, fun _ => hn.ge⟩

open SampleDrain in
/-- The worker is not the operator: the job is pending after its first attempt, and is claimed again. -/
theorem alert_retried :
    alert.IsFinal ∧ (∀ e ∈ oneJob, e.NonEmpty) ∧ (Runs.run step init oneJob).drains = [.processing "a"] ∧
    ((Runs.run step init (oneJob ++ [.processOne 0 (.error alert)])).queue.get "a").map (·.status) = some .pending ∧
    (Runs.run step init (oneJob ++ [.processOne 0 (.error alert), .resume 0])).started = ["a", "a"] ∧
    ¬ Routed alert "a" (Runs.run step init oneJob) (Runs.run step init (oneJob ++ [.processOne 0 (.error alert)])) := by
  have hfinal : alert.IsFinal := .inr ⟨by decide, by decide⟩
  have hpending : ((Runs.run step init (oneJob ++ [.processOne 0 (.error alert)])).queue.get "a").map (·.status) =
      some .pending := by decide +kernel
  refine ⟨hfinal, by simp [oneJob, Event.NonEmpty], by decide +kernel, hpending, by decide +kernel, ?_⟩
  intro h
  obtain ⟨⟨r, hr, ht⟩, -⟩ := h.final hfinal
  rw [hr, Option.map_some, Option.some.injEq] at hpending
  rw [hpending] at ht
  exact absurd ht (by decide)

end DrainLoop
end InfraVeritas
