import InfraVeritas.Routing
import Mathlib.Algebra.BigOperators.Group.Finset.Basic
import Mathlib.Algebra.Order.BigOperators.Group.Finset

/-!
# Termination of `drain`

A job is claimed three times at most, because `claim` alone counts attempts and `fail` puts a job back only
below the limit. Each claim pays for two moves of the loop, the end of the `process()` call and the resumption
of `drain`, so over `n` jobs the loop makes at most `6 n` moves, in whatever order jobs arrive; while it runs,
a move is due. Where it ends, every job is settled unless a move threw a value without a string form.
-/

namespace InfraVeritas
open InMemoryQueue

/-- Entries from a list of ids, each at most `k` times. -/
theorem length_le_of_count_le {α : Type} [DecidableEq α] {xs ids : List α} {k : Nat} (hsub : xs ⊆ ids)
    (hk : ∀ x, xs.count x ≤ k) : xs.length ≤ k * ids.length := by
  have hcard : xs.toFinset.card ≤ ids.length :=
    (Finset.card_le_card fun x hx => List.mem_toFinset.2 (hsub (List.mem_toFinset.1 hx))).trans (List.toFinset_card_le ids)
  have hsum : ∑ x ∈ xs.toFinset, xs.count x ≤ xs.toFinset.card * k :=
    Finset.sum_le_card_nsmul _ _ _ fun x _ => hk x
  calc xs.length = ∑ x ∈ xs.toFinset, xs.count x := (List.sum_toFinset_count_eq_length xs).symm
    _ ≤ xs.toFinset.card * k := hsum
    _ ≤ ids.length * k := Nat.mul_le_mul_right k hcard
    _ = k * ids.length := Nat.mul_comm ..

namespace InMemoryQueue
variable {T R : Type} {q q' : InMemoryQueue T R} {id : String} {f : JobRecord T R → JobRecord T R}

@[simp] theorem length_update : (q.update id f).records.length = q.records.length := List.length_map ..

@[simp] theorem length_fail (code message : String) : (q.fail id code message).records.length = q.records.length := by
  unfold fail
  split
  · rfl
  · split
    · exact length_update
    · exact length_update

theorem length_claim (q : InMemoryQueue T R) : q.claim.1.records.length = q.records.length := by
  unfold claim
  split
  · rfl
  · dsimp only
    split
    · rfl
    · split
      · rfl
      · exact length_update

end InMemoryQueue

namespace Worker
variable {T R : Type}

theorem length_handleError (q : InMemoryQueue T R) (id : String) (err : WorkerError) :
    (handleError q id err).records.length = q.records.length := by
  unfold handleError quarantine
  split <;> split <;> simp

end Worker

/-- The moves that are due before the next claim. -/
def Await.due : Await → Nat
  | .processing _ => 2
  | .returned => 1
  | .threw => 1

namespace DrainLoop
variable {T R : Type} {w : DrainLoop T R} {e : Event T R} {stuck : List String} {cur : Option String} {job : String}

/-- The event moves a running `drain`: its `process()` call ends, or it goes on after its `await`. -/
def isMove (w : DrainLoop T R) : Event T R → Bool
  | .processOne i _ => match w.drains[i]? with
    | some (.processing _) => true
    | _ => false
  | .resume i => match w.drains[i]? with
    | some .returned => true
    | some .threw => true
    | _ => false
  | _ => false

def Event.isEnqueue : Event T R → Bool
  | .enqueue _ _ => true
  | _ => false

/-- Nothing waits and every job has its final status. -/
def Settled (w : DrainLoop T R) : Prop := w.queue.pending = [] ∧ ∀ r ∈ w.queue.records, r.status.Terminal

/-! ### The moves that a claim pays for -/

def due (ds : List Await) : Nat := (ds.map Await.due).sum

@[simp] theorem due_append (ds ds' : List Await) : due (ds ++ ds') = due ds + due ds' := by simp [due]

theorem due_set {ds : List Await} {i : Nat} {a : Await} (b : Await) (h : ds[i]? = some a) :
    due (ds.set i b) + a.due = due ds + b.due := by
  induction ds generalizing i with
  | nil => simp at h
  | cons d ds ih =>
    cases i with
    | zero =>
      obtain rfl : d = a := by simpa using h
      simp only [due, List.set_cons_zero, List.map_cons, List.sum_cons]
      omega
    | succ i =>
      have hi := ih (by simpa using h)
      simp only [due, List.set_cons_succ, List.map_cons, List.sum_cons] at hi ⊢
      omega

theorem due_eraseIdx {ds : List Await} {i : Nat} {a : Await} (h : ds[i]? = some a) :
    due (ds.eraseIdx i) + a.due = due ds := by
  induction ds generalizing i with
  | nil => simp at h
  | cons d ds ih =>
    cases i with
    | zero =>
      obtain rfl : d = a := by simpa using h
      simp only [due, List.eraseIdx_cons_zero, List.map_cons, List.sum_cons]
      omega
    | succ i =>
      have hi := ih (by simpa using h)
      simp only [due, List.eraseIdx_cons_succ, List.map_cons, List.sum_cons] at hi ⊢
      omega

/-- Moves due less two for each claim. -/
def credit (w : DrainLoop T R) : ℤ := due w.drains - 2 * w.started.length

theorem credit_drain (w : DrainLoop T R) : credit w.drain = credit w := by
  rw [drain]
  split
  · rfl
  · rcases takeJob_worker w with ⟨q, ht, -⟩ | ⟨q, job, ht, -⟩
    · rw [ht]
      rfl
    · rw [ht]
      simp only [credit, due_append, List.length_append, List.length_singleton]
      simp only [due, List.map_cons, List.map_nil, List.sum_cons, List.sum_nil, Await.due]
      push_cast
      omega

theorem credit_processOne (w : DrainLoop T R) (i : Nat) (outcome : Except Thrown R) :
    (if isMove w (.processOne i outcome) then 1 else 0) + credit (w.processOne i outcome) = credit w := by
  rw [processOne, isMove]
  rcases hd : w.drains[i]? with _ | a
  · simp
  · have hreturned := due_set .returned hd
    have hthrew := due_set .threw hd
    cases a with
    | returned | threw => simp
    | processing job =>
      simp only [Await.due] at hreturned hthrew
      rcases outcome with (err | _) | result
      · simp only [credit, if_true]
        omega
      · simp only [credit, if_true]
        omega
      · simp only [credit, if_true]
        omega

theorem credit_resume (w : DrainLoop T R) (i : Nat) :
    (if isMove w (.resume i) then 1 else 0) + credit (w.resume i) = credit w := by
  rw [resume, isMove]
  rcases hd : w.drains[i]? with _ | a
  · simp
  · have herase := due_eraseIdx hd
    cases a with
    | processing job => simp
    | threw =>
      simp only [Await.due] at herase
      simp only [credit, if_true]
      omega
    | returned =>
      simp only [Await.due] at herase
      rcases takeJob_worker w with ⟨q, ht, -⟩ | ⟨q, job, ht, -⟩
      · rw [ht]
        simp only [credit, if_true]
        omega
      · have hset := due_set (.processing job) hd
        simp only [Await.due] at hset
        rw [ht]
        simp only [credit, if_true, List.length_append, List.length_singleton]
        push_cast
        omega

theorem credit_step (w : DrainLoop T R) (e : Event T R) :
    (if isMove w e then 1 else 0) + credit (step w e) = credit w := by
  cases e with
  | processOne i outcome => exact credit_processOne w i outcome
  | resume i => exact credit_resume w i
  | drain =>
    show (0 : ℤ) + credit w.drain = credit w
    rw [zero_add, credit_drain]
  | enqueue id data =>
    show (0 : ℤ) + credit (step w (.enqueue id data)) = credit w
    rw [zero_add, step]
    rcases hw : w.enqueue id data with err | w'
    · rfl
    · obtain ⟨q, -, hq⟩ := Checks.bind_eq_ok.1 hw
      obtain rfl := Checks.pure_eq_ok.1 hq
      exact credit_drain _

/-- The moves of a run of the loop. -/
def moves (events : List (Event T R)) : Nat :=
  (Runs.steps step (init : DrainLoop T R) events).countP fun x => isMove x.1 x.2

theorem moves_le (events : List (Event T R)) :
    moves events ≤ 2 * (Runs.run step (init : DrainLoop T R) events).started.length := by
  have h : ((moves events : Nat) : ℤ) + credit (Runs.run step (init : DrainLoop T R) events) = 0 :=
    Runs.countP_steps_add fun x _ => credit_step x.1 x.2
  rw [credit] at h
  omega

/-! ### The number of jobs and of claims -/

theorem length_drain (w : DrainLoop T R) : w.drain.queue.records.length = w.queue.records.length := by
  have h := length_claim w.queue
  unfold drain takeJob
  split
  · rfl
  · rcases hc : w.queue.claim with ⟨q, _ | r⟩
    · rw [hc] at h; exact h
    · rw [hc] at h; exact h

theorem length_step (w : DrainLoop T R) (e : Event T R) :
    (step w e).queue.records.length ≤ w.queue.records.length + if e.isEnqueue then 1 else 0 := by
  cases e with
  | drain => exact (length_drain w).le
  | enqueue id data =>
    rw [step]
    rcases hw : w.enqueue id data with err | w'
    · exact Nat.le_add_right ..
    · obtain ⟨q, hq, hw⟩ := Checks.bind_eq_ok.1 hw
      obtain rfl := Checks.pure_eq_ok.1 hw
      obtain ⟨-, rfl⟩ := enqueue_eq_ok.1 hq
      dsimp only
      rw [length_drain, List.length_append]
      exact le_rfl
  | processOne i outcome =>
    refine le_of_eq ?_
    rw [step, processOne]
    rcases w.drains[i]? with _ | a
    · rfl
    · cases a with
      | returned | threw => rfl
      | processing job =>
        rcases outcome with (err | _) | result
        · exact Worker.length_handleError ..
        · rfl
        · exact length_update
  | resume i =>
    refine le_of_eq ?_
    have h := length_claim w.queue
    rw [step, resume]
    rcases w.drains[i]? with _ | a
    · rfl
    · cases a with
      | processing | threw => rfl
      | returned =>
        unfold takeJob
        rcases hc : w.queue.claim with ⟨q, _ | r⟩
        · rw [hc] at h; exact h
        · rw [hc] at h; exact h

theorem length_records_le (events : List (Event T R)) :
    (Runs.run step (init : DrainLoop T R) events).queue.records.length ≤ events.countP Event.isEnqueue := by
  refine Runs.run_induction (P := fun es (w : DrainLoop T R) => w.queue.records.length ≤ es.countP Event.isEnqueue) le_rfl ?_ events
  intro es e ih
  have h := length_step (Runs.run step init es) e
  rw [List.countP_append, List.countP_singleton]
  omega

theorem Core.count_started_le (h : Core stuck cur w) (id : String) : w.started.count id ≤ MAX_ATTEMPTS := by
  rw [h.started]
  rcases hr : w.queue.get id with _ | r
  · exact Nat.zero_le _
  · by_cases hm : id ∈ stuck
    · have hr' : (DrainLoop.writeOff stuck w.queue).get id = some (fail r) := by rw [get_writeOff_of_mem hm, hr]; rfl
      exact (h.queue.records id _ hr').attempts
    · exact (h.queue.records id r ((get_writeOff_of_notMem hm).trans hr)).attempts

theorem Core.length_started_le (h : Core stuck cur w) : w.started.length ≤ 3 * w.queue.records.length := by
  have hsub : w.started ⊆ w.queue.records.map (·.id) := by
    intro id hid
    have hpos := List.count_pos_iff.2 hid
    rw [h.started] at hpos
    rcases hr : w.queue.get id with _ | r
    · rw [hr] at hpos
      exact absurd hpos (Nat.lt_irrefl 0)
    · exact List.mem_map.2 ⟨r, Keyed.mem_of_find hr, id_of_get hr⟩
  have hle := length_le_of_count_le hsub h.count_started_le
  rwa [List.length_map] at hle

/-! ### The end of a drain -/

theorem Inv.exists_move (h : Inv stuck cur w) (hp : w.isProcessing = true) :
    (∀ outcome, isMove w (.processOne 0 outcome) = true) ∨ isMove w (.resume 0) = true := by
  obtain ⟨q, p, ds, started⟩ := w
  have hflight : Flight stuck p ds cur := h.flight
  cases hflight with
  | idle => cases hp
  | processing job => exact .inl fun _ => rfl
  | returned | threw => exact .inr rfl

theorem Inv.settled (h : Inv [] cur w) (hidle : w.isProcessing = false) : Settled w := by
  have hq : QueueInv w.queue cur := h.queue
  have hpending := h.idle rfl hidle
  have hcur : cur = none := by
    obtain ⟨q, p, ds, started⟩ := w
    have hflight : Flight [] p ds cur := h.flight
    cases hflight with
    | idle => rfl
    | processing | returned | threw => cases hidle
  refine ⟨hpending, ?_⟩
  intro r hr
  have hget : w.queue.get r.id = some r := hq.get_iff.2 ⟨hr, rfl⟩
  cases hs : r.status with
  | pending =>
    have hm := (hq.pending r.id).2 ⟨r, hget, hs⟩
    rw [hpending] at hm
    exact absurd hm List.not_mem_nil
  | processing =>
    have hc := (hq.records r.id r hget).processing.1 hs
    rw [hcur] at hc
    cases hc
  | complete => exact .inl rfl
  | failed => exact .inr (.inl rfl)
  | quarantined => exact .inr (.inr rfl)

theorem Inv.step_of_printable (h : Inv stuck cur w) (he : e.NonEmpty) (hp : isMove w e = true → e.Printable) :
    ∃ cur', Inv stuck cur' (DrainLoop.step w e) := by
  by_cases hpe : e.Printable
  · obtain ⟨stuck', cur', hs⟩ := h.step he
    exact ⟨cur', hs.eq hpe ▸ hs.inv⟩
  · -- it threw nothing: no `process()` call was pending there
    refine ⟨cur, ?_⟩
    have hn : ¬ isMove w e = true := fun hm => hpe (hp hm)
    cases e with
    | enqueue | drain | resume => exact absurd trivial hpe
    | processOne i outcome =>
      rw [isMove] at hn
      rw [DrainLoop.step, DrainLoop.processOne]
      rcases hd : w.drains[i]? with _ | a
      · exact h
      · cases a with
        | returned | threw => exact h
        | processing job => rw [hd] at hn; exact absurd rfl hn

theorem Inv.run_of_printable {events : List (Event T R)} (h : Inv stuck cur w) (he : ∀ e ∈ events, e.NonEmpty)
    (hp : ∀ x ∈ Runs.steps DrainLoop.step w events, isMove x.1 x.2 = true → x.2.Printable) :
    ∃ cur', Inv stuck cur' (Runs.run DrainLoop.step w events) := by
  refine Runs.run_inv_of_steps (I := fun w => ∃ cur', Inv stuck cur' w) ⟨cur, h⟩ fun x hx ⟨cur', h'⟩ => ?_
  exact h'.step_of_printable (he x.2 (Runs.input_mem _ hx)) (hp x hx)

/-- A job whose `process()` call threw a value without a string form is `processing` for good. -/
theorem Inv.processing_of_noString {events : List (Event T R)} (h : Inv stuck (some job) w)
    (hd : w.drains = [.processing job]) (he : ∀ e ∈ events, e.NonEmpty) :
    ∃ r, (Runs.run DrainLoop.step (w.processOne 0 (.error .noString)) events).queue.get job = some r ∧
      r.status = .processing := by
  obtain ⟨-, r, hr, hproc⟩ := h.get_current
  have hsame : (w.processOne 0 (.error .noString)).queue = w.queue := by
    rw [DrainLoop.processOne, hd]
    rfl
  obtain ⟨stuck', cur', hs⟩ := (h.noString hd).run he
  refine ⟨r, ?_, hproc⟩
  rw [hs.later.frozen job (List.mem_cons_self ..), hsame, hr]

/-- Over every run of enqueues, calls of `drain` and outcomes: over `n` jobs three claims each and six moves of
the loop at most, a move due while a drain runs, and at its end every job settled, exactly if no `process()` call
threw a value without a string form. -/
theorem drain_settles_iff {events : List (Event T R)} (he : ∀ e ∈ events, e.NonEmpty) :
    (∀ id data, .enqueue id data ∈ events → ∃ r, (Runs.run step init events).queue.get id = some r) ∧
    (Runs.run step (init : DrainLoop T R) events).queue.records.length ≤ events.countP Event.isEnqueue ∧
    (Runs.run step (init : DrainLoop T R) events).started.length ≤
      3 * (Runs.run step (init : DrainLoop T R) events).queue.records.length ∧
    moves events ≤ 6 * (Runs.run step (init : DrainLoop T R) events).queue.records.length ∧
    ((Runs.run step (init : DrainLoop T R) events).isProcessing = true →
      (∀ outcome, isMove (Runs.run step init events) (.processOne 0 outcome) = true) ∨
      isMove (Runs.run step (init : DrainLoop T R) events) (.resume 0) = true) ∧
    ((Runs.run step (init : DrainLoop T R) events).isProcessing = false →
      (Settled (Runs.run step (init : DrainLoop T R) events) ↔
        ∀ x ∈ Runs.steps step (init : DrainLoop T R) events, isMove x.1 x.2 = true → x.2.Printable)) := by
  obtain ⟨stuck, cur, h⟩ := (Inv.init : Inv [] none (init : DrainLoop T R)).run he
  have hclaims := h.inv.length_started_le
  have hmoves := moves_le events
  refine ⟨fun id data hm => get_of_mem he hm, length_records_le events, hclaims, by omega, h.inv.exists_move,
    fun hidle => ⟨fun hsettled x hx hmove => ?_, fun hp => ?_⟩⟩
  · -- a job that threw such a value would still be `processing`
    obtain ⟨w, e⟩ := x
    by_contra hne
    obtain ⟨us, vs, rfl, rfl⟩ := (Runs.mem_steps_iff _).1 hx
    obtain ⟨hus, hevs⟩ := List.forall_mem_append.1 he
    obtain ⟨-, hvs⟩ := List.forall_mem_cons.1 hevs
    obtain ⟨stuck₁, cur₁, h₁⟩ := (Inv.init : Inv [] none (init : DrainLoop T R)).run hus
    rcases e with ⟨id, data⟩ | _ | ⟨i, (err | _) | result⟩ | i
    · exact hne trivial
    · exact hne trivial
    · exact hne trivial
    · dsimp only at hmove
      rw [isMove] at hmove
      rcases hd : (Runs.run step init us).drains[i]? with _ | (job | _ | _)
      · rw [hd] at hmove; cases hmove
      · obtain ⟨rfl, rfl, hds⟩ := h₁.inv.of_processing hd
        obtain ⟨r, hr, hs⟩ := h₁.inv.processing_of_noString hds hvs
        rw [Runs.run_append, Runs.run_cons] at hsettled
        have ht := hsettled.2 r (Keyed.mem_of_find hr)
        rw [hs] at ht
        exact absurd ht (by decide)
      · rw [hd] at hmove; cases hmove
      · rw [hd] at hmove; cases hmove
    · exact hne trivial
    · exact hne trivial
  · obtain ⟨cur', h'⟩ := Inv.init.run_of_printable he hp
    exact h'.settled hidle

/-- The second job fails once and then completes. -/
def SampleDrain.settled : List (Event Unit Unit) := SampleDrain.twoJobs ++ [.processOne 0 (.ok ()), .resume 0]

open SampleDrain in
theorem drain_settles_iff_sample :
    (∀ e ∈ settled, e.NonEmpty) ∧ (Runs.run step init settled).isProcessing = false ∧
    Settled (Runs.run step init settled) ∧ (Runs.run step init settled).started = ["a", "b", "b"] ∧
    moves settled = 6 := by
  have he : ∀ e ∈ settled, e.NonEmpty := by simp [settled, twoJobs, Event.NonEmpty]
  have hp : ∀ e ∈ settled, e.Printable := by simp [settled, twoJobs, Event.Printable]
  have hidle : (Runs.run step init settled).isProcessing = false := by decide +kernel
  obtain ⟨-, -, -, -, -, hsettled⟩ := drain_settles_iff he
  have hs := (hsettled hidle).2 fun x hx _ => hp x.2 (Runs.input_mem _ hx)
  exact ⟨he, hidle, hs, by decide +kernel, by decide +kernel⟩

open SampleDrain in
/-- The drain has ended: job `a` is `processing`, and job `b` waits. -/
theorem unsettled_without_string :
    (∀ e ∈ threwNoString, e.NonEmpty) ∧ (Runs.run step init threwNoString).isProcessing = false ∧
    (Runs.run step init threwNoString).queue.records.map (·.status) = [.processing, .pending] ∧
    (Runs.run step init threwNoString).queue.pending = ["b"] ∧ ¬ Settled (Runs.run step init threwNoString) := by
  have hpending : (Runs.run step init threwNoString).queue.pending = ["b"] := by decide +kernel
  refine ⟨by simp [threwNoString, Event.NonEmpty], by decide +kernel, by decide +kernel, hpending, ?_⟩
  intro h
  rw [h.1] at hpending
  cases hpending

end DrainLoop
end InfraVeritas
