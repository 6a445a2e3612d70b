import InfraVeritas.Drain

/-!
# The representation of queue and worker

What holds of the queue's records, its pending list and the single-flight flag between any two events
(`Represents`), and that the loop, seen at its boundaries, is the `Worker` (`Inv.refines`, `run_refines`).
-/

namespace InfraVeritas
open InMemoryQueue

namespace DrainLoop
variable {T R : Type} {q q' : InMemoryQueue T R} {id : String} {stuck : List String} {cur : Option String}
  {w w' : DrainLoop T R}

theorem Inv.get_of_enqueue (data : T) (h : Inv stuck cur w) (hid : id ≠ "") :
    ∃ r, (DrainLoop.step w (.enqueue id data)).queue.get id = some r := by
  rw [DrainLoop.step]
  rcases hw : w.enqueue id data with err | w'
  · -- it was refused: there is a record
    rcases hg : w.queue.get id with _ | r
    · rw [DrainLoop.enqueue, enqueue_eq_ok.2 ⟨hg, rfl⟩] at hw
      cases hw
    · exact ⟨r, rfl⟩
  · exact (h.enqueue hid hw).1

theorem get_of_mem {events : List (Event T R)} (he : ∀ e ∈ events, e.NonEmpty) {data : T}
    (hm : .enqueue id data ∈ events) : ∃ r, (Runs.run step (init : DrainLoop T R) events).queue.get id = some r := by
  obtain ⟨us, vs, rfl⟩ := List.append_of_mem hm
  obtain ⟨hus, hevs⟩ := List.forall_mem_append.1 he
  obtain ⟨hid, hvs⟩ := List.forall_mem_cons.1 hevs
  obtain ⟨stuck₁, cur₁, h₁⟩ := Inv.init.run hus
  obtain ⟨stuck₂, cur₂, h₂⟩ := h₁.inv.step (e := .enqueue id data) hid
  obtain ⟨stuck₃, cur₃, h₃⟩ := h₂.inv.run hvs
  obtain ⟨r, hr⟩ := h₁.inv.get_of_enqueue data hid
  obtain ⟨r', hr', -⟩ := h₃.later.keeps id r hr
  rw [Runs.run_append, Runs.run_cons]
  exact ⟨r', hr'⟩

/-! ### The queue as it is -/

/-- The representation of the queue and the worker between two events. -/
structure Represents (w : DrainLoop T R) : Prop where
  single : ∀ id id' r r', w.queue.get id = some r → w.queue.get id' = some r' → r.status = .processing →
    r'.status = .processing → id = id'
  running : ∀ id r, w.queue.get id = some r → r.status = .processing → w.isProcessing = true ∧ w.drains.length = 1
  nodup : w.queue.pending.Nodup
  pending : ∀ id, id ∈ w.queue.pending ↔ ∃ r, w.queue.get id = some r ∧ r.status = .pending
  claimed : ∀ id r, w.queue.get id = some r → id ∈ w.started → 1 ≤ r.attempts ∧ r.attempts ≤ MAX_ATTEMPTS
  fresh : ∀ id r, w.queue.get id = some r → r.attempts = 0 → id ∉ w.started
  idle : w.isProcessing = false → w.queue.pending = []

theorem Inv.represents (h : Inv [] cur w) : Represents w := by
  have hq : QueueInv w.queue cur := h.queue
  have hproc (id : String) (r : JobRecord T R) (hr : w.queue.get id = some r) (hs : r.status = .processing) :
      cur = some id :=
    ((hq.records id r hr).processing.1 hs).trans (congrArg some (id_of_get hr))
  have hattempts (id : String) (r : JobRecord T R) (hr : w.queue.get id = some r) : w.started.count id = r.attempts := by
    rw [h.started, hr]
    rfl
  refine ⟨fun id id' r r' hr hr' hs hs' => ?_, fun id r hr hs => ?_, hq.pendingNodup, hq.pending, fun id r hr hm => ?_,
    fun id r hr h0 hm => ?_, h.idle rfl⟩
  · exact Option.some.inj ((hproc id r hr hs).symm.trans (hproc id' r' hr' hs'))
  · have hflight := h.flight
    rw [hproc id r hr hs] at hflight
    generalize w.isProcessing = p at hflight ⊢
    generalize w.drains = ds at hflight ⊢
    cases hflight
    exact ⟨rfl, rfl⟩
  · exact ⟨hattempts id r hr ▸ List.count_pos_iff.2 hm, (hq.records id r hr).attempts⟩
  · have hpos := List.count_pos_iff.2 hm
    rw [hattempts id r hr, h0] at hpos
    exact Nat.lt_irrefl 0 hpos

/-! ### The worker at its boundaries -/

/-- The boundary that the loop is at or runs on to. -/
def toWorker (w : DrainLoop T R) : Worker T R :=
  match w.drains with
  | [.processing job] => ⟨w.queue, some job⟩
  | [.returned] => Worker.drain w.queue
  | _ => ⟨w.queue, none⟩

theorem takeJob_worker (w : DrainLoop T R) :
    (∃ q', w.takeJob = ({ w with queue := q' }, none) ∧ Worker.drain w.queue = ⟨q', none⟩) ∨
      ∃ q' job, w.takeJob = ({ w with queue := q', started := w.started ++ [job] }, some (.processing job)) ∧
        Worker.drain w.queue = ⟨q', some job⟩ := by
  unfold takeJob Worker.drain
  rcases w.queue.claim with ⟨q', _ | job⟩
  · exact .inl ⟨q', rfl, rfl⟩
  · exact .inr ⟨q', job.id, rfl, rfl⟩

theorem drain_enqueue {data : T} (h : QueueInv q none) (hq : q.enqueue id data = .ok q') :
    (Worker.drain q).enqueue id data = .ok (Worker.drain q') := by
  rcases Worker.drain_cases h with ⟨-, hd⟩ | ⟨job, rest, r, hp, hr, -, -, -⟩
  · rw [hd, Worker.enqueue, hq, Checks.ok_bind]
    rfl
  · have hjob : job ≠ "" := id_of_get hr ▸ (h.records job r hr).nonempty
    obtain ⟨q₁, q₁', hc, hc', henq⟩ := claim_enqueue hp hjob hr hq
    have hd : Worker.drain q = ⟨q₁, some (start r).id⟩ := by rw [Worker.drain, hc]
    have hd' : Worker.drain q' = ⟨q₁', some (start r).id⟩ := by rw [Worker.drain, hc']
    rw [hd, hd', Worker.enqueue, henq, Checks.ok_bind]
    rfl

theorem Inv.refines_enqueue {data : T} (h : Inv [] cur w) :
    (DrainLoop.step w (.enqueue id data)).toWorker = Worker.step w.toWorker (.enqueue id data) := by
  obtain ⟨q, p, ds, started⟩ := w
  have hflight : Flight [] p ds cur := h.flight
  rcases hq : q.enqueue id data with err | q'
  · have hm : id ∈ q.records.map (·.id) := by
      by_contra hn
      rw [enqueue_eq_ok.2 ⟨Keyed.find_eq_none_iff.2 hn, rfl⟩] at hq
      cases hq
    have hids : (toWorker ⟨q, p, ds, started⟩).queue.records.map (·.id) = q.records.map (·.id) := by
      cases hflight with
      | idle | processing | threw => rfl
      | returned => exact Worker.drain_ids h.queue
    obtain ⟨err', he⟩ := (Worker.enqueue_error data).2 (hids ▸ hm)
    rw [DrainLoop.step, DrainLoop.enqueue, hq, Worker.step, he]
    rfl
  · have hw : DrainLoop.enqueue ⟨q, p, ds, started⟩ id data = .ok (DrainLoop.drain ⟨q', p, ds, started⟩) := by
      rw [DrainLoop.enqueue, hq]
      rfl
    rw [DrainLoop.step, hw, Worker.step]
    dsimp only
    cases hflight with
    | idle =>
      have he : Worker.enqueue (toWorker ⟨q, false, [], started⟩) id data = .ok (Worker.drain q') := by
        rw [toWorker, Worker.enqueue, hq]
        rfl
      rw [he, DrainLoop.drain, if_neg Bool.false_ne_true]
      rcases takeJob_worker ⟨q', false, [], started⟩ with ⟨q₁, ht, hd⟩ | ⟨q₁, job, ht, hd⟩
      · rw [ht, show Worker.drain q' = _ from hd]
        rfl
      · rw [ht, show Worker.drain q' = _ from hd]
        rfl
    | processing job =>
      have he : Worker.enqueue (toWorker ⟨q, true, [.processing job], started⟩) id data = .ok ⟨q', some job⟩ := by
        rw [toWorker, Worker.enqueue, hq]
        rfl
      rw [he]
      rfl
    | returned =>
      have he : Worker.enqueue (toWorker ⟨q, true, [.returned], started⟩) id data = .ok (Worker.drain q') :=
        drain_enqueue h.queue hq
      rw [he]
      rfl
    | threw hs => exact absurd rfl hs

/-- An event is one of the worker's, or none. -/
theorem Inv.refines {e : Event T R} (h : Inv [] cur w) (he : e.NonEmpty) (hp : e.Printable) :
    (DrainLoop.step w e).toWorker = w.toWorker ∨
      ∃ e' : Worker.Event T R, e'.NonEmpty ∧ (DrainLoop.step w e).toWorker = Worker.step w.toWorker e' := by
  cases e with
  | enqueue id data => exact .inr ⟨.enqueue id data, he, h.refines_enqueue⟩
  | drain =>
    refine .inl ?_
    obtain ⟨q, p, ds, started⟩ := w
    have hflight : Flight [] p ds cur := h.flight
    cases hflight with
    | idle =>
      rw [DrainLoop.step, DrainLoop.drain, if_neg Bool.false_ne_true, takeJob, QueueInv.claim_none (h.idle rfl rfl)]
    | processing | returned | threw => rfl
  | resume i =>
    refine .inl ?_
    obtain ⟨q, p, ds, started⟩ := w
    have hflight : Flight [] p ds cur := h.flight
    rcases i with _ | i
    · cases hflight with
      | idle | processing => rfl
      | threw hs => exact absurd rfl hs
      | returned =>
        rw [DrainLoop.step, DrainLoop.resume]
        dsimp only [List.getElem?_cons_zero]
        rcases takeJob_worker ⟨q, true, [.returned], started⟩ with ⟨q', ht, hd⟩ | ⟨q', job, ht, hd⟩
        · rw [ht]
          exact hd.symm
        · rw [ht]
          exact hd.symm
    · cases hflight with
      | idle | processing | returned | threw => rfl
  | processOne i outcome =>
    obtain ⟨q, p, ds, started⟩ := w
    have hflight : Flight [] p ds cur := h.flight
    rcases i with _ | i
    · cases hflight with
      | idle | returned | threw => exact .inl rfl
      | processing job =>
        rcases outcome with (err | _) | result
        · exact .inr ⟨.settle (.error err), trivial, rfl⟩
        · exact hp.elim
        · exact .inr ⟨.settle (.ok result), trivial, rfl⟩
    · cases hflight with
      | idle | processing | returned | threw => exact .inl rfl

theorem run_refines {events : List (Event T R)} (he : ∀ e ∈ events, e.NonEmpty) (hp : ∀ e ∈ events, e.Printable) :
    ∃ es : List (Worker.Event T R), (∀ e ∈ es, e.NonEmpty) ∧
      (Runs.run step init events).toWorker = Runs.run Worker.step Worker.init es := by
  induction events using List.reverseRecOn with
  | nil => exact ⟨[], fun e he => absurd he List.not_mem_nil, rfl⟩
  | append_singleton events e ih =>
    obtain ⟨he₁, he₂⟩ := List.forall_mem_append.1 he
    obtain ⟨hp₁, hp₂⟩ := List.forall_mem_append.1 hp
    obtain ⟨es, hes, hw⟩ := ih he₁ hp₁
    obtain ⟨stuck, cur, h⟩ := Inv.init.run he₁
    have hinv := h.inv
    rw [h.eq hp₁] at hinv
    rw [Runs.run_concat]
    rcases hinv.refines (he₂ e (List.mem_singleton_self e)) (hp₂ e (List.mem_singleton_self e)) with hr | ⟨e', hne, hr⟩
    · exact ⟨es, hes, hr.trans hw⟩
    · refine ⟨es ++ [e'], List.forall_mem_append.2 ⟨hes, List.forall_mem_singleton.2 hne⟩, ?_⟩
      rw [Runs.run_concat, hr, hw]

/-- Over every run in which whatever `process()` throws has a string form. -/
theorem queue_representation {events : List (Event T R)} (he : ∀ e ∈ events, e.NonEmpty)
    (hp : ∀ e ∈ events, e.Printable) :
    Represents (Runs.run step init events) ∧
    (∀ id data, .enqueue id data ∈ events → ∃ r, (Runs.run step init events).queue.get id = some r) ∧
    ∀ later : List (Event T R), (∀ e ∈ later, e.NonEmpty) → ∀ id r, (Runs.run step init events).queue.get id = some r →
      r.status.Terminal → (Runs.run step init (events ++ later)).queue.get id = some r := by
  obtain ⟨stuck, cur, h⟩ := Inv.init.run he
  refine ⟨?_, fun id data hm => get_of_mem he hm, ?_⟩
  · have hinv := h.inv
    rw [h.eq hp] at hinv
    exact hinv.represents
  · intro later hl id r hr ht
    obtain ⟨stuck', cur', h'⟩ := h.inv.run hl
    obtain ⟨r', hr', -, -, hkeep⟩ := h'.later.keeps id r hr
    rw [Runs.run_append, hr', hkeep ht]

namespace SampleDrain

def twoJobs : List (Event Unit Unit) :=
  [.enqueue "a" (), .enqueue "b" (), .processOne 0 (.ok ()), .resume 0,
    .processOne 0 (.error (.error (.other "timeout"))), .resume 0]

/-- The first job throws a value without a string form. -/
def threwNoString : List (Event Unit Unit) :=
  [.enqueue "a" (), .enqueue "b" (), .processOne 0 (.error .noString), .resume 0]

end SampleDrain

open SampleDrain in
theorem queue_representation_sample :
    (∀ e ∈ twoJobs, e.NonEmpty) ∧ (∀ e ∈ twoJobs, e.Printable) ∧ Represents (Runs.run step init twoJobs) ∧
    (Runs.run step init twoJobs).started = ["a", "b", "b"] := by
  have he : ∀ e ∈ twoJobs, e.NonEmpty := by simp [twoJobs, Event.NonEmpty]
  have hp : ∀ e ∈ twoJobs, e.Printable := by simp [twoJobs, Event.Printable]
  exact ⟨he, hp, (queue_representation he hp).1, by decide +kernel⟩

open SampleDrain in
/-- Its record stays `processing` and the other job waits, while no `drain` runs. -/
theorem stuck_without_string :
    (∀ e ∈ threwNoString, e.NonEmpty) ∧ (Runs.run step init threwNoString).isProcessing = false ∧
    ((Runs.run step init threwNoString).queue.get "a").map (·.status) = some .processing ∧
    (Runs.run step init threwNoString).queue.pending = ["b"] ∧ ¬ Represents (Runs.run step init threwNoString) := by
  have hidle : (Runs.run step init threwNoString).isProcessing = false := by decide +kernel
  have hpending : (Runs.run step init threwNoString).queue.pending = ["b"] := by decide +kernel
  refine ⟨by simp [threwNoString, Event.NonEmpty], hidle, by decide +kernel, hpending, ?_⟩
  intro h
  have hnil := h.idle hidle
  rw [hpending] at hnil
  cases hnil

end DrainLoop
end InfraVeritas
