import InfraVeritas.Worker

/-!
# The calls of `drain`

`Worker` runs the loop of `drain` from one `process()` call to the next. Here every call of `drain` stands
at its own `await`, and an event is one synchronous stretch of the program: an `enqueue` with its listener, a
call of `drain`, the end of a `process()` call, the resumption of a `drain`. `handleError` needs a string form
of what was thrown; where there is none it throws itself, the drain ends and its job stays `processing`. The
invariant holds after every run once such jobs are written off, and for the queue as it is where there are none.
-/

namespace InfraVeritas
open InMemoryQueue

inductive Thrown
  | error (err : WorkerError)
  /-- no `ChainSubmissionError`, and reading it as a string throws -/
  | noString
deriving DecidableEq, Repr

/-- Where a call of `drain` waits for its `processOne`. -/
inductive Await
  | processing (job : String)
  | returned
  | threw
deriving DecidableEq, Repr

/-- `started` lists the ids of the `job-start` lines of the log. -/
structure DrainLoop (T R : Type) where
  queue : InMemoryQueue T R
  isProcessing : Bool
  drains : List Await
  started : List String

namespace DrainLoop
variable {T R : Type}

def init : DrainLoop T R := ⟨InMemoryQueue.empty, false, [], []⟩

/-- The head of the loop of `drain`: its next `await`, if it claims a job. -/
def takeJob (w : DrainLoop T R) : DrainLoop T R × Option Await :=
  match w.queue.claim with
  | (q, some job) => ({ w with queue := q, started := w.started ++ [job.id] }, some (.processing job.id))
  | (q, none) => ({ w with queue := q }, none)

def drain (w : DrainLoop T R) : DrainLoop T R :=
  if w.isProcessing then w
  else match w.takeJob with
    | (w, some a) => { w with isProcessing := true, drains := w.drains ++ [a] }
    | (w, none) => w

def enqueue (w : DrainLoop T R) (id : String) (data : T) : Except String (DrainLoop T R) := do
  let q ← w.queue.enqueue id data
  return drain { w with queue := q }

/-- The rest of `processOne`, up to the resumption of its `drain`. -/
def processOne (w : DrainLoop T R) (i : Nat) (outcome : Except Thrown R) : DrainLoop T R :=
  match w.drains[i]? with
  | some (.processing job) => match outcome with
    | .ok result => { w with queue := w.queue.complete job result, drains := w.drains.set i .returned }
    | .error (.error err) => { w with queue := Worker.handleError w.queue job err, drains := w.drains.set i .returned }
    | .error .noString => { w with drains := w.drains.set i .threw }
  | _ => w

/-- A `drain` goes on after its `await`: with the next job, or to its `finally`. -/
def resume (w : DrainLoop T R) (i : Nat) : DrainLoop T R :=
  match w.drains[i]? with
  | some .returned => match w.takeJob with
    | (w, some a) => { w with drains := w.drains.set i a }
    | (w, none) => { w with isProcessing := false, drains := w.drains.eraseIdx i }
  | some .threw => { w with isProcessing := false, drains := w.drains.eraseIdx i }
  | _ => w

inductive Event (T R : Type)
  | enqueue (id : String) (data : T)
  | drain
  | processOne (i : Nat) (outcome : Except Thrown R)
  | resume (i : Nat)

def step (w : DrainLoop T R) : Event T R → DrainLoop T R
  | .enqueue id data => match w.enqueue id data with
    | .ok w' => w'
    | .error _ => w
  | .drain => w.drain
  | .processOne i outcome => w.processOne i outcome
  | .resume i => w.resume i

def Event.NonEmpty : Event T R → Prop
  | .enqueue id _ => id ≠ ""
  | _ => True

/-- Whatever the event throws has a string form. -/
def Event.Printable : Event T R → Prop
  | .processOne _ (.error .noString) => False
  | _ => True

/-! ### Jobs written off -/

def fail (r : JobRecord T R) : JobRecord T R := { r with status := .failed }

def writeOff (ids : List String) (q : InMemoryQueue T R) : InMemoryQueue T R :=
  ids.foldr (fun id q => q.update id fail) q

variable {ids : List String} {q q' : InMemoryQueue T R} {id : String} {w : DrainLoop T R}

theorem fail_id (r : JobRecord T R) : (fail r).id = r.id := rfl

theorem writeOff_cons : writeOff (id :: ids) q = (writeOff ids q).update id fail := rfl

@[simp] theorem pending_writeOff : (writeOff ids q).pending = q.pending := by
  induction ids with
  | nil => rfl
  | cons id ids ih => rw [writeOff_cons, pending_update, ih]

theorem get_writeOff_of_notMem (h : id ∉ ids) : (writeOff ids q).get id = q.get id := by
  induction ids with
  | nil => rfl
  | cons id' ids ih =>
    rw [List.mem_cons, not_or] at h
    rw [writeOff_cons, get_update_ne fail_id h.1, ih h.2]

theorem get_writeOff_of_mem (h : id ∈ ids) : (writeOff ids q).get id = (q.get id).map fail := by
  induction ids with
  | nil => cases h
  | cons id' ids ih =>
    rw [writeOff_cons, get_update fail_id]
    by_cases hm : id ∈ ids
    · rw [ih hm, Option.map_map]
      congr 1
      funext r
      rw [Function.comp_apply]
      split <;> rfl
    · obtain rfl := (List.mem_cons.1 h).resolve_right hm
      simp only [if_true, get_writeOff_of_notMem hm]

theorem update_comm {id' : String} {f g : JobRecord T R → JobRecord T R} (hf : ∀ r, (f r).id = r.id)
    (hg : ∀ r, (g r).id = r.id) (hne : id ≠ id') : (q.update id f).update id' g = (q.update id' g).update id f := by
  simp only [update, Keyed.modify, List.map_map]
  congr 1
  refine List.map_congr_left ?_
  intro r _
  simp only [Function.comp_apply]
  by_cases h : r.id = id
  · have h' : r.id ≠ id' := fun he => hne (h.symm.trans he)
    rw [if_pos h, if_neg h', if_pos h, if_neg (by rw [hf]; exact h')]
  · rw [if_neg h]
    by_cases h' : r.id = id'
    · rw [if_pos h', if_neg (by rw [hg]; exact h)]
    · rw [if_neg h', if_neg h]

theorem writeOff_update {f : JobRecord T R → JobRecord T R} (hf : ∀ r, (f r).id = r.id) (h : id ∉ ids) :
    writeOff ids (q.update id f) = (writeOff ids q).update id f := by
  induction ids with
  | nil => rfl
  | cons id' ids ih =>
    rw [List.mem_cons, not_or] at h
    rw [writeOff_cons, writeOff_cons, ih h.2, update_comm hf fail_id h.1]

theorem writeOff_pending (pending : List String) :
    writeOff ids { q with pending := pending } = { writeOff ids q with pending := pending } := by
  induction ids with
  | nil => rfl
  | cons id ids ih => rw [writeOff_cons, writeOff_cons, ih]; rfl

theorem enqueue_update {data : T} {job : String} {f : JobRecord T R → JobRecord T R} (hf : ∀ r, (f r).id = r.id)
    (hne : id ≠ job) (hq : q.enqueue id data = .ok q') : (q.update job f).enqueue id data = .ok (q'.update job f) := by
  obtain ⟨hnone, rfl⟩ := enqueue_eq_ok.1 hq
  refine enqueue_eq_ok.2 ⟨(get_update_ne hf hne).trans hnone, ?_⟩
  rw [update, update, Keyed.modify_append]
  congr 2
  show [if id = job then _ else _] = _
  rw [if_neg hne]

theorem writeOff_enqueue {data : T} (h : id ∉ ids) (hq : q.enqueue id data = .ok q') :
    (writeOff ids q).enqueue id data = .ok (writeOff ids q') := by
  induction ids with
  | nil => exact hq
  | cons id' ids ih =>
    rw [List.mem_cons, not_or] at h
    exact enqueue_update fail_id h.1 (ih h.2)

theorem writeOff_quarantine {code message : String} (h : id ∉ ids) :
    writeOff ids (q.quarantine id code message) = (writeOff ids q).quarantine id code message :=
  writeOff_update (fun _ => rfl) h

theorem writeOff_fail {code message : String} (h : id ∉ ids) :
    writeOff ids (q.fail id code message) = (writeOff ids q).fail id code message := by
  rw [InMemoryQueue.fail, InMemoryQueue.fail, get_writeOff_of_notMem h]
  split
  · rfl
  · split
    · rw [writeOff_pending, pending_writeOff]
      have hu : writeOff ids (q.update id fun r => { r with error := some ⟨code, message⟩, status := .pending }) = _ :=
        writeOff_update (fun _ => rfl) h
      rw [hu]
    · exact writeOff_update (fun _ => rfl) h

theorem writeOff_handleError {err : WorkerError} (h : id ∉ ids) :
    writeOff ids (Worker.handleError q id err) = Worker.handleError (writeOff ids q) id err := by
  unfold Worker.handleError
  split <;> simp only [writeOff_quarantine h, writeOff_fail h, apply_ite (writeOff ids)]

/-! ### Claims -/

theorem claim_cons {rest : List String} {r : JobRecord T R} (hp : q.pending = id :: rest) (hid : id ≠ "")
    (hget : q.get id = some r) :
    q.claim = (({ q with pending := rest } : InMemoryQueue T R).update id start, some (start r)) := by
  rw [claim, hp]
  simp only [hid, if_false]
  rw [show (({ q with pending := rest } : InMemoryQueue T R).get id) = some r from hget]

/-- An `enqueue` and the claim of a job that waits do not affect each other. -/
theorem claim_enqueue {data : T} {job : String} {rest : List String} {r : JobRecord T R} (hp : q.pending = job :: rest)
    (hjob : job ≠ "") (hr : q.get job = some r) (hq : q.enqueue id data = .ok q') :
    ∃ q₁ q₁', q.claim = (q₁, some (start r)) ∧ q'.claim = (q₁', some (start r)) ∧ q₁.enqueue id data = .ok q₁' := by
  have hpend := pending_enqueue hq
  have hnone := (enqueue_eq_ok.1 hq).1
  have hne : id ≠ job := fun he => by
    rw [he, hr] at hnone
    cases hnone
  have hr' : q'.get job = some r := by rw [get_enqueue hq, if_neg hne.symm, hr]
  have hp' : q'.pending = job :: (rest ++ [id]) := by rw [hpend, hp, List.cons_append]
  refine ⟨_, _, claim_cons hp hjob hr, claim_cons hp' hjob hr', enqueue_update (fun _ => rfl) hne ?_⟩
  refine enqueue_eq_ok.2 ⟨hnone, ?_⟩
  rw [(enqueue_eq_ok.1 hq).2]

theorem takeJob_cases (h : QueueInv (writeOff ids w.queue) none) :
    (w.queue.pending = [] ∧ w.takeJob = (w, none)) ∨
      ∃ id rest r, w.queue.pending = id :: rest ∧ id ∉ ids ∧ w.queue.get id = some r ∧ r.status = .pending ∧
        w.takeJob = ({ w with
          queue := ({ w.queue with pending := rest } : InMemoryQueue T R).update id start
          started := w.started ++ [id] }, some (.processing id)) ∧
        QueueInv (writeOff ids (({ w.queue with pending := rest } : InMemoryQueue T R).update id start)) (some id) := by
  rcases hp : w.queue.pending with _ | ⟨id, rest⟩
  · refine .inl ⟨rfl, ?_⟩
    rw [takeJob, QueueInv.claim_none hp]
  · obtain ⟨r, hget, -, hinv⟩ := h.claim_some (pending_writeOff.trans hp)
    obtain ⟨r', hr', hst⟩ := (h.pending id).1 (by rw [pending_writeOff, hp]; exact List.mem_cons_self ..)
    obtain rfl := Option.some.inj (hget.symm.trans hr')
    have hid : id ∉ ids := fun hm => by
      rw [get_writeOff_of_mem hm] at hget
      obtain ⟨r₀, -, rfl⟩ := Option.map_eq_some_iff.1 hget
      cases hst
    have hne : id ≠ "" := id_of_get hget ▸ (h.records id r hget).nonempty
    rw [get_writeOff_of_notMem hid] at hget
    refine .inr ⟨id, rest, r, rfl, hid, hget, hst, ?_, ?_⟩
    · have hrid : (start r).id = id := (id_of_get hget : r.id = id)
      rw [takeJob, claim_cons hp hne hget]
      dsimp only
      rw [hrid]
    · rwa [writeOff_update (f := start) (fun _ => rfl) hid, writeOff_pending]

/-! ### The invariant -/

/-- `w'` comes after `w`: no record is lost or reopened, the jobs in `stuck` stay as they are, and jobs start in
the order in which they wait. -/
structure Later (stuck : List String) (w w' : DrainLoop T R) : Prop where
  keeps : Keeps w.queue w'.queue
  frozen : ∀ id ∈ stuck, w'.queue.get id = w.queue.get id
  fifo : ∃ more pushed, w'.started = w.started ++ more ∧ w.queue.pending ++ pushed = more ++ w'.queue.pending

variable {stuck : List String} {cur : Option String} {w' w'' : DrainLoop T R}

theorem Later.refl (stuck : List String) (w : DrainLoop T R) : Later stuck w w :=
  ⟨.refl _, fun _ _ => rfl, [], [], (List.append_nil _).symm, List.append_nil _⟩

theorem Later.trans {stuck' : List String} (h : Later stuck w w') (h' : Later stuck' w' w'') (hs : stuck ⊆ stuck') :
    Later stuck w w'' := by
  obtain ⟨more, pushed, hm, hp⟩ := h.fifo
  obtain ⟨more', pushed', hm', hp'⟩ := h'.fifo
  refine ⟨h.keeps.trans h'.keeps, fun id hid => (h'.frozen id (hs hid)).trans (h.frozen id hid), ?_⟩
  refine ⟨more ++ more', pushed ++ pushed', ?_, ?_⟩
  · rw [hm', hm, List.append_assoc]
  · rw [← List.append_assoc, hp, List.append_assoc, hp', List.append_assoc]

/-- The queue and the log, with the jobs `stuck` written off and `cur` in process. -/
structure Core (stuck : List String) (cur : Option String) (w : DrainLoop T R) : Prop where
  queue : QueueInv (writeOff stuck w.queue) cur
  processing : ∀ id ∈ stuck, ∃ r, w.queue.get id = some r ∧ r.status = .processing
  started : ∀ id, w.started.count id = (w.queue.get id).elim 0 (·.attempts)

/-- The flag and the calls of `drain`: one at most, and `cur` is its job. -/
inductive Flight (stuck : List String) : Bool → List Await → Option String → Prop
  | idle : Flight stuck false [] none
  | processing (job : String) : Flight stuck true [.processing job] (some job)
  | returned : Flight stuck true [.returned] none
  | threw (h : stuck ≠ []) : Flight stuck true [.threw] none

structure Inv (stuck : List String) (cur : Option String) (w : DrainLoop T R) : Prop extends Core stuck cur w where
  flight : Flight stuck w.isProcessing w.drains cur
  idle : stuck = [] → w.isProcessing = false → w.queue.pending = []

theorem Inv.init : Inv [] none (DrainLoop.init : DrainLoop T R) :=
  ⟨⟨QueueInv.empty, fun _ h => absurd h List.not_mem_nil, fun _ => rfl⟩, .idle, fun _ _ => rfl⟩

namespace Core

theorem get_current {job : String} (h : Core stuck (some job) w) :
    job ∉ stuck ∧ ∃ r, w.queue.get job = some r ∧ r.status = .processing := by
  obtain ⟨r, hr⟩ := h.queue.current job rfl
  have hproc : r.status = .processing := (h.queue.records job r hr).processing.2 (congrArg some (id_of_get hr).symm)
  have hn : job ∉ stuck := fun hm => by
    rw [get_writeOff_of_mem hm] at hr
    obtain ⟨r₀, -, rfl⟩ := Option.map_eq_some_iff.1 hr
    cases hproc
  rw [get_writeOff_of_notMem hn] at hr
  exact ⟨hn, r, hr, hproc⟩

theorem enqueue {data : T} (h : Core stuck cur w) (hid : id ≠ "") (hq : w.queue.enqueue id data = .ok q) :
    Core stuck cur { w with queue := q } ∧ Later stuck w { w with queue := q } := by
  have hnone := (enqueue_eq_ok.1 hq).1
  have hn : id ∉ stuck := fun hm => by
    obtain ⟨r, hr, -⟩ := h.processing id hm
    rw [hnone] at hr
    cases hr
  have hne (id' : String) (hm : id' ∈ stuck) : q.get id' = w.queue.get id' := by
    have he : id' ≠ id := fun he => hn (he ▸ hm)
    rw [get_enqueue hq, if_neg he]
  refine ⟨⟨h.queue.enqueue hid (writeOff_enqueue hn hq), fun id' hm => ?_, fun id' => ?_⟩,
    .enqueue hq, hne, [], [id], (List.append_nil _).symm, (pending_enqueue hq).symm⟩
  · obtain ⟨r, hr, hs⟩ := h.processing id' hm
    exact ⟨r, (hne id' hm).trans hr, hs⟩
  · rw [h.started, get_enqueue hq]
    split
    · next he => rw [he, hnone]; rfl
    · rfl

theorem take (h : Core stuck none w) : (w.queue.pending = [] ∧ w.takeJob = (w, none)) ∨
    ∃ id q started, w.takeJob = ({ w with queue := q, started := started }, some (.processing id)) ∧
      Core stuck (some id) { w with queue := q, started := started } ∧
      Later stuck w { w with queue := q, started := started } := by
  rcases takeJob_cases h.queue with hp | ⟨id, rest, r, hp, hn, hget, hst, ht, hinv⟩
  · exact .inl hp
  · refine .inr ⟨id, _, _, ht, ?_⟩
    have hne (id' : String) (he : id' ≠ id) :
        (({ w.queue with pending := rest } : InMemoryQueue T R).update id start).get id' = w.queue.get id' :=
      get_update_ne (fun _ => rfl) he
    have hself : (({ w.queue with pending := rest } : InMemoryQueue T R).update id start).get id = some (start r) :=
      get_update_self (fun _ => rfl) hget
    have hfrozen (id' : String) (hm : id' ∈ stuck) := hne id' fun he => hn (he ▸ hm)
    refine ⟨⟨hinv, fun id' hm => ?_, fun id' => ?_⟩, Keeps.of_get hget hself rfl (Nat.le_succ _) ?_ hne, hfrozen,
      [id], [], rfl, ?_⟩
    · obtain ⟨r', hr', hs⟩ := h.processing id' hm
      exact ⟨r', (hfrozen id' hm).trans hr', hs⟩
    · rw [List.count_append, h.started]
      by_cases he : id' = id
      · rw [he, hself, hget, List.count_singleton_self]
        rfl
      · rw [hne id' he, List.count_singleton, if_neg (by simpa using Ne.symm he), Nat.add_zero]
    · rw [hst]; decide
    · rw [List.append_nil]
      exact hp

theorem settle {job : String} {done : Prop} (h : Core stuck (some job) w)
    (hq : Worker.Settled (writeOff stuck w.queue) (writeOff stuck q) job done)
    (ho : ∀ id, id ≠ job → q.get id = w.queue.get id) :
    Core stuck none { w with queue := q } ∧ Later stuck w { w with queue := q } := by
  obtain ⟨hn, r, hr, hproc⟩ := h.get_current
  obtain ⟨r', hr', hd, ha, -⟩ := hq.self r ((get_writeOff_of_notMem hn).trans hr)
  rw [get_writeOff_of_notMem hn] at hr'
  have hfrozen (id : String) (hm : id ∈ stuck) : q.get id = w.queue.get id := ho id fun he => hn (he ▸ hm)
  obtain ⟨pushed, hpush⟩ := hq.pending
  rw [pending_writeOff, pending_writeOff] at hpush
  refine ⟨⟨hq.inv, ?_, ?_⟩, ?_, hfrozen, [], pushed, (List.append_nil _).symm, hpush⟩
  · intro id hm
    obtain ⟨r, hr, hs⟩ := h.processing id hm
    exact ⟨r, (hfrozen id hm).trans hr, hs⟩
  · intro id
    rw [h.started]
    by_cases he : id = job
    · rw [he, hr, hr']
      exact ha.symm
    · rw [ho id he]
  · exact Keeps.of_get hr hr' hd ha.ge (by rw [hproc]; decide) ho

theorem complete {job : String} (h : Core stuck (some job) w) (result : R) :
    Core stuck none { w with queue := w.queue.complete job result } ∧
      Later stuck w { w with queue := w.queue.complete job result } := by
  have hq := Worker.complete_settled result h.queue
  rw [show (writeOff stuck w.queue).complete job result = writeOff stuck (w.queue.complete job result) from
    (writeOff_update (f := fun r => { r with status := .complete, result := some result }) (fun _ => rfl)
      h.get_current.1).symm] at hq
  exact h.settle hq fun id hne => get_update_ne (fun _ => rfl) hne

theorem get_handleError {job : String} {err : WorkerError} (hne : id ≠ job) :
    (Worker.handleError q job err).get id = q.get id := by
  have hquarantine (code message : String) : (q.quarantine job code message).get id = q.get id :=
    get_update_ne (fun _ => rfl) hne
  have hfail (code message : String) : (q.fail job code message).get id = q.get id := by
    unfold InMemoryQueue.fail
    split
    · rfl
    · split
      · exact get_update_ne (fun _ => rfl) hne
      · exact get_update_ne (fun _ => rfl) hne
  unfold Worker.handleError
  split
  · split
    · exact hquarantine ..
    · split <;> exact hfail ..
  · split
    · exact hquarantine ..
    · exact hfail ..

theorem handleError {job : String} (h : Core stuck (some job) w) (err : WorkerError) :
    Core stuck none { w with queue := Worker.handleError w.queue job err } ∧
      Later stuck w { w with queue := Worker.handleError w.queue job err } := by
  have hq := Worker.handleError_settled err h.queue
  rw [← writeOff_handleError h.get_current.1] at hq
  exact h.settle hq fun id hne => get_handleError hne

theorem writeOff {job : String} (h : Core stuck (some job) w) : Core (job :: stuck) none w := by
  obtain ⟨hn, r, hr, hproc⟩ := h.get_current
  refine ⟨?_, List.forall_mem_cons.2 ⟨⟨r, hr, hproc⟩, h.processing⟩, h.started⟩
  refine h.queue.finish ((get_writeOff_of_notMem hn).trans hr) (fun _ => ⟨rfl, rfl⟩) ?_ ?_
  · intro hs; cases hs
  · intro hs; cases hs

end Core

/-- A job whose `process()` call threw a value without a string form is written off. -/
theorem Inv.noString {job : String} (h : Inv stuck (some job) w) (hd : w.drains = [.processing job]) :
    Inv (job :: stuck) none (w.processOne 0 (.error .noString)) := by
  have hcore := h.writeOff
  obtain ⟨q, p, ds, started⟩ := w
  obtain rfl : ds = [.processing job] := hd
  have hf : Flight stuck p [.processing job] (some job) := h.flight
  cases hf
  exact ⟨⟨hcore.queue, hcore.processing, hcore.started⟩, .threw (List.cons_ne_nil _ _), fun hn => (by cases hn)⟩

/-! ### Steps and runs -/

/-- The state after an event: the jobs written off so far, and one more if the event threw without a string
form. -/
structure Stepped (stuck : List String) (w : DrainLoop T R) (printable : Prop) (w' : DrainLoop T R)
    (stuck' : List String) (cur' : Option String) : Prop where
  inv : Inv stuck' cur' w'
  later : Later stuck w w'
  sub : stuck ⊆ stuck'
  eq : printable → stuck' = stuck

theorem Stepped.self {printable : Prop} (h : Inv stuck cur w) : Stepped stuck w printable w stuck cur :=
  ⟨h, .refl stuck w, List.Subset.refl _, fun _ => rfl⟩

theorem Stepped.of_core {printable : Prop} {cur' : Option String} {p : Bool} {ds : List Await}
    (h : Core stuck cur' w' ∧ Later stuck w w') (hf : Flight stuck p ds cur')
    (hidle : p = false → w'.queue.pending = []) :
    Stepped stuck w printable ⟨w'.queue, p, ds, w'.started⟩ stuck cur' :=
  ⟨⟨⟨h.1.queue, h.1.processing, h.1.started⟩, hf, fun _ => hidle⟩, ⟨h.2.keeps, h.2.frozen, h.2.fifo⟩,
    List.Subset.refl _, fun _ => rfl⟩

theorem Inv.drain (h : Inv stuck cur w) : ∃ cur', Stepped stuck w True w.drain stuck cur' := by
  obtain ⟨q, p, ds, started⟩ := w
  have hflight : Flight stuck p ds cur := h.flight
  cases hflight with
  | idle =>
    rw [DrainLoop.drain, if_neg Bool.false_ne_true]
    rcases h.take with ⟨-, ht⟩ | ⟨id, q', started', ht, hcore⟩
    · rw [ht]
      exact ⟨none, .self h⟩
    · rw [ht]
      exact ⟨some id, .of_core hcore (.processing id) fun hf => (by cases hf)⟩
  | processing | returned | threw => exact ⟨_, .self h⟩

theorem Inv.resume (h : Inv stuck cur w) (i : Nat) : ∃ cur', Stepped stuck w True (w.resume i) stuck cur' := by
  obtain ⟨q, p, ds, started⟩ := w
  have hflight : Flight stuck p ds cur := h.flight
  rcases i with _ | i
  · cases hflight with
    | idle | processing => exact ⟨_, .self h⟩
    | returned =>
      rw [DrainLoop.resume]
      dsimp only [List.getElem?_cons_zero]
      rcases h.take with ⟨hp, ht⟩ | ⟨id, q', started', ht, hcore⟩
      · rw [ht]
        exact ⟨none, .of_core ⟨h.toCore, .refl _ _⟩ .idle fun _ => hp⟩
      · rw [ht]
        exact ⟨some id, .of_core hcore (.processing id) fun hf => (by cases hf)⟩
    | threw hs =>
      refine ⟨none, ⟨⟨h.queue, h.processing, h.started⟩, .idle, fun hn => absurd hn hs⟩, ?_, List.Subset.refl _, fun _ => rfl⟩
      exact ⟨.refl _, fun _ _ => rfl, [], [], (List.append_nil _).symm, List.append_nil _⟩
  · cases hflight with
    | idle | processing | returned | threw => exact ⟨_, .self h⟩

theorem Inv.processOne (h : Inv stuck cur w) (i : Nat) (outcome : Except Thrown R) :
    ∃ stuck' cur', Stepped stuck w (outcome ≠ .error .noString) (w.processOne i outcome) stuck' cur' := by
  obtain ⟨q, p, ds, started⟩ := w
  have hflight : Flight stuck p ds cur := h.flight
  rcases i with _ | i
  · cases hflight with
    | idle | returned | threw => exact ⟨_, _, .self h⟩
    | processing job =>
      match outcome with
      | .ok result =>
        exact ⟨stuck, none, .of_core (h.complete result) .returned fun hf => (by cases hf)⟩
      | .error (.error err) =>
        exact ⟨stuck, none, .of_core (h.handleError err) .returned fun hf => (by cases hf)⟩
      | .error .noString =>
        have hcore := h.writeOff
        refine ⟨job :: stuck, none, ⟨⟨hcore.queue, hcore.processing, hcore.started⟩, .threw (List.cons_ne_nil _ _),
          fun hn => (by cases hn)⟩, ?_, List.subset_cons_self .., fun hn => absurd rfl hn⟩
        exact ⟨.refl _, fun _ _ => rfl, [], [], (List.append_nil _).symm, List.append_nil _⟩
  · cases hflight with
    | idle | processing | returned | threw => exact ⟨_, _, .self h⟩

theorem Inv.enqueue {data : T} (h : Inv stuck cur w) (hid : id ≠ "") (he : w.enqueue id data = .ok w') :
    (∃ r, w'.queue.get id = some r) ∧ ∃ cur', Stepped stuck w True w' stuck cur' := by
  obtain ⟨q', hq, hw⟩ := Checks.bind_eq_ok.1 he
  obtain rfl := Checks.pure_eq_ok.1 hw
  obtain ⟨hcore, hlater⟩ := h.toCore.enqueue hid hq
  have hget : q'.get id = some ⟨id, data, .pending, 0, none, none⟩ := by rw [get_enqueue hq, if_pos rfl]
  obtain ⟨q, p, ds, started⟩ := w
  have hflight : Flight stuck p ds cur := h.flight
  cases hflight with
  | idle =>
    rw [DrainLoop.drain, if_neg Bool.false_ne_true]
    rcases hcore.take with ⟨hp, -⟩ | ⟨id', q₁, started₁, ht, hcore₁, hlater₁⟩
    · have hpend : q'.pending = q.pending ++ [id] := pending_enqueue hq
      rw [hpend] at hp
      exact absurd (List.append_eq_nil_iff.1 hp).2 (List.cons_ne_nil _ _)
    · obtain ⟨r, hr, -⟩ := hlater₁.keeps id _ hget
      rw [ht]
      exact ⟨⟨r, hr⟩, some id', .of_core ⟨hcore₁, hlater.trans hlater₁ (List.Subset.refl _)⟩ (.processing id')
        fun hf => (by cases hf)⟩
  | processing job => exact ⟨⟨_, hget⟩, _, .of_core ⟨hcore, hlater⟩ (.processing job) fun hf => (by cases hf)⟩
  | returned => exact ⟨⟨_, hget⟩, _, .of_core ⟨hcore, hlater⟩ .returned fun hf => (by cases hf)⟩
  | threw hs => exact ⟨⟨_, hget⟩, _, .of_core ⟨hcore, hlater⟩ (.threw hs) fun hf => (by cases hf)⟩

theorem Inv.step {e : Event T R} (h : Inv stuck cur w) (he : e.NonEmpty) :
    ∃ stuck' cur', Stepped stuck w e.Printable (step w e) stuck' cur' := by
  have weaken {w' : DrainLoop T R} {cur' : Option String} (hs : Stepped stuck w True w' stuck cur') :
      ∃ stuck' cur', Stepped stuck w e.Printable w' stuck' cur' :=
    ⟨stuck, cur', hs.inv, hs.later, hs.sub, fun _ => hs.eq trivial⟩
  cases e with
  | enqueue id data =>
    rcases hw : w.enqueue id data with err | w'
    · rw [DrainLoop.step, hw]
      exact ⟨stuck, cur, .self h⟩
    · rw [DrainLoop.step, hw]
      obtain ⟨-, cur', hs⟩ := h.enqueue he hw
      exact weaken hs
  | drain =>
    obtain ⟨cur', hs⟩ := h.drain
    exact weaken hs
  | resume i =>
    obtain ⟨cur', hs⟩ := h.resume i
    exact weaken hs
  | processOne i outcome =>
    obtain ⟨stuck', cur', hs⟩ := h.processOne i outcome
    refine ⟨stuck', cur', hs.inv, hs.later, hs.sub, fun hp => hs.eq fun ho => ?_⟩
    rw [ho] at hp
    exact hp

theorem Inv.run {events : List (Event T R)} (h : Inv stuck cur w) (he : ∀ e ∈ events, e.NonEmpty) :
    ∃ stuck' cur', Stepped stuck w (∀ e ∈ events, e.Printable) (Runs.run DrainLoop.step w events) stuck' cur' := by
  induction events generalizing w stuck cur with
  | nil => exact ⟨stuck, cur, .self h⟩
  | cons e events ih =>
    have he' := List.forall_mem_cons.1 he
    obtain ⟨stuck₁, cur₁, h₁⟩ := h.step he'.1
    obtain ⟨stuck₂, cur₂, h₂⟩ := ih h₁.inv he'.2
    refine ⟨stuck₂, cur₂, h₂.inv, h₁.later.trans h₂.later h₁.sub, List.Subset.trans h₁.sub h₂.sub, ?_⟩
    intro hp
    obtain ⟨hp₁, hp₂⟩ := List.forall_mem_cons.1 hp
    exact (h₂.eq hp₂).trans (h₁.eq hp₁)

end DrainLoop
end InfraVeritas
