import InfraVeritas.Pipeline

/-!
# What the queue records and what V3 accepted

`Inv` holds in every state of every run: a transaction belongs to its job, V3's log has what its receipt says,
no job is accepted twice, and only accepted jobs complete. The converse needs that the worker learns of every
acceptance: `Tracked` is kept by the events that are `NotLost`, and an acceptance lost once is lost for good
(`Lost`), since every later attempt finds its session key used.
-/

namespace InfraVeritas
open Checks

namespace V3
variable {keccak : Bytes → Bytes32} {s : V3State} {pi : PublicInputs}

structure Recorded (keccak : Bytes → Bytes32) (s : V3State) (pi : PublicInputs) : Prop where
  used : s.usedSessionKeys (sessionKey keccak pi.deviceId pi.sessionId) = true
  logged : ∃ e ∈ proofs s, IsEventOf keccak pi.deviceId pi.sessionId e

theorem Recorded.of_accepted : Recorded keccak (accepted keccak s pi) pi := by
  refine ⟨Function.update_self .., eventOf keccak s pi, ?_, isEventOf_eventOf pi⟩
  rw [proofs_accepted]
  simp

theorem Recorded.accepted {pi' : PublicInputs} (h : Recorded keccak s pi) :
    Recorded keccak (accepted keccak s pi') pi := by
  refine ⟨?_, ?_⟩
  · show Function.update s.usedSessionKeys _ true _ = true
    rw [Function.update_apply]
    split
    · rfl
    · exact h.used
  · obtain ⟨e, he, hev⟩ := h.logged
    rw [proofs_accepted]
    exact ⟨e, List.mem_append_left _ he, hev⟩

theorem Recorded.exec (h : Recorded keccak s pi) (t : Tx) : Recorded keccak (exec keccak s t) pi := by
  rcases @exec_cases keccak s t with ⟨a, -, -, he, -⟩ | ⟨-, he⟩
  · rw [he]; exact h.accepted
  · refine ⟨he.used ▸ h.used, ?_⟩
    rw [he.proofs]
    exact h.logged

end V3

namespace Pipeline
open InMemoryQueue

/-- V3 has accepted a transaction sent for the job. -/
def Accepted (p : Pipeline) (id : String) : Prop := ∃ (h : Nat) (t : SentTx), p.txs[h]? = some t ∧ t.job = id ∧ t.status = .success

/-- The queue's final states against V3's acceptances. -/
structure Agreement (cfg : Config) (p : Pipeline) : Prop where
  complete_iff : ∀ id r, p.worker.queue.get id = some r → r.status.Terminal → (r.status = .complete ↔ Accepted p id)
  notGivenUp : ∀ id r, p.worker.queue.get id = some r → Accepted p id → r.status ≠ .quarantined ∧ r.status ≠ .failed
  once : ∀ (h h' : Nat) (t t' : SentTx), p.txs[h]? = some t → p.txs[h']? = some t' → t.status = .success → t'.status = .success →
    t.job = t'.job → h = h'
  logged : ∀ (h : Nat) (t : SentTx), p.txs[h]? = some t → t.status = .success →
    ∃ e ∈ V3.proofs p.chain, V3.IsEventOf cfg.keccak t.args.pubInputs.deviceId t.args.pubInputs.sessionId e

structure Inv (cfg : Config) (p : Pipeline) : Prop where
  worker : p.worker.Inv
  simulating : ∀ a, p.phase = .simulating (some a) →
    ∃ id r, p.worker.current = some id ∧ p.worker.queue.get id = some r ∧ SentFor r.data a
  inHand : ∀ h, p.phase.txHash = some h → ∃ t : SentTx, p.txs[h]? = some t ∧ p.worker.current = some t.job
  validating : ∀ result, p.phase = .validating result → ∃ t : SentTx, p.txs[result.txHash]? = some t ∧ t.status = .success
  sent : ∀ (h : Nat) (t : SentTx), p.txs[h]? = some t → ∃ r, p.worker.queue.get t.job = some r ∧ SentFor r.data t.args
  recorded : ∀ (h : Nat) (t : SentTx), p.txs[h]? = some t → t.status = .success → V3.Recorded cfg.keccak p.chain t.args.pubInputs
  once : ∀ (h h' : Nat) (t t' : SentTx), p.txs[h]? = some t → p.txs[h']? = some t' → t.status = .success → t'.status = .success →
    t.job = t'.job → h = h'
  complete : ∀ id r, p.worker.queue.get id = some r → r.status = .complete → Accepted p id

/-- Every acceptance is known to the queue, or about to be. -/
def Tracked (p : Pipeline) : Prop :=
  ∀ (h : Nat) (t : SentTx), p.txs[h]? = some t → t.status = .success →
    (∃ r, p.worker.queue.get t.job = some r ∧ r.status = .complete) ∨ p.phase.txHash = some h

variable {cfg : Config} {p p' : Pipeline} {e : Event}

/-! ### `Inv` -/

theorem Inv.init (chain : V3State) : Inv cfg (init chain) := by
  refine ⟨Worker.Inv.init, ?_, ?_, ?_, ?_, ?_, ?_, ?_⟩
  · intro a h; cases h
  · intro h hs; cases hs
  · intro result h; cases h
  · intro h t ht; cases ht
  · intro h t ht; cases ht
  · intro h h' t t' ht; cases ht
  · intro id r hr; cases hr

theorem Inv.worker_step {worker : Worker SubmissionJob SubmissionResult} {phase : Phase} (h : Inv cfg p)
    (hw : worker.Inv) (hk : Keeps p.worker.queue worker.queue)
    (hc : ∀ id r, worker.queue.get id = some r → r.status = .complete →
      p.worker.queue.get id = some r ∨ Accepted p id)
    (hphase : phase = .preparing ∨ phase = p.phase ∧ (worker.current = p.worker.current ∨ p.worker.current = none)) :
    Inv cfg { p with worker := worker, phase := phase } := by
  refine ⟨hw, fun a ha => ?_, fun i hi => ?_, fun result hr => ?_, fun i t ht => ?_, h.recorded, h.once,
    fun id r hr hs => ?_⟩
  · rcases hphase with hp | ⟨hp, hcur⟩
    · cases hp.symm.trans ha
    · obtain ⟨id, r, hid, hr, hsent⟩ := h.simulating a (hp.symm.trans ha)
      obtain ⟨r', hr', hd, -⟩ := hk id r hr
      rcases hcur with hcur | hcur
      · exact ⟨id, r', hcur.trans hid, hr', hd ▸ hsent⟩
      · cases hcur.symm.trans hid
  · rcases hphase with rfl | ⟨rfl, hcur⟩
    · cases hi
    · obtain ⟨t, ht, hid⟩ := h.inHand i hi
      rcases hcur with hcur | hcur
      · exact ⟨t, ht, hcur.trans hid⟩
      · cases hcur.symm.trans hid
  · rcases hphase with hp | ⟨hp, -⟩
    · cases hp.symm.trans hr
    · exact h.validating result (hp.symm.trans hr)
  · obtain ⟨r, hr, hsent⟩ := h.sent i t ht
    obtain ⟨r', hr', hd, -⟩ := hk t.job r hr
    exact ⟨r', hr', hd ▸ hsent⟩
  · rcases hc id r hr hs with hr' | ha
    · exact h.complete id r hr' hs
    · exact ha

theorem Inv.enqueue {id : String} {data : SubmissionJob} {worker : Worker SubmissionJob SubmissionResult}
    (h : Inv cfg p) (hid : id ≠ "") (hw : p.worker.enqueue id data = .ok worker) :
    Inv cfg { p with worker := worker } := by
  refine h.worker_step (h.worker.enqueue hid hw) (Worker.enqueue_keeps h.worker hid hw)
    (fun id' r hr hs => .inl (Worker.enqueue_complete h.worker hid hw hr hs)) (.inr ⟨rfl, ?_⟩)
  obtain ⟨q, -, -, ⟨rfl, -⟩ | ⟨-, hc⟩⟩ := Worker.enqueue_cases h.worker hid hw
  · exact .inl rfl
  · exact .inr hc

theorem Inv.settle {outcome : Except WorkerError SubmissionResult} (h : Inv cfg p)
    (ho : ∀ id result, p.worker.current = some id → outcome = .ok result → Accepted p id) :
    Inv cfg (p.settle outcome) := by
  refine h.worker_step h.worker.settle (Worker.settle_keeps h.worker) (fun id r hr hs => ?_) (.inl rfl)
  rcases Worker.settle_complete h.worker hr hs with hr' | ⟨hc, result, hok⟩
  · exact .inl hr'
  · exact .inr (ho id result hc hok)

theorem getElem?_append_pending {txs : List SentTx} {job : String} {a : SubmitArgs} {h : Nat} {t : SentTx}
    (ht : (txs ++ [⟨job, a, .pending⟩])[h]? = some t) :
    txs[h]? = some t ∨ h = txs.length ∧ t = ⟨job, a, .pending⟩ := by
  rcases lt_trichotomy h txs.length with hlt | rfl | hgt
  · rw [List.getElem?_append_left hlt] at ht
    exact .inl ht
  · rw [List.getElem?_concat_length, Option.some.injEq] at ht
    exact .inr ⟨rfl, ht.symm⟩
  · rw [List.getElem?_eq_none (by rw [List.length_append, List.length_singleton]; omega)] at ht
    cases ht

theorem Accepted.append {id : String} (h : Accepted p id) (t : SentTx) (phase : Phase) :
    Accepted { p with phase := phase, txs := p.txs ++ [t] } id := by
  obtain ⟨i, t', ht, hjob, hs⟩ := h
  exact ⟨i, t', (List.getElem?_append_left (List.getElem?_eq_some_iff.1 ht).1).trans ht, hjob, hs⟩

theorem Inv.signed {a : SubmitArgs} {job : String} (h : Inv cfg p) (hphase : p.phase = .simulating (some a))
    (hcur : p.worker.current = some job) :
    Inv cfg { p with phase := .writing p.txs.length, txs := p.txs ++ [⟨job, a, .pending⟩] } := by
  obtain ⟨id, r, hid, hr, hsent⟩ := h.simulating a hphase
  obtain rfl : id = job := Option.some.inj (hid.symm.trans hcur)
  have hold {i : Nat} {t : SentTx} (ht : (p.txs ++ [⟨id, a, .pending⟩])[i]? = some t) (hs : t.status = .success) :
      p.txs[i]? = some t := by
    rcases getElem?_append_pending ht with ht | ⟨-, rfl⟩
    · exact ht
    · cases hs
  refine ⟨h.worker, fun a' ha' => (by cases ha'), fun i hi => ?_, fun result hr' => (by cases hr'), fun i t ht => ?_,
    fun i t ht hs => h.recorded i t (hold ht hs) hs,
    fun i i' t t' ht ht' hs hs' => h.once i i' t t' (hold ht hs) (hold ht' hs') hs hs', fun id' r' hr' hs => ?_⟩
  · obtain rfl := Option.some.inj hi
    exact ⟨⟨id, a, .pending⟩, List.getElem?_concat_length, hcur⟩
  · rcases getElem?_append_pending ht with ht | ⟨-, rfl⟩
    · exact h.sent i t ht
    · exact ⟨r, hr, hsent⟩
  · exact (h.complete id' r' hr' hs).append _ _

theorem getElem?_set_cases {txs : List SentTx} {h i : Nat} {t t₀ t₁ : SentTx} (h₀ : txs[h]? = some t₀)
    (ht : (txs.set h t₁)[i]? = some t) : i = h ∧ t = t₁ ∨ i ≠ h ∧ txs[i]? = some t := by
  by_cases hi : i = h
  · subst hi
    rw [List.getElem?_set_self (List.getElem?_eq_some_iff.1 h₀).1, Option.some.injEq] at ht
    exact .inl ⟨rfl, ht.symm⟩
  · rw [List.getElem?_set_ne (Ne.symm hi)] at ht
    exact .inr ⟨hi, ht⟩

theorem getElem?_set_of {txs : List SentTx} {h i : Nat} {t t₀ : SentTx} (t₁ : SentTx) (h₀ : txs[h]? = some t₀)
    (ht : txs[i]? = some t) : (txs.set h t₁)[i]? = some (if i = h then t₁ else t) := by
  split
  · next hi => rw [hi, List.getElem?_set_self (List.getElem?_eq_some_iff.1 h₀).1]
  · next hi => rw [List.getElem?_set_ne (Ne.symm hi), ht]

theorem Inv.set_status {h : Nat} {job : String} {args : SubmitArgs} {status : TxStatus} {chain : V3State}
    (hp : Inv cfg p) (h₀ : p.txs[h]? = some ⟨job, args, .pending⟩)
    (hrec : ∀ (i : Nat) (t : SentTx), p.txs[i]? = some t → t.status = .success → V3.Recorded cfg.keccak chain t.args.pubInputs)
    (hnew : status = .success → V3.Recorded cfg.keccak chain args.pubInputs ∧
      ∀ (i : Nat) (t : SentTx), p.txs[i]? = some t → t.status = .success → t.job ≠ job) :
    Inv cfg { p with chain := chain, txs := p.txs.set h ⟨job, args, status⟩ } := by
  have hold {i : Nat} {t : SentTx} (ht : p.txs[i]? = some t) (hs : t.status = .success) :
      (p.txs.set h ⟨job, args, status⟩)[i]? = some t := by
    rw [getElem?_set_of _ h₀ ht, if_neg fun hi => ?_]
    rw [hi, h₀, Option.some.injEq] at ht
    subst ht
    cases hs
  refine ⟨hp.worker, hp.simulating, fun i hi => ?_, fun result hr => ?_, fun i t ht => ?_, fun i t ht hs => ?_,
    fun i i' t t' ht ht' hs hs' hjob => ?_, fun id r hr hs => ?_⟩
  · obtain ⟨t, ht, hcur⟩ := hp.inHand i hi
    refine ⟨_, getElem?_set_of _ h₀ ht, ?_⟩
    split
    · next hi' =>
      rw [hi', h₀, Option.some.injEq] at ht
      subst ht
      exact hcur
    · exact hcur
  · obtain ⟨t, ht, hs⟩ := hp.validating result hr
    exact ⟨t, hold ht hs, hs⟩
  · rcases getElem?_set_cases h₀ ht with ⟨rfl, rfl⟩ | ⟨-, ht⟩
    · have hsent := hp.sent i _ h₀
      exact hsent
    · exact hp.sent i t ht
  · rcases getElem?_set_cases h₀ ht with ⟨rfl, rfl⟩ | ⟨-, ht⟩
    · exact (hnew hs).1
    · exact hrec i t ht hs
  · rcases getElem?_set_cases h₀ ht with ⟨hi, rfl⟩ | ⟨-, ho⟩
    · rcases getElem?_set_cases h₀ ht' with ⟨hi', -⟩ | ⟨-, ho'⟩
      · exact hi.trans hi'.symm
      · exact absurd hjob.symm ((hnew hs).2 i' t' ho' hs')
    · rcases getElem?_set_cases h₀ ht' with ⟨-, rfl⟩ | ⟨-, ho'⟩
      · exact absurd hjob ((hnew hs').2 i t ho hs)
      · exact hp.once i i' t t' ho ho' hs hs' hjob
  · obtain ⟨i, t, ht, hjob, hst⟩ := hp.complete id r hr hs
    exact ⟨i, t, hold ht hst, hjob, hst⟩

/-- Two transactions for one job share their session key, and V3 accepts no key twice. -/
theorem Inv.not_accepted_before {h : Nat} {job : String} {args : SubmitArgs} {env : Env} (hp : Inv cfg p)
    (h₀ : p.txs[h]? = some ⟨job, args, .pending⟩) (ha : V3.Accepts cfg.keccak env p.chain args) :
    ∀ (i : Nat) (t : SentTx), p.txs[i]? = some t → t.status = .success → t.job ≠ job := by
  intro i t ht hs hjob
  obtain ⟨r, hr, hsent⟩ := hp.sent i t ht
  obtain ⟨r', hr', hsent'⟩ := hp.sent h _ h₀
  rw [hjob] at hr
  obtain rfl : r = r' := Option.some.inj (hr.symm.trans hr')
  have hused := (hp.recorded i t ht hs).used
  rw [hsent.sessionKey_eq cfg hsent', ha.unused] at hused
  cases hused

theorem Inv.step (h : Inv cfg p) (he : e.NonEmpty) (hs : Step cfg p e p') : Inv cfg p' := by
  cases hs with
  | skip => exact h
  | enqueue hw => exact h.enqueue he hw
  | prepared hphase hjob hargs =>
    rename_i tools job args
    obtain ⟨id, hid, hr⟩ := Option.bind_eq_some_iff.1 hjob
    refine { h with simulating := fun a ha => ?_, inHand := fun i hi => ?_, validating := fun r hr => ?_ }
    · obtain rfl := Phase.simulating.inj ha
      exact ⟨id, job, hid, hr, hargs a rfl⟩
    · cases hi
    · cases hr
  | signed hphase hcur => exact h.signed hphase hcur
  | written hphase =>
    refine { h with simulating := fun a ha => ?_, inHand := fun i hi => h.inHand i ?_, validating := fun r hr => ?_ }
    · cases ha
    · rw [hphase]; exact hi
    · cases hr
  | included hphase ht hst =>
    refine { h with simulating := fun a ha => ?_, inHand := fun i hi => h.inHand i ?_, validating := fun r hr => ?_ }
    · cases ha
    · rw [hphase]; exact hi
    · obtain rfl := Phase.validating.inj hr
      exact ⟨_, ht, hst⟩
  | failed => exact h.settle fun id result _ hr => by cases hr
  | completed hphase =>
    rename_i result
    refine h.settle ?_
    intro id result' hid _
    obtain ⟨t, ht, hst⟩ := h.validating result hphase
    obtain ⟨t', ht', hcur⟩ := h.inHand result.txHash (by rw [hphase]; rfl)
    obtain rfl : t = t' := Option.some.inj (ht.symm.trans ht')
    exact ⟨_, t, ht, Option.some.inj (hcur.symm.trans hid), hst⟩
  | accepted ht ha =>
    exact h.set_status ht (fun i t ht hs => (h.recorded i t ht hs).accepted)
      fun _ => ⟨V3.Recorded.of_accepted, h.not_accepted_before ht ha⟩
  | reverted ht => exact h.set_status ht h.recorded fun hs => by cases hs
  | external => exact { h with recorded := fun i t ht hs => (h.recorded i t ht hs).exec _ }

theorem Inv.run {events : List Event} (h : Inv cfg p) (he : ∀ e ∈ events, e.NonEmpty) :
    Inv cfg (Runs.run (Pipeline.step cfg) p events) :=
  Runs.run_inv_of_steps h fun x hx hx₁ => hx₁.step (he x.2 (Runs.input_mem _ hx)) (step_spec cfg x.1 x.2)

/-! ### `Tracked` -/

def Completed (p : Pipeline) (id : String) : Prop := ∃ r, p.worker.queue.get id = some r ∧ r.status = .complete

theorem Completed.keep {id : String} {worker : Worker SubmissionJob SubmissionResult}
    (h : Completed p id) (hk : Keeps p.worker.queue worker.queue) (phase : Phase) :
    Completed { p with worker := worker, phase := phase } id := by
  obtain ⟨r, hr, hs⟩ := h
  obtain ⟨r', hr', -, -, ht⟩ := hk id r hr
  exact ⟨r', hr', ht (.inl hs) ▸ hs⟩

theorem Tracked.settle {outcome : Except WorkerError SubmissionResult} (h : Inv cfg p) (ht : Tracked p)
    (ho : ∀ i t, p.phase.txHash = some i → p.txs[i]? = some t → t.status = .success →
      Completed (p.settle outcome) t.job) : Tracked (p.settle outcome) := by
  intro i t hi hs
  rcases ht i t hi hs with hc | hphase
  · exact .inl (Completed.keep hc (Worker.settle_keeps h.worker) _)
  · exact .inl (ho i t hphase hi hs)

theorem Tracked.step (h : Inv cfg p) (ht : Tracked p) (he : e.NonEmpty) (hnl : NotLost cfg p e)
    (hs : Step cfg p e p') : Tracked p' := by
  cases hs with
  | skip => exact ht
  | enqueue hw =>
    intro i t hi hst
    exact (ht i t hi hst).imp_left fun hc => Completed.keep hc (Worker.enqueue_keeps h.worker he hw) p.phase
  | prepared hphase =>
    intro i t hi hst
    refine .inl ((ht i t hi hst).resolve_right fun hx => ?_)
    rw [hphase] at hx
    cases hx
  | signed hphase =>
    intro i t hi hst
    rcases getElem?_append_pending hi with hi | ⟨-, rfl⟩
    · refine .inl ((ht i t hi hst).resolve_right fun hx => ?_)
      rw [hphase] at hx
      cases hx
    · cases hst
  | written hphase =>
    intro i t hi hst
    refine (ht i t hi hst).imp_right fun hx => ?_
    rw [hphase] at hx
    exact hx
  | included hphase =>
    intro i t hi hst
    refine (ht i t hi hst).imp_right fun hx => ?_
    rw [hphase] at hx
    exact hx
  | failed hfail => exact ht.settle h fun i t hx hi hst => absurd hst (hfail hnl i t hx hi)
  | completed hphase =>
    refine ht.settle h ?_
    intro i t hx hi _
    obtain ⟨t', ht', hcur⟩ := h.inHand i hx
    obtain rfl : t = t' := Option.some.inj (hi.symm.trans ht')
    exact Worker.settle_ok h.worker hcur
  | accepted h₀ ha =>
    intro i t hi hst
    rcases getElem?_set_cases h₀ hi with ⟨rfl, rfl⟩ | ⟨-, hi⟩
    · exact .inr (hnl _ h₀ rfl ha)
    · exact ht i t hi hst
  | reverted h₀ =>
    intro i t hi hst
    rcases getElem?_set_cases h₀ hi with ⟨rfl, rfl⟩ | ⟨-, hi⟩
    · cases hst
    · exact ht i t hi hst
  | external => exact ht

theorem Inv.processing {h : Nat} {t : SentTx} (hi : Inv cfg p) (hphase : p.phase.txHash = some h)
    (ht : p.txs[h]? = some t) : ∃ r, p.worker.queue.get t.job = some r ∧ r.status = .processing := by
  obtain ⟨t', ht', hcur⟩ := hi.inHand h hphase
  obtain rfl : t = t' := Option.some.inj (ht.symm.trans ht')
  obtain ⟨r, hr⟩ := hi.worker.queue.current _ hcur
  refine ⟨r, hr, (hi.worker.queue.records _ r hr).processing.2 ?_⟩
  rw [hcur, id_of_get hr]

theorem Tracked.agreement (hi : Inv cfg p) (ht : Tracked p) : Agreement cfg p := by
  have hdone : ∀ id r, p.worker.queue.get id = some r → Accepted p id → r.status = .complete ∨ r.status = .processing := by
    rintro _ r hr ⟨h, t, hget, rfl, hs⟩
    rcases ht h t hget hs with ⟨r', hr', hc⟩ | hphase
    · exact .inl (Option.some.inj (hr.symm.trans hr') ▸ hc)
    · obtain ⟨r', hr', hp⟩ := hi.processing hphase hget
      exact .inr (Option.some.inj (hr.symm.trans hr') ▸ hp)
  refine ⟨fun id r hr hterm => ⟨hi.complete id r hr, fun ha => ?_⟩, fun id r hr ha => ?_, hi.once,
    fun h t hget hs => (hi.recorded h t hget hs).logged⟩
  · refine (hdone id r hr ha).resolve_right fun hp => ?_
    rw [hp] at hterm
    exact absurd hterm (by decide)
  · rcases hdone id r hr ha with hc | hc <;> rw [hc] <;> exact ⟨by decide, by decide⟩

/-! ### Lost acceptances -/

/-- V3 has accepted the transaction, but its job is neither complete nor about to learn of it. -/
def Lost (p : Pipeline) (h : Nat) : Prop :=
  ∃ t, p.txs[h]? = some t ∧ t.status = .success ∧ p.phase.txHash ≠ some h ∧ ¬ Completed p t.job

theorem Lost.settle {h : Nat} {outcome : Except WorkerError SubmissionResult} (hi : Inv cfg p) {t : SentTx}
    (ht : p.txs[h]? = some t) (hs : t.status = .success) (hc : ¬ Completed p t.job)
    (ho : p.worker.current = some t.job → ∀ result, outcome ≠ .ok result) : Lost (p.settle outcome) h := by
  refine ⟨t, ht, hs, fun hx => (by cases hx), fun ⟨r, hr, hst⟩ => ?_⟩
  rcases Worker.settle_complete hi.worker hr hst with hr' | ⟨hcur, result, hok⟩
  · exact hc ⟨r, hr', hst⟩
  · exact ho hcur result hok

theorem Lost.set {h i : Nat} {t₁ : SentTx} {job : String} {args : SubmitArgs} {chain : V3State} (hl : Lost p h)
    (h₀ : p.txs[i]? = some ⟨job, args, .pending⟩) : Lost { p with chain := chain, txs := p.txs.set i t₁ } h := by
  obtain ⟨t, ht, hs, hx, hc⟩ := hl
  refine ⟨t, (getElem?_set_of t₁ h₀ ht).trans (congrArg some (if_neg fun hi => ?_)), hs, hx, hc⟩
  rw [hi, h₀, Option.some.injEq] at ht
  subst ht
  cases hs

theorem Lost.step {h : Nat} (hi : Inv cfg p) (hl : Lost p h) (he : e.NonEmpty) (hs : Step cfg p e p') : Lost p' h := by
  obtain ⟨t, ht, hst, hx, hc⟩ := hl
  cases hs with
  | skip => exact ⟨t, ht, hst, hx, hc⟩
  | enqueue hw =>
    refine ⟨t, ht, hst, hx, fun ⟨r, hr, hr'⟩ => hc ⟨r, ?_, hr'⟩⟩
    exact Worker.enqueue_complete hi.worker he hw hr hr'
  | prepared => exact ⟨t, ht, hst, fun hx' => (by cases hx'), hc⟩
  | signed =>
    have hlt := (List.getElem?_eq_some_iff.1 ht).1
    refine ⟨t, (List.getElem?_append_left hlt).trans ht, hst, fun hx' => ?_, hc⟩
    exact absurd (Option.some.inj hx') (Nat.ne_of_gt hlt)
  | written hphase =>
    rw [hphase] at hx
    exact ⟨t, ht, hst, hx, hc⟩
  | included hphase =>
    rw [hphase] at hx
    exact ⟨t, ht, hst, hx, hc⟩
  | failed => exact Lost.settle hi ht hst hc fun _ result hr => by cases hr
  | completed hphase =>
    refine Lost.settle hi ht hst hc fun hcur _ _ => hx ?_
    -- the completing transaction was accepted too, so it is this one
    rename_i result _ _
    have hx' : p.phase.txHash = some result.txHash := by rw [hphase]; rfl
    obtain ⟨t₁, ht₁, hst₁⟩ := hi.validating result hphase
    obtain ⟨t₂, ht₂, hcur₂⟩ := hi.inHand result.txHash hx'
    obtain rfl : t₁ = t₂ := Option.some.inj (ht₁.symm.trans ht₂)
    rw [hx', hi.once _ _ t₁ t ht₁ ht hst₁ hst (Option.some.inj (hcur₂.symm.trans hcur))]
  | accepted h₀ => exact Lost.set ⟨t, ht, hst, hx, hc⟩ h₀
  | reverted h₀ => exact Lost.set ⟨t, ht, hst, hx, hc⟩ h₀
  | external => exact ⟨t, ht, hst, hx, hc⟩

/-- An event that is not `NotLost` loses an acceptance. -/
theorem lost_of_not (hi : Inv cfg p) (hnl : ¬ NotLost cfg p e) : ∃ h, Lost (Pipeline.step cfg p e) h := by
  have hthrow {h : Nat} {t : SentTx} {err : WorkerError} (hx : p.phase.txHash = some h) (ht : p.txs[h]? = some t)
      (hs : t.status = .success) : Lost (p.settle (.error err)) h := by
    refine Lost.settle hi ht hs (fun ⟨r, hr, hst⟩ => ?_) fun _ result hr => (by cases hr)
    obtain ⟨r', hr', hp⟩ := hi.processing hx ht
    rw [hr, Option.some.injEq] at hr'
    rw [← hr', hst] at hp
    cases hp
  cases e with
  | enqueue | prepared | simulated | external => exact absurd trivial hnl
  | validated r =>
    rcases r with err | _
    · simp only [NotLost, not_forall, ne_eq, not_not] at hnl
      obtain ⟨result, hphase⟩ := hnl
      obtain ⟨t, ht, hs⟩ := hi.validating result hphase
      have hstep : Pipeline.step cfg p (.validated (.error err)) = p.settle (.error err) := by
        simp only [Pipeline.step, hphase]
      exact ⟨result.txHash, hstep ▸ hthrow (by rw [hphase]; rfl) ht hs⟩
    · exact absurd trivial hnl
  | written r =>
    rcases r with err | _
    · simp only [NotLost, not_forall, ne_eq, not_not, exists_prop] at hnl
      obtain ⟨h, t, hphase, ht, hs⟩ := hnl
      have hstep : Pipeline.step cfg p (.written (.error err)) = p.settle (.error (.chain (mapChainError err))) := by
        simp only [Pipeline.step, hphase]
      exact ⟨h, hstep ▸ hthrow (by rw [hphase]; rfl) ht hs⟩
    · exact absurd trivial hnl
  | receipt r =>
    rcases r with message | _
    · simp only [NotLost, not_forall, ne_eq, not_not, exists_prop] at hnl
      obtain ⟨h, t, hphase, ht, hs⟩ := hnl
      have hstep : Pipeline.step cfg p (.receipt (.error message)) = p.settle (.error (.other message)) := by
        simp only [Pipeline.step, hphase]
      exact ⟨h, hstep ▸ hthrow (by rw [hphase]; rfl) ht hs⟩
    · exact absurd trivial hnl
  | mined h env =>
    simp only [NotLost, not_forall, exists_prop] at hnl
    obtain ⟨⟨job, args, status⟩, ht, rfl, ha, hx⟩ := hnl
    have hstep : Pipeline.step cfg p (.mined h env) =
        { p with chain := V3.accepted cfg.keccak p.chain args.pubInputs, txs := p.txs.set h ⟨job, args, .success⟩ } := by
      rw [Pipeline.step, mine, ht]
      dsimp only
      rw [V3.submitProof_eq_ok_iff.2 ⟨ha, rfl⟩]
    rw [hstep]
    refine ⟨h, ⟨job, args, .success⟩, (getElem?_set_of _ ht ht).trans (congrArg some (if_pos rfl)), rfl, hx, ?_⟩
    rintro ⟨r, hr, hs⟩
    obtain ⟨i, t, hti, hjob, hst⟩ := hi.complete _ r hr hs
    exact hi.not_accepted_before ht ha i t hti hst hjob

theorem Tracked.run {events : List Event} (h : Inv cfg p) (ht : Tracked p) (he : ∀ e ∈ events, e.NonEmpty)
    (hnl : ∀ x ∈ Runs.steps (Pipeline.step cfg) p events, NotLost cfg x.1 x.2) :
    Tracked (Runs.run (Pipeline.step cfg) p events) := by
  refine (Runs.run_inv_of_steps (I := fun p => Inv cfg p ∧ Tracked p) ⟨h, ht⟩ fun x hx ⟨hx₁, ht₁⟩ => ?_).2
  have hne := he x.2 (Runs.input_mem _ hx)
  exact ⟨hx₁.step hne (step_spec cfg x.1 x.2), ht₁.step hx₁ hne (hnl x hx) (step_spec cfg x.1 x.2)⟩

theorem Lost.run {events : List Event} {h : Nat} (hi : Inv cfg p) (hl : Lost p h) (he : ∀ e ∈ events, e.NonEmpty) :
    Lost (Runs.run (Pipeline.step cfg) p events) h := by
  refine (Runs.run_inv_of_steps (I := fun p => Inv cfg p ∧ Lost p h) ⟨hi, hl⟩ fun x hx ⟨hx₁, hl₁⟩ => ?_).2
  have hne := he x.2 (Runs.input_mem _ hx)
  exact ⟨hx₁.step hne (step_spec cfg x.1 x.2), hl₁.step hx₁ hne (step_spec cfg x.1 x.2)⟩

/-- In a run that loses no acceptance the queue agrees with V3 in every state; and an acceptance lost at any
step of a run leaves a job that V3 has accepted and that is not complete, then and ever after. -/
theorem queue_chain_agreement (chain : V3State) {events : List Event} (he : ∀ e ∈ events, e.NonEmpty) :
    ((∀ x ∈ Runs.steps (Pipeline.step cfg) (Pipeline.init chain) events, NotLost cfg x.1 x.2) →
      Agreement cfg (Runs.run (Pipeline.step cfg) (Pipeline.init chain) events)) ∧
    ((∃ x ∈ Runs.steps (Pipeline.step cfg) (Pipeline.init chain) events, ¬ NotLost cfg x.1 x.2) →
      ∃ id r, (Runs.run (Pipeline.step cfg) (Pipeline.init chain) events).worker.queue.get id = some r ∧
        Accepted (Runs.run (Pipeline.step cfg) (Pipeline.init chain) events) id ∧ r.status ≠ .complete) := by
  have h₀ : Inv cfg (Pipeline.init chain) := Inv.init chain
  have hend := h₀.run he
  refine ⟨?_, ?_⟩
  · intro hnl
    have ht₀ : Tracked (Pipeline.init chain) := fun h t ht => by cases ht
    exact (ht₀.run h₀ he hnl).agreement hend
  · rintro ⟨⟨p, e⟩, hx, hnl⟩
    obtain ⟨us, vs, rfl, rfl⟩ := (Runs.mem_steps_iff _).1 hx
    obtain ⟨hus, hevs⟩ := List.forall_mem_append.1 he
    obtain ⟨hne, hvs⟩ := List.forall_mem_cons.1 hevs
    have hp := h₀.run hus
    obtain ⟨h, hl⟩ := lost_of_not hp hnl
    obtain ⟨t, ht, hs, -, hc⟩ := hl.run (hp.step hne (step_spec cfg _ e)) hvs
    rw [Runs.run_append, Runs.run_cons] at hend ⊢
    obtain ⟨r, hr, -⟩ := hend.sent h t ht
    exact ⟨t.job, r, hr, ⟨h, t, ht, rfl, hs⟩, fun hst => hc ⟨r, hr, hst⟩⟩

namespace SampleJobs
open V3.TestChain

def claimed : Pipeline := step config (init SampleJobs.chain) (.enqueue "A" (job 1 100))

def ready : Pipeline := { claimed with phase := .simulating (some (submission 7 1 100)) }

theorem step_claimed : step config claimed (.prepared tools) = ready := step_prepared rfl (by decide +kernel)

theorem after_ready (events : List Event) :
    after (.enqueue "A" (job 1 100) :: .prepared tools :: events) = Runs.run (step config) ready events := by
  rw [after, Runs.run_cons, Runs.run_cons, ← step_claimed, claimed]

def delivered : List Event :=
  .enqueue "A" (job 1 100) :: .prepared tools :: (sign ++ [.mined 0 chainA, .receipt (.ok ()), .validated (.ok ())])

/-- The receipt of a mined transaction gets lost, and the worker tries again. -/
def timeout : List Event :=
  sign ++ [.mined 0 chainA, .receipt (.error "Timed out while waiting for transaction")]

def resubmitted : List Event :=
  .enqueue "A" (job 1 100) :: .prepared tools :: (timeout ++ [.prepared tools, .simulated (.ok chainA)])

end SampleJobs

open SampleJobs V3.TestChain in
theorem queue_chain_agreement_sample :
    (∀ e ∈ delivered, e.NonEmpty) ∧ (after delivered).worker.queue.records.map (·.status) = [.complete] ∧
    Agreement config (after delivered) := by
  have he : ∀ e ∈ delivered, e.NonEmpty := by simp [delivered, sign, Event.NonEmpty]
  refine ⟨he, ?_, (queue_chain_agreement SampleJobs.chain he).1 ?_⟩
  · rw [delivered, after_ready]
    decide +kernel
  · rw [delivered, Runs.steps_cons, Runs.steps_cons, ← claimed, step_claimed]
    simp only [sign, List.cons_append, List.nil_append, Runs.steps_cons, Runs.steps_nil, List.forall_mem_cons,
      List.not_mem_nil, false_implies, implies_true, NotLost, and_true, true_and]
    -- the only acceptance is that of the transaction the worker waits for
    exact fun _ _ _ _ => by decide +kernel

open SampleJobs V3.TestChain in
/-- The job is quarantined although V3 accepted its submission. -/
theorem quarantined_after_accepted :
    (∀ e ∈ resubmitted, e.NonEmpty) ∧
    (after resubmitted).worker.queue.records.map (fun r => (r.id, r.status)) = [("A", .quarantined)] ∧
    (after resubmitted).txs.map (fun t => (t.job, t.status)) = [("A", .success)] ∧
    ¬ Agreement config (after resubmitted) := by
  have hretry : step config (Runs.run (step config) ready timeout) (.prepared tools) =
      { Runs.run (step config) ready timeout with phase := .simulating (some (submission 7 1 100)) } :=
    step_prepared (by decide +kernel) (by decide +kernel)
  have hrun : after resubmitted = step config { Runs.run (step config) ready timeout with
      phase := .simulating (some (submission 7 1 100)) } (.simulated (.ok chainA)) := by
    rw [resubmitted, after_ready, Runs.run_append, Runs.run_cons, hretry, Runs.run_cons, Runs.run_nil]
  obtain ⟨hq, ht⟩ : (after resubmitted).worker.queue.records.map (fun r => (r.id, r.status)) = [("A", .quarantined)] ∧
      (after resubmitted).txs.map (fun t => (t.job, t.status)) = [("A", .success)] := by
    rw [hrun]
    decide +kernel
  refine ⟨by simp [resubmitted, timeout, sign, Event.NonEmpty], hq, ht, ?_⟩
  intro h
  obtain ⟨r, hr, hrr⟩ := List.map_eq_singleton_iff.1 hq
  obtain ⟨t, ht', htt⟩ := List.map_eq_singleton_iff.1 ht
  obtain ⟨hid, hst⟩ := Prod.mk.inj hrr
  obtain ⟨hjob, hs⟩ := Prod.mk.inj htt
  have hget : (after resubmitted).worker.queue.get "A" = some r := by
    refine (Keyed.find_eq_some_iff ?_).2 ⟨?_, hid⟩
    · rw [hr]; exact List.nodup_singleton _
    · rw [hr]; exact List.mem_singleton_self _
  exact (h.notGivenUp "A" r hget ⟨0, t, by rw [ht']; rfl, hjob, hs⟩).1 hst

end Pipeline
end InfraVeritas
