import InfraVeritas.Agreement
import InfraVeritas.P256

/-!
# The tamper flag on its way to V3

The schema admits the flags 0 and 1, the worker and the circuit pass the flag on, and V3 reads it only to hand
it to the proof verifier. So a submission with the flag set is rejected exactly when one of the checks fails
that every submission has to pass.
-/

namespace InfraVeritas
open Checks

def SubmitArgs.withFlag (a : SubmitArgs) (flag : U64) : SubmitArgs :=
  { a with pubInputs := { a.pubInputs with tamperFlag := flag } }

namespace V3
variable {keccak : Bytes → Bytes32} {env : Env} {s : V3State} {a : SubmitArgs} {flag : U64}

/-- A check fails: one on V3's own state, or one of the three contracts does not answer `true`. -/
def CheckFails (keccak : Bytes → Bytes32) (env : Env) (s : V3State) (a : SubmitArgs) : Prop :=
  ¬ PassesState keccak env s a ∨ registryAnswer env s a ≠ .returned true ∨ p256Answer env s a ≠ .returned true ∨
    honkAnswer env s a ≠ .returned true

theorem accepts_iff_passes : Accepts keccak env s a ↔ PassesState keccak env s a ∧
    registryAnswer env s a = .returned true ∧ p256Answer env s a = .returned true ∧
    honkAnswer env s a = .returned true := by
  constructor
  · intro h
    exact ⟨⟨⟨h.notPaused, h.notEntered, h.operator⟩, ⟨h.signatureLength, h.pubkeyLength⟩, ⟨h.noOverflow, h.epoch⟩,
      h.payloadHash, h.unused, h.later⟩, h.authorized, h.p256, h.honk⟩
  · rintro ⟨h, hr, hp, hh⟩
    exact ⟨h.entered.notPaused, h.entered.notEntered, h.entered.operator, h.sized.signature, h.sized.pubkey,
      h.epochOk.noOverflow, h.epochOk.epoch, h.payloadHash, h.unused, h.later, hr, hp, hh⟩

theorem not_accepts_iff_checkFails : ¬ Accepts keccak env s a ↔ CheckFails keccak env s a := by
  rw [accepts_iff_passes, CheckFails]
  simp only [not_and_or, ne_eq]

theorem rejected_iff_checkFails : (∃ e, submitProof keccak env s a = .error e) ↔ CheckFails keccak env s a :=
  rejected_iff.trans not_accepts_iff_checkFails

/-- No check but the proof verifier's is about the flag. -/
theorem checkFails_withFlag (h : honkAnswer env s (a.withFlag flag) = honkAnswer env s a) :
    CheckFails keccak env s (a.withFlag flag) ↔ CheckFails keccak env s a := by
  have hstate : PassesState keccak env s (a.withFlag flag) ↔ PassesState keccak env s a :=
    ⟨fun ⟨h₁, h₂, h₃, h₄, h₅, h₆⟩ => ⟨h₁, ⟨h₂.1, h₂.2⟩, ⟨h₃.1, h₃.2⟩, h₄, h₅, h₆⟩,
      fun ⟨h₁, h₂, h₃, h₄, h₅, h₆⟩ => ⟨h₁, ⟨h₂.1, h₂.2⟩, ⟨h₃.1, h₃.2⟩, h₄, h₅, h₆⟩⟩
  rw [CheckFails, hstate, h]
  exact Iff.rfl

end V3

/-- The circuit is satisfied by the witness of every payload without negative coordinates, whatever its flag. -/
theorem main_of_prepared {perm : Poseidon.Permutation} {data : SubmissionJob} {w : Prover.WitnessInputs}
    (hd : WellFormed data) (hv : Encodable data.payload) (hlat : 0 ≤ data.payload.lat_e7) (hlon : 0 ≤ data.payload.lon_e7)
    (h : Prover.prepareWitnessInputs perm data.payload data.signature data.pubkey = .ok w) {std : Circuit.Std}
    (hsponge : std.sponge (toFields data.payload.words) = (Poseidon.poseidonSponge perm data.payload.words : Nat))
    (hverify : std.verify_signature (wordBytes (jobStatement perm data).x) (wordBytes (jobStatement perm data).y)
      (jobStatement perm data).signature (wordBytes (jobStatement perm data).hash) = true) :
    ∃ priv : Circuit.Private, priv.canonical_payload = w.canonicalPayload ∧
      Circuit.main std (.ofList w.publicInputs) priv = .ok () := by
  obtain ⟨w', hw', hpub, hcan⟩ := @Encoders.prepareWitnessInputs_spec perm _ _ _ hd.signature hd.pubkey hd.readings
  rw [h, Except.ok.injEq] at hw'
  subst hw'
  obtain ⟨hws, hwx, hwy⟩ := arrays_of_prepareWitnessInputs h
  have hlen : w.canonicalPayload.length = 307 := by
    rw [hcan, toFields, List.length_map, CanonicalPayload.length_words hd.readings]
  let priv : Circuit.Private := ⟨w.canonicalPayload, w.signature, w.pubkey_x, w.pubkey_y, hlen, hws ▸ hd.signature,
    by rw [hwx, List.length_take, hd.pubkey]; rfl, by rw [hwy, List.length_take, List.length_drop, hd.pubkey]; rfl⟩
  have hinputs := (Encoders.canonicalInputs_of_nonneg hv hlat hlon).trans hpub.symm
  rw [Encoders.canonicalInputs, ← hcan, Circuit.take_seven (by rw [hlen]; decide)] at hinputs
  refine ⟨priv, rfl, (main_iff hd h rfl rfl rfl).2 ⟨?_, ?_, hverify, ?_⟩⟩
  · rw [payload_hash_eq hd h, ← hsponge, ← hcan]
  · rw [← hinputs]
    exact Circuit.take_seven (by rw [hlen]; decide)
  · rw [← hinputs]
    show Circuit.totalEnergy w.canonicalPayload = _
    generalize Circuit.totalEnergy w.canonicalPayload = total
    rfl

namespace Pipeline
open InMemoryQueue

/-- The submission that an event runs on V3, and its context. -/
def executed (cfg : Config) (p : Pipeline) : Event → Option (Env × SubmitArgs)
  | .mined txHash env => match p.txs[txHash]? with
    | some ⟨_, args, .pending⟩ => some ({ env with sender := cfg.operatorAddress }, args)
    | _ => none
  | .external ⟨env, .submitProof a⟩ => some (env, a)
  | _ => none

/-- If the event runs a submission with the flag set, V3 rejects it and emits no `ProofSubmitted`. -/
def TamperedRejected (cfg : Config) (p : Pipeline) (e : Event) : Prop :=
  ∀ env a, executed cfg p e = some (env, a) → a.pubInputs.tamperFlag ≠ 0 →
    (∃ err, V3.submitProof cfg.keccak env p.chain a = .error err) ∧
      V3.proofs (step cfg p e).chain = V3.proofs p.chain

/-- If the event runs a submission with the flag set, a check fails that is not about the flag. -/
def TamperedFails (cfg : Config) (p : Pipeline) (e : Event) : Prop :=
  ∀ env a, executed cfg p e = some (env, a) → a.pubInputs.tamperFlag ≠ 0 → V3.CheckFails cfg.keccak env p.chain a

def Untampered (p : Pipeline) : Prop :=
  ∀ (h : Nat) (t : SentTx), p.txs[h]? = some t → t.status = .success → t.args.pubInputs.tamperFlag = 0

variable {cfg : Config} {p p' : Pipeline} {e : Event} {env : Env} {a : SubmitArgs}

theorem executed_mined {env' : Env} {h : Nat} : executed cfg p (.mined h env') = some (env, a) ↔
    (∃ job, p.txs[h]? = some ⟨job, a, .pending⟩) ∧ { env' with sender := cfg.operatorAddress } = env := by
  unfold executed
  dsimp only
  constructor
  · intro hx
    split at hx
    · next job args ht =>
      obtain ⟨henv, rfl⟩ := Prod.mk.inj (Option.some.inj hx)
      exact ⟨⟨job, ht⟩, henv⟩
    · cases hx
  · rintro ⟨⟨job, ht⟩, rfl⟩
    rw [ht]

theorem step_executed (h : executed cfg p e = some (env, a)) {err : V3Error}
    (hs : V3.submitProof cfg.keccak env p.chain a = .error err) : (step cfg p e).chain = p.chain := by
  cases e with
  | mined i env' =>
    obtain ⟨⟨job, ht⟩, rfl⟩ := executed_mined.1 h
    rw [step, mine, ht]
    dsimp only
    rw [hs]
  | external t =>
    unfold executed at h
    split at h
    · next he => cases he
    · next he =>
      obtain rfl := Event.external.inj he
      obtain ⟨rfl, rfl⟩ := Prod.mk.inj (Option.some.inj h)
      rw [step, V3.exec, V3.call, hs]
    · cases h
  | enqueue | prepared | simulated | written | receipt | validated => cases h

theorem tamperedRejected_iff : TamperedRejected cfg p e ↔ TamperedFails cfg p e := by
  constructor
  · intro h env a he hf
    exact V3.rejected_iff_checkFails.1 (h env a he hf).1
  · intro h env a he hf
    obtain ⟨err, hs⟩ := V3.rejected_iff_checkFails.2 (h env a he hf)
    exact ⟨⟨err, hs⟩, by rw [step_executed he hs]⟩

theorem Untampered.step (h : Untampered p) (hf : TamperedFails cfg p e) (hs : Step cfg p e p') : Untampered p' := by
  cases hs with
  | skip | enqueue | prepared | written | included | failed | completed | external => exact h
  | signed =>
    intro i t ht hst
    rcases getElem?_append_pending ht with ht | ⟨-, rfl⟩
    · exact h i t ht hst
    · cases hst
  | accepted ht ha =>
    intro i t hi hst
    rcases getElem?_set_cases ht hi with ⟨rfl, rfl⟩ | ⟨-, hi⟩
    · by_contra hflag
      exact V3.not_accepts_iff_checkFails.2 (hf _ _ (executed_mined.2 ⟨⟨_, ht⟩, rfl⟩) hflag) ha
    · exact h i t hi hst
  | reverted ht =>
    intro i t hi hst
    rcases getElem?_set_cases ht hi with ⟨rfl, rfl⟩ | ⟨-, hi⟩
    · cases hst
    · exact h i t hi hst

theorem Untampered.run {events : List Event} (h : Untampered p)
    (hf : ∀ x ∈ Runs.steps (Pipeline.step cfg) p events, TamperedFails cfg x.1 x.2) :
    Untampered (Runs.run (Pipeline.step cfg) p events) :=
  Runs.run_inv_of_steps h fun x hx hx₁ => hx₁.step (hf x hx) (step_spec cfg x.1 x.2)

theorem Inv.tamperFlag {h : Nat} {t : SentTx} {r : JobRecord SubmissionJob SubmissionResult} (hi : Inv cfg p)
    (ht : p.txs[h]? = some t) (hr : p.worker.queue.get t.job = some r) :
    (t.args.pubInputs.tamperFlag.toNat : ℤ) = r.data.payload.tamper_flag := by
  obtain ⟨r', hr', payloadHash, hsent⟩ := hi.sent h t ht
  obtain rfl : r = r' := Option.some.inj (hr.symm.trans hr')
  exact hsent.tamperFlag.2

/-- In every run: submissions with the flag set are all rejected exactly when each of them fails one of the other
checks; then no accepted transaction carries a flag, and no job with a flag is accepted or completes. -/
theorem tampered_rejected_iff (chain : V3State) {events : List Event} (he : ∀ e ∈ events, e.NonEmpty) :
    ((∀ x ∈ Runs.steps (step cfg) (init chain) events, TamperedRejected cfg x.1 x.2) ↔
      ∀ x ∈ Runs.steps (step cfg) (init chain) events, TamperedFails cfg x.1 x.2) ∧
    ((∀ x ∈ Runs.steps (step cfg) (init chain) events, TamperedFails cfg x.1 x.2) →
      Untampered (Runs.run (step cfg) (init chain) events) ∧
      ∀ id r, (Runs.run (step cfg) (init chain) events).worker.queue.get id = some r →
        r.data.payload.tamper_flag ≠ 0 →
        ¬ Accepted (Runs.run (step cfg) (init chain) events) id ∧ r.status ≠ .complete) := by
  refine ⟨forall₂_congr fun x _ => tamperedRejected_iff, fun hf => ?_⟩
  have hinv := (Inv.init chain : Inv cfg (init chain)).run he
  have hrun : Untampered (Runs.run (step cfg) (init chain) events) :=
    Untampered.run (fun h t ht => by cases ht) hf
  refine ⟨hrun, ?_⟩
  intro id r hr hflag
  have hna : ¬ Accepted (Runs.run (step cfg) (init chain) events) id := by
    rintro ⟨h, t, ht, rfl, hst⟩
    have hjob := hinv.tamperFlag ht hr
    rw [hrun h t ht hst] at hjob
    exact hflag hjob.symm
  exact ⟨hna, fun hst => hna (hinv.complete id r hr hst)⟩

namespace SampleJobs
open V3.TestChain Server.SampleRequest

/-- Device 7 reports that its case is open. -/
def tampered : SubmissionRequest := { squat with payload := { squat.payload with tamper_flag := "1" } }

theorem schema_tampered : Server.submissionSchema tampered = true := by
  have h := schema_squat
  have hflag : Server.tamperFlagSchema "1" = true := by decide
  simp only [Server.submissionSchema, Server.payloadSchema, Bool.and_eq_true] at h ⊢
  obtain ⟨⟨⟨⟨⟨hmeta, -⟩, hreadings⟩, hn⟩, hsignature⟩, hkey⟩ := h
  exact ⟨⟨⟨⟨⟨hmeta, hflag⟩, hreadings⟩, hn⟩, hsignature⟩, hkey⟩

def tamperedJob : SubmissionJob := Server.submissionJob packKeccak tampered

theorem payload_tamperedJob : tamperedJob.payload = { (job 1 100).payload with tamper_flag := (1 : U64).toNat } := by
  have h0 : Server.parseReading ⟨"0", "0", "0"⟩ = ⟨0, 0, 0⟩ := by decide
  have hreadings : tamperedJob.payload.readings = List.replicate 100 ⟨0, 0, 0⟩ := by
    show (_ :: List.replicate 99 _).map Server.parseReading = _
    rw [List.map_cons, List.map_replicate, h0]
    rfl
  exact CanonicalPayload.mk.injEq .. ▸ ⟨by decide, by decide, by decide, by decide, by decide, by decide, by decide, hreadings⟩

theorem bytes_tamperedJob : tamperedJob.signature = (job 1 100).signature ∧ tamperedJob.pubkey = (job 1 100).pubkey :=
  ⟨(Server.signature_submissionJob packKeccak tampered).trans hexToBytes_zeros128,
    (Server.pubkey_submissionJob packKeccak tampered).trans hexToBytes_zeros128⟩

def tamperedClaimed : Pipeline :=
  { init SampleJobs.chain with
    worker := ⟨⟨[⟨tamperedJob.sessionKey, tamperedJob, .processing, 1, none, none⟩], []⟩, some tamperedJob.sessionKey⟩ }

def tamperedReady : Pipeline := { tamperedClaimed with phase := .simulating (some ((submission 7 1 100).withFlag 1)) }

def tamperedRun : List Event :=
  .enqueue tamperedJob.sessionKey tamperedJob :: .prepared tools :: (sign ++ [.mined 0 chainA, .receipt (.ok ()), .validated (.ok ())])

def refusing : Env := envAt { openOracles with verifyHonk := fun _ _ _ => .returned false } 9 1

def refusedRun : List Event :=
  .enqueue tamperedJob.sessionKey tamperedJob :: .prepared tools :: (sign ++ [.mined 0 refusing, .receipt (.ok ())])

theorem after_tampered (events : List Event) :
    after (.enqueue tamperedJob.sessionKey tamperedJob :: .prepared tools :: events) =
      Runs.run (step config) tamperedReady events := by
  have hclaimed : step config (init SampleJobs.chain) (.enqueue tamperedJob.sessionKey tamperedJob) = tamperedClaimed :=
    step_enqueue_init config SampleJobs.chain (Server.sessionKey_ne_empty _ _)
  have hget : tamperedClaimed.currentJob.map (·.data) = some tamperedJob := by
    simp [tamperedClaimed, currentJob, InMemoryQueue.get, Keyed.find]
  have hn : tamperedJob.payload.readings.length = 100 := by
    rw [payload_tamperedJob]
    exact List.length_replicate
  have hready : step config tamperedClaimed (.prepared tools) = tamperedReady := by
    refine step_prepared_of rfl hget ?_ ?_ hn ?_
    · rw [bytes_tamperedJob.1]; rfl
    · rw [bytes_tamperedJob.2]; rfl
    · rw [payload_tamperedJob, bytes_tamperedJob.1, bytes_tamperedJob.2, submitArgs_flag]
      rfl
  rw [after, Runs.run_cons, Runs.run_cons, hclaimed, hready]

theorem nonEmpty_tampered {events : List Event} (h : ∀ e ∈ events, e.NonEmpty) :
    ∀ e ∈ Event.enqueue tamperedJob.sessionKey tamperedJob :: .prepared tools :: events, e.NonEmpty :=
  List.forall_mem_cons.2 ⟨Server.sessionKey_ne_empty _ _, List.forall_mem_cons.2 ⟨trivial, h⟩⟩

theorem tamperedFails_refusing {p : Pipeline} {e : Event} (he : e ∈ refusedRun) : TamperedFails config p e := by
  intro env a hx _
  simp only [refusedRun, sign, List.cons_append, List.nil_append, List.mem_cons, List.not_mem_nil, or_false] at he
  rcases he with rfl | rfl | rfl | rfl | rfl | rfl
  case inr.inr.inr.inr.inl =>
    obtain ⟨-, rfl⟩ := executed_mined.1 hx
    exact .inr (.inr (.inr fun h => by cases h))
  all_goals cases hx

end SampleJobs

open SampleJobs V3.TestChain Server.SampleRequest in
/-- The verifier refuses the proof of a job with the flag set. -/
theorem tampered_rejected_iff_sample :
    (after refusedRun).txs.map (fun t => (t.args.pubInputs.tamperFlag, t.status)) = [(1, .reverted)] ∧
    (∀ x ∈ Runs.steps (step config) (init SampleJobs.chain) refusedRun, TamperedRejected config x.1 x.2) ∧
    Untampered (after refusedRun) := by
  have he : ∀ e ∈ refusedRun, e.NonEmpty := nonEmpty_tampered (by simp [sign, Event.NonEmpty])
  have hf : ∀ x ∈ Runs.steps (step config) (init SampleJobs.chain) refusedRun, TamperedFails config x.1 x.2 :=
    fun x hx => tamperedFails_refusing (Runs.input_mem _ hx)
  obtain ⟨hiff, hrun⟩ := @tampered_rejected_iff config SampleJobs.chain refusedRun he
  refine ⟨?_, hiff.2 hf, (hrun hf).1⟩
  rw [refusedRun, after_tampered]
  decide +kernel

open SampleJobs V3.TestChain Server.SampleRequest in
/-- A request with the flag set passes the schema, its witness satisfies the circuit, and V3 accepts its submission;
V3 also accepts it from the operator directly. -/
theorem tampered_accepted :
    Server.submissionSchema tampered = true ∧ (Server.parsePayload tampered).tamper_flag = 1 ∧
    (Server.post packKeccak (Worker.init : Worker SubmissionJob SubmissionResult) tampered).2 = .pending tamperedJob.sessionKey ∧
    (∃ w priv, Prover.prepareWitnessInputs config.lib.perm tamperedJob.payload tamperedJob.signature tamperedJob.pubkey = .ok w ∧
      priv.canonical_payload = w.canonicalPayload ∧
      Circuit.main ⟨fun _ => 0, fun _ _ _ _ => true⟩ (.ofList w.publicInputs) priv = .ok ()) ∧
    (∀ e ∈ tamperedRun, e.NonEmpty) ∧
    (after tamperedRun).txs.map (fun t => (t.args.pubInputs.tamperFlag, t.status)) = [(1, .success)] ∧
    (V3.proofs (after tamperedRun).chain).length = 1 ∧
    (¬ ∀ x ∈ Runs.steps (step config) (init SampleJobs.chain) tamperedRun, TamperedRejected config x.1 x.2) ∧
    ∃ s, V3.submitProof packKeccak chainA SampleJobs.chain ((submission 7 1 100).withFlag 1) = .ok s ∧ (V3.proofs s).length = 1 := by
  have htxs : (after tamperedRun).txs.map (fun t => (t.args.pubInputs.tamperFlag, t.status)) = [(1, .success)] := by
    rw [tamperedRun, after_tampered]
    decide +kernel
  have hanswer : (Server.post packKeccak (Worker.init : Worker SubmissionJob SubmissionResult) tampered).2 =
      .pending tamperedJob.sessionKey := by
    rcases @Server.post_cases packKeccak _ (Worker.init : Worker SubmissionJob SubmissionResult) _ schema_tampered with
      ⟨hs, -⟩ | ⟨w', -, -, hp⟩
    · cases hs
    · rw [hp]
      rfl
  have hv : Encodable tamperedJob.payload := (Server.parsePayload_validated schema_tampered).encodable
  have hd : WellFormed tamperedJob := wellFormed_submissionJob schema_tampered
  have hne : ∀ e ∈ tamperedRun, e.NonEmpty := nonEmpty_tampered (by simp [sign, Event.NonEmpty])
  refine ⟨schema_tampered, by decide, hanswer, ?_, hne, htxs, ?_, ?_, ?_⟩
  · obtain ⟨w, hw, -⟩ := @Encoders.prepareWitnessInputs_spec config.lib.perm _ _ _ hd.signature hd.pubkey hd.readings
    obtain ⟨priv, hpriv, hmain⟩ := @main_of_prepared _ _ _ hd hv (by decide) (by decide) hw
      ⟨fun _ => 0, fun _ _ _ _ => true⟩ (by rw [poseidonSponge_zero, Nat.cast_zero]) rfl
    exact ⟨w, priv, hw, hpriv, hmain⟩
  · rw [tamperedRun, after_tampered]
    decide +kernel
  · intro h
    obtain ⟨t, ht, htt⟩ := List.map_eq_singleton_iff.1 htxs
    obtain ⟨hflag, hst⟩ := Prod.mk.inj htt
    have hrun : Untampered (after tamperedRun) :=
      Untampered.run (fun h t ht => by cases ht) fun x hx => tamperedRejected_iff.1 (h x hx)
    rw [hrun 0 t (by rw [ht]; rfl) hst] at hflag
    exact absurd hflag (by decide)
  · -- the call without the flag is accepted, so no check fails
    have h0 : V3.Accepts packKeccak chainA SampleJobs.chain (submission 7 1 100) := V3.accepts_of_isOk (by decide +kernel)
    have h1 : V3.Accepts packKeccak chainA SampleJobs.chain ((submission 7 1 100).withFlag 1) := by
      by_contra hn
      have hf := (@V3.checkFails_withFlag packKeccak chainA SampleJobs.chain (submission 7 1 100) 1 rfl).1
        (V3.not_accepts_iff_checkFails.1 hn)
      exact V3.not_accepts_iff_checkFails.2 hf h0
    exact ⟨_, V3.submitProof_eq_ok_iff.2 ⟨h1, rfl⟩, by rw [V3.proofs_accepted, List.length_append]; decide +kernel⟩

end Pipeline
end InfraVeritas
