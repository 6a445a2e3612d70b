import InfraVeritas.Agreement

/-!
# The order of submissions

Jobs are claimed for the first time in the order they were enqueued, but a job that fails goes to the end of
the pending list, behind the jobs enqueued meanwhile. V3 takes a device's epochs in increasing order only
(`later_run`), so a later epoch that overtakes shuts out the one that waits.
-/

namespace InfraVeritas
open Checks

namespace V3
variable {keccak : Bytes → Bytes32} {s : V3State} {d : Bytes32} {t : U64}

theorem later_exec (h : t < s.lastSubmissionTimestamp d) (tx : Tx) :
    t < (exec keccak s tx).lastSubmissionTimestamp d := by
  rcases @exec_cases keccak s tx with ⟨a, -, ha, he, -⟩ | ⟨-, he⟩
  · rw [he]
    show t < Function.update s.lastSubmissionTimestamp (bytes32OfU64 a.pubInputs.deviceId) _ d
    by_cases hd : d = bytes32OfU64 a.pubInputs.deviceId
    · subst hd
      rw [Function.update_self]
      rcases ha.later with h0 | hlt
      · rw [h0] at h
        exact absurd h (BitVec.not_lt_zero)
      · exact BitVec.lt_trans h hlt
    · rwa [Function.update_of_ne hd]
  · rw [he.last]
    exact h

theorem later_run (h : t < s.lastSubmissionTimestamp d) (txs : List Tx) :
    t < (Runs.run (exec keccak) s txs).lastSubmissionTimestamp d :=
  Runs.run_inv (I := fun s : V3State => t < s.lastSubmissionTimestamp d) h (fun _ tx hs => later_exec hs tx) txs

theorem rejected_for_good {a : SubmitArgs}
    (h : a.pubInputs.epochStartTs < s.lastSubmissionTimestamp (bytes32OfU64 a.pubInputs.deviceId)) (txs : List Tx)
    (env : Env) : ∃ e, submitProof keccak env (Runs.run (exec keccak) s txs) a = .error e := by
  refine rejected_iff.2 ?_
  intro ha
  have hlater : a.pubInputs.epochStartTs < (Runs.run (exec keccak) s txs).lastSubmissionTimestamp
      (bytes32OfU64 a.pubInputs.deviceId) := later_run h txs
  rcases ha.later with h0 | hlt
  · rw [h0] at hlater
    exact absurd hlater BitVec.not_lt_zero
  · exact absurd hlt (BitVec.lt_asymm hlater)

end V3

namespace Pipeline
variable {cfg : Config}

/-- In every state of every run the records are the jobs in the order they were enqueued, and a job enqueued
before the one that is being processed has been claimed, and has ended or waits for another attempt after an
error. -/
theorem submission_order (chain : V3State) {events : List Event} (he : ∀ e ∈ events, e.NonEmpty) :
    (Runs.run (step cfg) (init chain) events).worker.queue.records.map (·.id) = enqueued events ∧
    Worker.InOrder (Runs.run (step cfg) (init chain) events).worker := by
  obtain ⟨es, hes, hids, hw⟩ := worker_run cfg chain he
  rw [hw]
  refine ⟨?_, (Worker.Inv.init.run hes).inOrder⟩
  rw [Worker.ids_run hes, Worker.enqueued, enqueued, hids]

namespace SampleJobs
open V3.TestChain

def both : Pipeline := Runs.run (step config) (init SampleJobs.chain) [.enqueue "A" (job 1 100), .enqueue "B" (job 2 200)]

def firstReady : Pipeline := { both with phase := .simulating (some (submission 7 1 100)) }

/-- V3 is paused when the first is simulated; the second is claimed. -/
def firstFailed : Pipeline := step config firstReady (.simulated (.error (V3Error.thrown (.oz .enforcedPause))))

def secondReady : Pipeline := { firstFailed with phase := .simulating (some (submission 7 2 200)) }

def overtaken : List Event :=
  [.enqueue "A" (job 1 100), .enqueue "B" (job 2 200)] ++ .prepared tools ::
    .simulated (.error (V3Error.thrown (.oz .enforcedPause))) :: .prepared tools :: (sign ++ [.mined 0 chainA])

theorem after_overtaken : after overtaken = Runs.run (step config) secondReady (sign ++ [.mined 0 chainA]) := by
  have hfirst : step config both (.prepared tools) = firstReady := step_prepared (by decide +kernel) (by decide +kernel)
  have hsecond : step config firstFailed (.prepared tools) = secondReady :=
    step_prepared (by decide +kernel) (by decide +kernel)
  rw [after, overtaken, Runs.run_append, ← both, Runs.run_cons, hfirst, Runs.run_cons, ← firstFailed, Runs.run_cons,
    hsecond]

theorem nonEmpty_overtaken : ∀ e ∈ overtaken, e.NonEmpty := by
  simp [overtaken, sign, Event.NonEmpty]

end SampleJobs

open SampleJobs V3.TestChain in
/-- The later epoch is submitted and accepted while the earlier one waits, which V3 then never accepts. -/
theorem later_epoch_overtakes :
    (∀ e ∈ overtaken, e.NonEmpty) ∧ enqueued overtaken = ["A", "B"] ∧
    (V3.submitProof packKeccak chainA SampleJobs.chain (submission 7 1 100)).isOk = true ∧
    (after overtaken).worker.current = some "B" ∧
    (after overtaken).worker.queue.records.map (fun r => (r.id, r.status)) = [("A", .pending), ("B", .processing)] ∧
    (after overtaken).txs = [⟨"B", submission 7 2 200, .success⟩] ∧
    ∀ txs env, ∃ e, V3.submitProof packKeccak env (Runs.run (V3.exec packKeccak) (after overtaken).chain txs)
      (submission 7 1 100) = .error e := by
  refine ⟨nonEmpty_overtaken, by decide +kernel, by decide +kernel, ?_, ?_, ?_, V3.rejected_for_good ?_⟩
  · rw [after_overtaken]; decide +kernel
  · rw [after_overtaken]; decide +kernel
  · rw [after_overtaken]; decide +kernel
  · rw [after_overtaken]; decide +kernel

open SampleJobs in
theorem submission_order_sample :
    (∀ e ∈ overtaken, e.NonEmpty) ∧
    (Runs.run (step config) (init SampleJobs.chain) overtaken).worker.queue.records.map (·.id) = enqueued overtaken ∧
    Worker.InOrder (Runs.run (step config) (init SampleJobs.chain) overtaken).worker :=
  ⟨nonEmpty_overtaken, submission_order SampleJobs.chain nonEmpty_overtaken⟩

end Pipeline
end InfraVeritas
