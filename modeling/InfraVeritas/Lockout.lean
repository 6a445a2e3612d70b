import InfraVeritas.V3Log

/-!
# Timestamps never lock a device out

A device's stored timestamp is an epoch it submitted, at most `MAX_EPOCH_FUTURE_DRIFT` ahead of the block that
accepted it. In any later block the latest epoch that the drift check lets through is therefore new.
-/

namespace InfraVeritas
open Checks

namespace V3
variable {keccak : Bytes → Bytes32} {s : V3State} {txs : List Tx} {now : UInt256}

/-- The block times of the run and then `now` do not decrease, and 300 seconds more still fit in 64 bits. -/
structure Timed (txs : List Tx) (now : UInt256) : Prop where
  sorted : (txs.map (·.env.timestamp.toNat) ++ [now.toNat]).Pairwise (· ≤ ·)
  fits : ∀ t ∈ txs, t.env.timestamp.toNat + 300 < 2 ^ 64
  nowFits : now.toNat + 300 < 2 ^ 64

theorem Timed.le (h : Timed txs now) {t : Tx} (ht : t ∈ txs) : t.env.timestamp.toNat ≤ now.toNat := by
  have hpair := (List.pairwise_append.1 h.sorted).2.2
  exact hpair _ (List.mem_map_of_mem ht) _ (List.mem_singleton_self _)

/-- The transaction `x.2` gets a submission of the device accepted in the state `x.1`. -/
def AcceptsFrom (keccak : Bytes → Bytes32) (d : Bytes32) (x : V3State × Tx) : Prop :=
  ∃ pi, acceptedInputs keccak x = some pi ∧ bytes32OfU64 pi.deviceId = d

/-- A stored timestamp is 0 or near the block of an accepted submission of the device, among the steps `xs`. -/
def Dated (keccak : Bytes → Bytes32) (xs : List (V3State × Tx)) (s : V3State) : Prop :=
  ∀ d, s.lastSubmissionTimestamp d = 0 ∨
    ∃ x ∈ xs, AcceptsFrom keccak d x ∧ (s.lastSubmissionTimestamp d).toNat ≤ x.2.env.timestamp.toNat + 300

namespace Dated

theorem mono {xs ys : List (V3State × Tx)} (h : Dated keccak xs s) (hsub : ∀ x ∈ xs, x ∈ ys) : Dated keccak ys s := by
  intro d
  rcases h d with hzero | ⟨x, hx, hacc, hle⟩
  · exact .inl hzero
  · exact .inr ⟨x, hsub x hx, hacc, hle⟩

theorem exec {xs : List (V3State × Tx)} (h : Dated keccak xs s) (t : Tx) :
    Dated keccak (xs ++ [(s, t)]) (exec keccak s t) := by
  have hkeep : Dated keccak (xs ++ [(s, t)]) s := h.mono fun x hx => by simp [hx]
  rcases exec_cases s t with ⟨a, -, ha, he, hin⟩ | ⟨-, hs⟩
  · intro d
    rw [he]
    by_cases hd : bytes32OfU64 a.pubInputs.deviceId = d
    · -- the new timestamp passed the drift check of this block
      subst hd
      refine .inr ⟨(s, t), by simp, ⟨_, hin, rfl⟩, ?_⟩
      simpa [accepted] using ha.epoch
    · have hsame : (accepted keccak s a.pubInputs).lastSubmissionTimestamp d = s.lastSubmissionTimestamp d := by
        simp [accepted, Function.update_of_ne (Ne.symm hd)]
      rw [hsame]
      exact hkeep d
  · unfold Dated
    rw [hs.last]
    exact hkeep

theorem run (h0 : Deployed keccak s) (txs : List Tx) :
    Dated keccak (Runs.steps (V3.exec keccak) s txs) (Runs.run (V3.exec keccak) s txs) := by
  refine Runs.run_induction (P := fun ts s' => Dated keccak (Runs.steps (V3.exec keccak) s ts) s') ?_ ?_ txs
  · intro d
    exact .inl (by rw [h0.same.last]; rfl)
  · intro ts t h
    rw [Runs.steps_concat]
    exact h.exec t

end Dated

/-- The latest epoch that the drift check lets through. -/
def latestEpoch (now : UInt256) : U64 := BitVec.ofNat 64 (now.toNat + 300)

theorem toNat_latestEpoch (h : now.toNat + 300 < 2 ^ 64) : (latestEpoch now).toNat = now.toNat + 300 := by
  rw [latestEpoch, BitVec.toNat_ofNat, Nat.mod_eq_of_lt h]

theorem never_locked_out (h0 : Deployed keccak s) {env : Env} (ht : Timed txs env.timestamp) :
    (∀ d, ((Runs.run (exec keccak) s txs).lastSubmissionTimestamp d).toNat ≤ env.timestamp.toNat + 300) ∧
    ∀ d : U64, (∀ x ∈ Runs.steps (exec keccak) s txs, AcceptsFrom keccak (bytes32OfU64 d) x →
        x.2.env.timestamp.toNat < env.timestamp.toNat) →
      ∃ epoch : U64, (∃ latest, checkedAdd V3Error.panic env.timestamp (bytes32OfU64 MAX_EPOCH_FUTURE_DRIFT) = .ok latest ∧
          ¬ bytes32OfU64 epoch > latest) ∧
        ∃ gap, gapCheck ((Runs.run (exec keccak) s txs).lastSubmissionTimestamp (bytes32OfU64 d)) epoch = .ok gap := by
  have hdated := Dated.run h0 txs
  have hfits := ht.nowFits
  refine ⟨fun d => ?_, fun d hlater => ⟨latestEpoch env.timestamp, ?_, ?_⟩⟩
  · rcases hdated d with hzero | ⟨x, hx, -, hle⟩
    · rw [hzero]
      simp
    · have hnow := ht.le (Runs.input_mem _ hx)
      omega
  · simp only [checkedAdd_eq_ok]
    refine drift_ok_iff.2 ⟨by omega, ?_⟩
    rw [toNat_latestEpoch hfits]
  · refine ⟨_, gapCheck_eq_ok_iff.2 ⟨?_, rfl⟩⟩
    rcases hdated (bytes32OfU64 d) with hzero | ⟨x, hx, hacc, hle⟩
    · exact .inl hzero
    · have hbefore := hlater x hx hacc
      refine .inr (BitVec.lt_def.2 ?_)
      rw [toNat_latestEpoch hfits]
      omega

namespace TestChain

/-- Device 7 submits an epoch as far ahead of the block as the drift check allows. -/
def farAhead : List Tx := [grantOperator chainA, submitTx chainA 7 1 1000300]

def nextBlock : Env := { chainA with timestamp := 1000001 }

theorem farAhead_timed : Timed farAhead nextBlock.timestamp := by
  refine ⟨by decide, fun t ht => ?_, by decide⟩
  simp only [farAhead, List.mem_cons, List.not_mem_nil, or_false] at ht
  rcases ht with rfl | rfl <;> decide

end TestChain

open TestChain in
/-- One second later the device can submit again. -/
theorem never_locked_out_sample :
    (Runs.run (exec packKeccak) (deployed chainA) farAhead).lastSubmissionTimestamp (bytes32OfU64 7) = 1000300 ∧
    ∃ epoch : U64, ∃ gap, gapCheck ((Runs.run (exec packKeccak) (deployed chainA) farAhead).lastSubmissionTimestamp
      (bytes32OfU64 7)) epoch = .ok gap := by
  refine ⟨by decide +kernel, ?_⟩
  obtain ⟨-, hlater⟩ := never_locked_out (deployed_deployed chainA) farAhead_timed
  obtain ⟨epoch, -, hgap⟩ := hlater 7 fun x hx _ => by
    have hx := Runs.input_mem _ hx
    simp only [farAhead, List.mem_cons, List.not_mem_nil, or_false] at hx
    rcases hx with hx | hx <;> rw [hx] <;> decide
  exact ⟨epoch, hgap⟩

end V3
end InfraVeritas
