import InfraVeritas.Lib.Gaps
import InfraVeritas.V3Step
import Mathlib.Data.List.Chain
import Mathlib.Data.List.Nodup

/-!
# The log of a run

`LogInv` ties the two submission mappings to the `ProofSubmitted` events: a session key is used
exactly when an event carries it, no two events share one, and a device's stored timestamp is that of
its latest event. It holds after every run of a deployed proxy. The second half is about one device:
its accepted epochs against the gaps its events report. `lastSubmissionTimestamp` is 0 both for a
device without submissions and for one whose latest epoch is 0, and `timeOrdered_iff` says exactly
which runs are affected.
-/

namespace InfraVeritas
open Checks

namespace V3
variable {keccak : Bytes → Bytes32} {s s' : V3State}

def eventsOf (s : V3State) (d : Bytes32) : List ProofSubmitted := (proofs s).filter (·.deviceId = d)

/-- `e` is the event of session `n` of device `d`. -/
def IsEventOf (keccak : Bytes → Bytes32) (d n : U64) (e : ProofSubmitted) : Prop :=
  e.deviceId = bytes32OfU64 d ∧ e.sessionKey = sessionKey keccak d n

instance (d n : U64) : DecidablePred (IsEventOf keccak d n) := fun _ => inferInstanceAs (Decidable (_ ∧ _))

structure LogInv (keccak : Bytes → Bytes32) (s : V3State) : Prop where
  pair : ∀ e ∈ proofs s, ∃ d n, IsEventOf keccak d n e
  nodup : ((proofs s).map (·.sessionKey)).Nodup
  used : ∀ k, s.usedSessionKeys k = true ↔ ∃ e ∈ proofs s, e.sessionKey = k
  last : ∀ d, s.lastSubmissionTimestamp d = (eventsOf s d).getLast?.elim 0 (·.timestamp)

theorem eventsOf_accepted (pi : PublicInputs) (d : Bytes32) :
    eventsOf (accepted keccak s pi) d =
      eventsOf s d ++ if bytes32OfU64 pi.deviceId = d then [eventOf keccak s pi] else [] := by
  rw [eventsOf, proofs_accepted, List.filter_append, eventsOf]
  congr 1
  by_cases hd : bytes32OfU64 pi.deviceId = d <;> simp [eventOf, hd]

theorem eventsOf_same (h : SameSubmissions s s') (d : Bytes32) : eventsOf s' d = eventsOf s d := by
  rw [eventsOf, h.proofs, eventsOf]

theorem isEventOf_eventOf (pi : PublicInputs) :
    IsEventOf keccak pi.deviceId pi.sessionId (eventOf keccak s pi) := ⟨rfl, rfl⟩

namespace LogInv

theorem fresh : LogInv keccak fresh := by
  have hp : proofs V3.fresh = [] := rfl
  refine ⟨fun e he => ?_, ?_, fun k => ⟨fun h => ?_, fun ⟨e, he, _⟩ => ?_⟩, fun d => rfl⟩
  · rw [hp] at he; cases he
  · rw [hp]; exact List.nodup_nil
  · cases h
  · rw [hp] at he; cases he

theorem same (hs : LogInv keccak s) (h : SameSubmissions s s') : LogInv keccak s' := by
  refine ⟨?_, ?_, ?_, ?_⟩
  · rw [h.proofs]; exact hs.pair
  · rw [h.proofs]; exact hs.nodup
  · intro k
    rw [h.proofs, h.used]; exact hs.used k
  · intro d
    rw [h.last, eventsOf_same h]; exact hs.last d

/-- An accepted submission used a fresh key, so it keeps the keys of the log distinct. -/
theorem accepted {pi : PublicInputs} (hs : LogInv keccak s)
    (hu : s.usedSessionKeys (sessionKey keccak pi.deviceId pi.sessionId) = false) :
    LogInv keccak (V3.accepted keccak s pi) := by
  set k₀ := sessionKey keccak pi.deviceId pi.sessionId
  refine ⟨?_, ?_, ?_, ?_⟩
  · intro e he
    rw [proofs_accepted, List.mem_append, List.mem_singleton] at he
    rcases he with he | rfl
    · exact hs.pair e he
    · exact ⟨_, _, isEventOf_eventOf pi⟩
  · rw [proofs_accepted, List.map_append, List.nodup_append]
    refine ⟨hs.nodup, List.nodup_singleton _, ?_⟩
    rintro k hk _ hk' rfl
    obtain ⟨e, he, hek⟩ := List.mem_map.1 hk
    have hk₀ : e.sessionKey = k₀ := hek.trans (List.mem_singleton.1 hk')
    rw [(hs.used k₀).2 ⟨e, he, hk₀⟩] at hu
    cases hu
  · intro k
    have hev : (eventOf keccak s pi).sessionKey = k₀ := rfl
    simp only [proofs_accepted, List.mem_append, List.mem_singleton, or_and_right, exists_or,
      exists_eq_left, hev, ← hs.used k]
    show Function.update s.usedSessionKeys k₀ true k = true ↔ _
    by_cases hk : k = k₀
    · subst hk; simp
    · simp [Function.update_of_ne hk, Ne.symm hk]
  · intro d
    rw [eventsOf_accepted]
    show Function.update s.lastSubmissionTimestamp (bytes32OfU64 pi.deviceId) pi.epochStartTs d = _
    by_cases hd : bytes32OfU64 pi.deviceId = d
    · subst hd
      rw [Function.update_self, if_pos rfl, List.getLast?_concat]
      rfl
    · rw [Function.update_of_ne (Ne.symm hd), if_neg hd, List.append_nil]
      exact hs.last d

theorem exec (hs : LogInv keccak s) (t : Tx) : LogInv keccak (exec keccak s t) := by
  rcases exec_cases s t with ⟨a, -, ha, he, -⟩ | ⟨-, he⟩
  · rw [he]; exact hs.accepted ha.unused
  · exact hs.same he

theorem run (h0 : Deployed keccak s) (txs : List Tx) : LogInv keccak (Runs.run (V3.exec keccak) s txs) :=
  Runs.run_inv (fresh.same h0.same) (fun _ t hs => hs.exec t) txs

theorem countP_le_one (hs : LogInv keccak s) (d n : U64) :
    (proofs s).countP (IsEventOf keccak d n ·) ≤ 1 := by
  have hmono : (proofs s).countP (IsEventOf keccak d n ·) ≤
      ((proofs s).map (·.sessionKey)).count (sessionKey keccak d n) := by
    rw [List.count, List.countP_map]
    refine List.countP_mono_left ?_
    intro e _ he
    exact beq_iff_eq.2 (of_decide_eq_true he).2
  exact hmono.trans (List.nodup_iff_count_le_one.1 hs.nodup _)

end LogInv

/-- `keccak` does not collide on two `abi.encodePacked(uint64,uint64)` preimages. -/
def PackedInjective (keccak : Bytes → Bytes32) : Prop := Set.InjOn keccak {bs | bs.length = 16}

theorem sessionKey_inj (hk : PackedInjective keccak) {d n d' n' : U64} :
    sessionKey keccak d n = sessionKey keccak d' n' ↔ d = d' ∧ n = n' := by
  rw [← encodePackedU64_inj]
  exact ⟨fun h => hk (length_encodePackedU64 ..) (length_encodePackedU64 ..) h, fun h => congrArg keccak h⟩

/-- Under an injective `keccak` an event tells its device and its session. -/
theorem IsEventOf.inj (hk : PackedInjective keccak) {e : ProofSubmitted} {d n d' n' : U64}
    (h : IsEventOf keccak d n e) (h' : IsEventOf keccak d' n' e) : d = d' ∧ n = n' :=
  (sessionKey_inj hk).1 (h.2.symm.trans h'.2)

theorem replay_protection (hk : PackedInjective keccak) (h0 : Deployed keccak s) (txs : List Tx) :
    (∀ d n, (proofs (Runs.run (exec keccak) s txs)).countP (IsEventOf keccak d n ·) ≤ 1) ∧
    (∀ e ∈ proofs (Runs.run (exec keccak) s txs), ∃! p : U64 × U64, IsEventOf keccak p.1 p.2 e) ∧
    (∀ k, (Runs.run (exec keccak) s txs).usedSessionKeys k = true ↔
      ∃ e ∈ proofs (Runs.run (exec keccak) s txs), e.sessionKey = k) ∧
    (∀ d : U64, (Runs.run (exec keccak) s txs).lastSubmissionTimestamp (bytes32OfU64 d) =
      (eventsOf (Runs.run (exec keccak) s txs) (bytes32OfU64 d)).getLast?.elim 0 (·.timestamp)) ∧
    (∀ t e, call keccak t.env (Runs.run (exec keccak) s txs) t.call = .error e →
      exec keccak (Runs.run (exec keccak) s txs) t = Runs.run (exec keccak) s txs) := by
  have h := LogInv.run h0 txs
  refine ⟨h.countP_le_one, fun e he => ?_, h.used, fun d => h.last _, fun t e => exec_of_error⟩
  obtain ⟨d, n, hdn⟩ := h.pair e he
  refine ⟨(d, n), hdn, fun ⟨d', n'⟩ h' => ?_⟩
  obtain ⟨hd, hn⟩ := IsEventOf.inj hk h' hdn
  exact Prod.ext hd hn

namespace TestChain

theorem packKeccak_injective : PackedInjective packKeccak := by
  intro as ha bs hb h
  have lt (cs : Bytes) (hc : cs.length = 16) : BigEndian.ofBE cs < 2 ^ 256 :=
    (BigEndian.ofBE_lt cs).trans (by rw [hc]; decide)
  refine (BigEndian.ofBE_inj (ha.trans hb.symm)).1 ?_
  have h' := congrArg BitVec.toNat h
  rwa [packKeccak, packKeccak, BitVec.toNat_ofNat, BitVec.toNat_ofNat, Nat.mod_eq_of_lt (lt as ha),
    Nat.mod_eq_of_lt (lt bs hb)] at h'

def chainA : Env := envAt openOracles 9 1

/-- Device 7 submits session 1, is replayed, and submits session 2. -/
def replayed : List Tx :=
  [grantOperator chainA, submitTx chainA 7 1 100, submitTx chainA 7 1 200, submitTx chainA 7 2 300000]

def zeroTwice : List Tx := [grantOperator chainA, submitTx chainA 7 1 0, submitTx chainA 7 2 0]

end TestChain

open TestChain in
theorem replay_protection_sample :
    PackedInjective packKeccak ∧ Deployed packKeccak (deployed chainA) ∧
    (proofs (Runs.run (exec packKeccak) (deployed chainA) replayed)).length = 2 ∧
    (∀ d n, (proofs (Runs.run (exec packKeccak) (deployed chainA) replayed)).countP
      (IsEventOf packKeccak d n ·) ≤ 1) :=
  ⟨packKeccak_injective, deployed_deployed chainA, by decide +kernel,
    (replay_protection packKeccak_injective (deployed_deployed chainA) replayed).1⟩

/-! ### One device -/

def epochsOf (keccak : Bytes → Bytes32) (s : V3State) (txs : List Tx) (d : U64) : List U64 :=
  ((submissions keccak s txs).filter (·.deviceId = d)).map (·.epochStartTs)

/-- The epochs increase strictly and the events `es` report their gaps. -/
structure TimeOrdered (epochs : List U64) (es : List ProofSubmitted) : Prop where
  increasing : epochs.IsChain (· < ·)
  gaps : es.map (fun e => (e.gapFromPrevious.toNat : ℤ)) = Gaps.gaps (epochs.map fun t => (t.toNat : ℤ))
  flags : es.map (fun e => e.postDisconnection) =
    (Gaps.gaps (epochs.map fun t => (t.toNat : ℤ))).map fun g => decide (g > 172800)
  total : ∀ a ∈ epochs.head?, ∀ b ∈ epochs.getLast?,
    (es.map fun e => (e.gapFromPrevious.toNat : ℤ)).sum = b.toNat - a.toNat

namespace TimeOrdered
variable {epochs : List U64} {es : List ProofSubmitted}

/-- The sum of the gaps is not a condition of its own: it telescopes. -/
theorem of_gaps (hi : epochs.IsChain (· < ·))
    (hg : es.map (fun e => (e.gapFromPrevious.toNat : ℤ)) = Gaps.gaps (epochs.map fun t => (t.toNat : ℤ)))
    (hf : es.map (fun e => e.postDisconnection) =
      (Gaps.gaps (epochs.map fun t => (t.toNat : ℤ))).map fun g => decide (g > 172800)) :
    TimeOrdered epochs es := by
  refine ⟨hi, hg, hf, ?_⟩
  intro a ha b hb
  rw [hg]
  refine Gaps.sum_gaps ?_ ?_
  · rw [List.head?_map, Option.mem_def.1 ha]; rfl
  · rw [List.getLast?_map, Option.mem_def.1 hb]; rfl

theorem nil : TimeOrdered [] [] := of_gaps .nil rfl rfl

/-- One more submission: it must be later than the last one and report the distance to it. -/
theorem concat_iff {t : U64} {e : ProofSubmitted} (hlen : es.length = epochs.length) :
    TimeOrdered (epochs ++ [t]) (es ++ [e]) ↔
      TimeOrdered epochs es ∧ (∀ l ∈ epochs.getLast?, l < t) ∧
        (e.gapFromPrevious.toNat : ℤ) = epochs.getLast?.elim 0 (fun l => (t.toNat : ℤ) - l.toNat) ∧
        e.postDisconnection = decide (epochs.getLast?.elim (0 : ℤ) (fun l => (t.toNat : ℤ) - l.toNat) > 172800) := by
  have hgaps : Gaps.gaps ((epochs ++ [t]).map fun t => (t.toNat : ℤ)) =
      Gaps.gaps (epochs.map fun t => (t.toNat : ℤ)) ++
        [epochs.getLast?.elim 0 (fun l => (t.toNat : ℤ) - l.toNat)] := by
    rw [List.map_append, List.map_singleton, Gaps.gaps_concat, List.getLast?_map]
    cases epochs.getLast? <;> rfl
  have hchain : (epochs ++ [t]).IsChain (· < ·) ↔ epochs.IsChain (· < ·) ∧ ∀ l ∈ epochs.getLast?, l < t := by
    rw [List.isChain_append]
    simp
  constructor
  · intro h
    have hg := h.gaps
    have hf := h.flags
    rw [hgaps, List.map_append] at hg
    rw [hgaps, List.map_append, List.map_append] at hf
    obtain ⟨hg₁, hg₂⟩ := List.append_inj hg (by simp [hlen])
    obtain ⟨hf₁, hf₂⟩ := List.append_inj hf (by simp [hlen])
    obtain ⟨hi, hl⟩ := hchain.1 h.increasing
    exact ⟨of_gaps hi hg₁ hf₁, hl, List.singleton_inj.1 hg₂, List.singleton_inj.1 hf₂⟩
  · rintro ⟨h, hl, hg, hf⟩
    refine of_gaps (hchain.2 ⟨h.increasing, hl⟩) ?_ ?_
    · rw [hgaps, List.map_append, h.gaps, List.map_singleton, hg]
    · rw [hgaps, List.map_append, List.map_append, h.flags, List.map_singleton, List.map_singleton, hf]

end TimeOrdered

theorem gapOf_zero (t : U64) : gapOf 0 t = 0 := if_neg fun h => h rfl

/-- After a stored timestamp `l ≠ 0` the emitted gap is the exact difference. -/
theorem toNat_gapOf {l t : U64} (hl : l ≠ 0) (h : l < t) : ((gapOf l t).toNat : ℤ) = (t.toNat : ℤ) - l.toNat := by
  rw [gapOf, if_pos hl, toNat_sub_of_le (BitVec.le_of_lt h)]
  have := BitVec.lt_def.1 h
  omega

theorem gapFlag_iff (g : U64) : decide (g > MAX_GAP_SECONDS) = decide ((g.toNat : ℤ) > 172800) := by
  have h : MAX_GAP_SECONDS.toNat = 172800 := rfl
  rw [decide_eq_decide, gt_iff_lt, BitVec.lt_def, h]
  omega

/-- What a run keeps about a device with accepted epochs `epochs`: the stored timestamp is the latest
epoch (0 when there is none), and the events are in order exactly when no epoch but the latest is 0. -/
structure DeviceInv (d : U64) (epochs : List U64) (s : V3State) : Prop where
  length : (eventsOf s (bytes32OfU64 d)).length = epochs.length
  last : s.lastSubmissionTimestamp (bytes32OfU64 d) = epochs.getLast?.getD 0
  ordered : TimeOrdered epochs (eventsOf s (bytes32OfU64 d)) ↔ ∀ t ∈ epochs.dropLast, t ≠ 0

namespace DeviceInv
variable {d : U64} {epochs : List U64}

theorem same (hs : DeviceInv d epochs s) (h : SameSubmissions s s') : DeviceInv d epochs s' := by
  refine ⟨?_, ?_, ?_⟩
  · rw [eventsOf_same h]; exact hs.length
  · rw [h.last]; exact hs.last
  · rw [eventsOf_same h]; exact hs.ordered

theorem accepted_of_ne {pi : PublicInputs} (hs : DeviceInv d epochs s) (hd : pi.deviceId ≠ d) :
    DeviceInv d epochs (accepted keccak s pi) := by
  have hne : bytes32OfU64 pi.deviceId ≠ bytes32OfU64 d := fun h => hd (bytes32OfU64_inj.1 h)
  have hev : eventsOf (accepted keccak s pi) (bytes32OfU64 d) = eventsOf s (bytes32OfU64 d) := by
    rw [eventsOf_accepted, if_neg hne, List.append_nil]
  refine ⟨?_, ?_, ?_⟩
  · rw [hev]; exact hs.length
  · show Function.update s.lastSubmissionTimestamp (bytes32OfU64 pi.deviceId) pi.epochStartTs _ = _
    rw [Function.update_of_ne (Ne.symm hne)]
    exact hs.last
  · rw [hev]; exact hs.ordered

/-- A submission of the device itself. With a nonzero latest epoch the check of `submitProof` and the
emitted gap are exact; after a latest epoch 0 the next event reports gap 0, which no later epoch has. -/
theorem accepted {pi : PublicInputs} (hs : DeviceInv d epochs s) (hd : pi.deviceId = d)
    (hl : s.lastSubmissionTimestamp (bytes32OfU64 d) = 0 ∨
      s.lastSubmissionTimestamp (bytes32OfU64 d) < pi.epochStartTs) :
    DeviceInv d (epochs ++ [pi.epochStartTs]) (V3.accepted keccak s pi) := by
  have hev : eventsOf (V3.accepted keccak s pi) (bytes32OfU64 d) =
      eventsOf s (bytes32OfU64 d) ++ [eventOf keccak s pi] := by
    rw [eventsOf_accepted, if_pos (congrArg bytes32OfU64 hd)]
  refine ⟨?_, ?_, ?_⟩
  · rw [hev, List.length_append, List.length_append, hs.length]; rfl
  · show Function.update s.lastSubmissionTimestamp (bytes32OfU64 pi.deviceId) pi.epochStartTs _ = _
    rw [hd, Function.update_self, List.getLast?_concat, Option.getD_some]
  · rw [hev, TimeOrdered.concat_iff hs.length, List.dropLast_concat, hs.ordered]
    have hgap : (eventOf keccak s pi).gapFromPrevious = gapOf (epochs.getLast?.getD 0) pi.epochStartTs := by
      show gapOf (s.lastSubmissionTimestamp (bytes32OfU64 pi.deviceId)) pi.epochStartTs = _
      rw [hd, hs.last]
    have hflag : (eventOf keccak s pi).postDisconnection =
        decide (((eventOf keccak s pi).gapFromPrevious.toNat : ℤ) > 172800) := gapFlag_iff _
    rw [hflag, hgap]
    rw [hs.last] at hl
    rcases List.eq_nil_or_concat epochs with rfl | ⟨init, l, rfl⟩
    · rw [show ([] : List U64).getLast?.getD 0 = 0 from rfl, gapOf_zero]
      simp
    · rw [List.concat_eq_append] at hl ⊢
      simp only [List.getLast?_concat, Option.getD_some, Option.mem_def, Option.some.injEq,
        forall_eq', Option.elim_some, List.dropLast_concat, List.mem_append, List.mem_singleton] at hl ⊢
      constructor
      · rintro ⟨hne, hlt, hg, -⟩ t (ht | rfl)
        · exact hne t ht
        · rintro rfl
          rw [gapOf_zero] at hg
          have := BitVec.lt_def.1 hlt
          simp at hg this
          omega
      · intro h
        have h0 : l ≠ 0 := h l (.inr rfl)
        have hlt : l < pi.epochStartTs := hl.resolve_left h0
        have hg := toNat_gapOf h0 hlt
        exact ⟨fun t ht => h t (.inl ht), hlt, hg, by rw [hg]⟩

theorem run (h0 : Deployed keccak s) (d : U64) (txs : List Tx) :
    DeviceInv d (epochsOf keccak s txs d) (Runs.run (exec keccak) s txs) := by
  refine Runs.run_induction
    (P := fun txs s' => DeviceInv d (epochsOf keccak s txs d) s') ?_ (fun txs t ih => ?_) txs
  · refine same ⟨rfl, rfl, ?_⟩ h0.same
    exact ⟨fun _ t ht => absurd ht (List.not_mem_nil), fun _ => .nil⟩
  · have hcat : epochsOf keccak s (txs ++ [t]) d = epochsOf keccak s txs d ++
        (((acceptedInputs keccak (Runs.run (exec keccak) s txs, t)).toList.filter (·.deviceId = d)).map
          (·.epochStartTs)) := by
      rw [epochsOf, submissions_concat, List.filter_append, List.map_append, epochsOf]
    rw [hcat]
    rcases exec_cases (Runs.run (exec keccak) s txs) t with ⟨a, -, ha, he, hin⟩ | ⟨hin, he⟩
    · rw [hin, he]
      by_cases hd : a.pubInputs.deviceId = d
      · simp only [Option.toList_some, List.filter_singleton, hd, decide_true, cond_true, List.map_singleton]
        exact ih.accepted hd (hd ▸ ha.later)
      · simp only [Option.toList_some, List.filter_singleton, hd, decide_false, cond_false, List.map_nil,
          List.append_nil]
        exact ih.accepted_of_ne hd
    · rw [hin]
      simp only [Option.toList_none, List.filter_nil, List.map_nil, List.append_nil]
      exact ih.same he

end DeviceInv

/-- A device's epochs are in order and its gaps exact if and only if none of its accepted submissions
but the last has epoch 0. -/
theorem timeOrdered_iff (h0 : Deployed keccak s) (txs : List Tx) (d : U64) :
    TimeOrdered (epochsOf keccak s txs d) (eventsOf (Runs.run (exec keccak) s txs) (bytes32OfU64 d)) ↔
      ∀ t ∈ (epochsOf keccak s txs d).dropLast, t ≠ 0 :=
  (DeviceInv.run h0 d txs).ordered

open TestChain in
theorem timeOrdered_iff_sample :
    epochsOf packKeccak (deployed chainA) replayed 7 = [100, 300000] ∧
    TimeOrdered (epochsOf packKeccak (deployed chainA) replayed 7)
      (eventsOf (Runs.run (exec packKeccak) (deployed chainA) replayed) (bytes32OfU64 7)) := by
  have he : epochsOf packKeccak (deployed chainA) replayed 7 = [100, 300000] := by decide +kernel
  refine ⟨he, (timeOrdered_iff (deployed_deployed chainA) replayed 7).2 ?_⟩
  rw [he]
  simp

open TestChain in
/-- The second submission with epoch 0 finds the stored 0 and is not compared with it. -/
theorem timeOrdered_fails_after_zero :
    Deployed packKeccak (deployed chainA) ∧ epochsOf packKeccak (deployed chainA) zeroTwice 7 = [0, 0] ∧
    ¬ TimeOrdered (epochsOf packKeccak (deployed chainA) zeroTwice 7)
      (eventsOf (Runs.run (exec packKeccak) (deployed chainA) zeroTwice) (bytes32OfU64 7)) := by
  have he : epochsOf packKeccak (deployed chainA) zeroTwice 7 = [0, 0] := by decide +kernel
  refine ⟨deployed_deployed chainA, he, ?_⟩
  intro h
  have hi := h.increasing
  rw [he] at hi
  exact absurd (List.isChain_cons_cons.1 hi).1 (by decide)

end V3
end InfraVeritas
