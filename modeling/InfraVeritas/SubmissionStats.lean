import InfraVeritas.DeviceMirror
import InfraVeritas.V3Log
import Mathlib.Algebra.BigOperators.Ring.Finset

/-!
# The subgraph counts the submissions

`Logged` ties a store to the `ProofSubmitted` events replayed so far: one `Submission` an event, the two
totals, and a `DailyStat` for each device and day that has an event. `Logged.proof` is the step of the
handler. That no event overwrites the `Submission` of another rests on the used session keys of the contract.
-/

namespace InfraVeritas
open V3 (proofs)

namespace Subgraph

def dayOf (x : EventContext × ProofSubmitted) : Nat := getDayStartTs x.1.blockTimestamp

def dailyIdOf (x : EventContext × ProofSubmitted) : String := makeDailyStatId (dayOf x) (toHexString x.2.deviceId)

/-- One more submission in a `DailyStat`. -/
def DailyStat.bump (flag : Bool) (d : DailyStat) : DailyStat :=
  { d with
    submissionCount := d.submissionCount + 1
    postDisconnectionCount := d.postDisconnectionCount + if flag then 1 else 0 }

theorem handleProofSubmitted_eq (cx : EventContext) (s : Store) (e : ProofSubmitted) :
    handleProofSubmitted cx s e =
      { s with
        submissions := Keyed.save Submission.id s.submissions (submissionOf cx e)
        dailyStats := Keyed.save DailyStat.id s.dailyStats (DailyStat.bump e.postDisconnection
          ((s.dailyStat (dailyIdOf (cx, e))).getD ⟨dailyIdOf (cx, e), dayOf (cx, e), e.deviceId, 0, 0⟩))
        protocol := some { loadOrCreateProtocol s with
          totalSubmissions := (loadOrCreateProtocol s).totalSubmissions + 1
          totalPostDisconnections :=
            (loadOrCreateProtocol s).totalPostDisconnections + if e.postDisconnection then 1 else 0 } } := by
  unfold handleProofSubmitted DailyStat.bump dailyIdOf dayOf
  cases e.postDisconnection <;> simp

theorem length_concat_bits {α : Type} (es : List α) (x : α) :
    BitVec.ofNat 32 (es ++ [x]).length = BitVec.ofNat 32 es.length + 1 := by
  rw [List.length_append, List.length_singleton, BitVec.ofNat_add]
  rfl

theorem countP_concat_bits {α : Type} (es : List α) (x : α) (p : α → Bool) :
    BitVec.ofNat 32 ((es ++ [x]).countP p) = BitVec.ofNat 32 (es.countP p) + if p x then 1 else 0 := by
  rw [List.countP_append, List.countP_singleton, BitVec.ofNat_add]
  split <;> rfl

/-! ### One row of `DailyStat` -/

variable {es : List (EventContext × ProofSubmitted)} {x : EventContext × ProofSubmitted} {d : DailyStat} {s s' : Store}

/-- `d` is the row of its id after the events `es`. -/
structure StatOf (es : List (EventContext × ProofSubmitted)) (d : DailyStat) : Prop where
  row : ∃ x ∈ es, d.id = dailyIdOf x ∧ d.dayStartTs = dayOf x ∧ d.deviceIdBytes = x.2.deviceId
  count : d.submissionCount = BitVec.ofNat 32 (es.countP (dailyIdOf · = d.id))
  flagged : d.postDisconnectionCount = BitVec.ofNat 32 (es.countP fun x => dailyIdOf x = d.id && x.2.postDisconnection)

namespace StatOf

theorem concat_of_ne (hd : StatOf es d) (hne : dailyIdOf x ≠ d.id) : StatOf (es ++ [x]) d := by
  obtain ⟨y, hy, hrow⟩ := hd.row
  refine ⟨⟨y, List.mem_append_left _ hy, hrow⟩, ?_, ?_⟩
  · rw [countP_concat_bits, ← hd.count]
    simp [hne]
  · rw [countP_concat_bits, ← hd.flagged]
    simp [hne]

theorem concat_bump (hd : StatOf es d) (heq : dailyIdOf x = d.id) :
    StatOf (es ++ [x]) (d.bump x.2.postDisconnection) := by
  obtain ⟨y, hy, hrow⟩ := hd.row
  refine ⟨⟨y, List.mem_append_left _ hy, hrow⟩, ?_, ?_⟩
  · show d.submissionCount + 1 = BitVec.ofNat 32 ((es ++ [x]).countP (dailyIdOf · = d.id))
    rw [countP_concat_bits, ← hd.count]
    simp [heq]
  · show d.postDisconnectionCount + _ =
      BitVec.ofNat 32 ((es ++ [x]).countP fun x => dailyIdOf x = d.id && x.2.postDisconnection)
    rw [countP_concat_bits, ← hd.flagged]
    simp [heq]

theorem new (hx : dailyIdOf x ∉ es.map dailyIdOf) :
    StatOf (es ++ [x]) (DailyStat.bump x.2.postDisconnection ⟨dailyIdOf x, dayOf x, x.2.deviceId, 0, 0⟩) := by
  have hnone : ∀ p : EventContext × ProofSubmitted → Bool,
      es.countP (fun y => dailyIdOf y = dailyIdOf x && p y) = 0 := by
    intro p
    rw [List.countP_eq_zero]
    intro y hy hp
    have heq : dailyIdOf y = dailyIdOf x := by
      rw [Bool.and_eq_true] at hp
      exact of_decide_eq_true hp.1
    exact hx (heq ▸ List.mem_map_of_mem hy)
  refine ⟨⟨x, List.mem_append_right _ (List.mem_singleton_self x), rfl, rfl, rfl⟩, ?_, ?_⟩
  · show (0 : I32) + 1 = BitVec.ofNat 32 ((es ++ [x]).countP (dailyIdOf · = dailyIdOf x))
    have hcount := hnone fun _ => true
    simp only [Bool.and_true] at hcount
    rw [countP_concat_bits, hcount]
    simp
  · show (0 : I32) + _ =
      BitVec.ofNat 32 ((es ++ [x]).countP fun y => dailyIdOf y = dailyIdOf x && y.2.postDisconnection)
    rw [countP_concat_bits, hnone]
    simp

end StatOf

/-! ### The rows -/

/-- The rows after the events `es`: one for each id that an event has. -/
structure Daily (es : List (EventContext × ProofSubmitted)) (ds : List DailyStat) : Prop where
  ids : (ds.map DailyStat.id).Nodup
  seen : ∀ x ∈ es, dailyIdOf x ∈ ds.map DailyStat.id
  stats : ∀ d ∈ ds, StatOf es d

namespace Daily
variable {ds : List DailyStat}

theorem of_new (hs : Daily es ds) (hx : dailyIdOf x ∉ ds.map DailyStat.id) :
    Daily (es ++ [x]) (ds ++ [DailyStat.bump x.2.postDisconnection ⟨dailyIdOf x, dayOf x, x.2.deviceId, 0, 0⟩]) := by
  refine ⟨?_, ?_, ?_⟩
  · rw [List.map_append, List.nodup_append]
    refine ⟨hs.ids, List.nodup_singleton _, ?_⟩
    rintro a ha b hb rfl
    have heq : a = dailyIdOf x := List.mem_singleton.1 hb
    exact hx (heq ▸ ha)
  · intro y hy
    rw [List.map_append, List.mem_append]
    rcases List.mem_append.1 hy with hy | hy
    · exact .inl (hs.seen y hy)
    · rw [List.mem_singleton.1 hy]
      exact .inr (List.mem_singleton_self _)
  · intro d hd
    rcases List.mem_append.1 hd with hd | hd
    · have hne : dailyIdOf x ≠ d.id := fun heq => hx (heq ▸ List.mem_map_of_mem hd)
      exact (hs.stats d hd).concat_of_ne hne
    · rw [List.mem_singleton.1 hd]
      refine .new ?_
      intro hmem
      obtain ⟨y, hy, heq⟩ := List.mem_map.1 hmem
      exact hx (heq ▸ hs.seen y hy)

theorem of_bump (hs : Daily es ds) (hx : dailyIdOf x ∈ ds.map DailyStat.id) :
    Daily (es ++ [x]) (Keyed.modify DailyStat.id ds (dailyIdOf x) (DailyStat.bump x.2.postDisconnection)) := by
  have hkeys := @Keyed.map_key_modify _ _ _ DailyStat.id ds (dailyIdOf x) (DailyStat.bump x.2.postDisconnection)
    fun _ => rfl
  refine ⟨?_, ?_, ?_⟩
  · rw [hkeys]
    exact hs.ids
  · intro y hy
    rw [hkeys]
    rcases List.mem_append.1 hy with hy | hy
    · exact hs.seen y hy
    · rw [List.mem_singleton.1 hy]
      exact hx
  · intro d hd
    obtain ⟨d', hd', rfl⟩ := Keyed.mem_modify hd
    split
    · next heq => exact (hs.stats d' hd').concat_bump heq.symm
    · next hne => exact (hs.stats d' hd').concat_of_ne (Ne.symm hne)

theorem concat (hs : Daily es ds) : Daily (es ++ [x]) (Keyed.save DailyStat.id ds (DailyStat.bump x.2.postDisconnection
    ((Keyed.find DailyStat.id ds (dailyIdOf x)).getD ⟨dailyIdOf x, dayOf x, x.2.deviceId, 0, 0⟩))) := by
  rcases hd : Keyed.find DailyStat.id ds (dailyIdOf x) with _ | d
  · have hnew := hs.of_new (Keyed.find_eq_none_iff.1 hd)
    rwa [← @Keyed.save_of_none _ _ _ DailyStat.id ds _ hd] at hnew
  · have hkey : d.id = dailyIdOf x := Keyed.key_of_find hd
    rw [Option.getD_some, Keyed.save_eq_modify hs.ids hd hkey]
    exact hs.of_bump (hkey ▸ List.mem_map_of_mem (Keyed.mem_of_find hd))

end Daily

/-! ### The store after some events -/

structure Logged (es : List (EventContext × ProofSubmitted)) (s : Store) : Prop where
  submissions : s.submissions = es.map fun x => submissionOf x.1 x.2
  total : (loadOrCreateProtocol s).totalSubmissions = BitVec.ofNat 32 es.length
  flagged : (loadOrCreateProtocol s).totalPostDisconnections = BitVec.ofNat 32 (es.countP (·.2.postDisconnection))
  daily : Daily es s.dailyStats

/-- `s'` differs from `s` in nothing that `handleProofSubmitted` writes. -/
structure SameProofs (s s' : Store) : Prop where
  submissions : s'.submissions = s.submissions
  dailyStats : s'.dailyStats = s.dailyStats
  total : (loadOrCreateProtocol s').totalSubmissions = (loadOrCreateProtocol s).totalSubmissions
  flagged : (loadOrCreateProtocol s').totalPostDisconnections = (loadOrCreateProtocol s).totalPostDisconnections

theorem handleStatus_same (s : Store) (h : Bytes32) (update : Device → Device) {count : Status → Protocol → Protocol}
    (hc : ∀ st p, (count st p).totalSubmissions = p.totalSubmissions ∧
      (count st p).totalPostDisconnections = p.totalPostDisconnections) :
    SameProofs s (handleStatus s h update count) := by
  unfold handleStatus
  split
  · exact ⟨rfl, rfl, rfl, rfl⟩
  · exact ⟨rfl, rfl, (hc _ _).1, (hc _ _).2⟩

theorem handle_device_same (cx : EventContext) (s : Store) (e : RegistryEvent) :
    SameProofs s (handle s ⟨cx, .device e⟩) := by
  cases e with
  | deviceRegistered h lat lon at_ operator =>
    show SameProofs s (handleDeviceRegistered s h lat lon at_ operator)
    rcases hd : s.device (toHexString h) with _ | d
    · rw [handleDeviceRegistered_of_none lat lon at_ operator hd]
      exact ⟨rfl, rfl, rfl, rfl⟩
    · simp only [handleDeviceRegistered, hd]
      exact ⟨rfl, rfl, rfl, rfl⟩
  | deviceRevoked h operator =>
    show SameProofs s (handleDeviceRevoked cx s h)
    rw [handleDeviceRevoked]
    refine handleStatus_same s h _ ?_
    intro st p
    cases st <;> exact ⟨rfl, rfl⟩
  | deviceReactivated h operator =>
    show SameProofs s (handleDeviceReactivated cx s h)
    rw [handleDeviceReactivated]
    refine handleStatus_same s h _ ?_
    intro st p
    cases st <;> exact ⟨rfl, rfl⟩
  | deviceSuspended h operator =>
    show SameProofs s (handleDeviceSuspended cx s h)
    rw [handleDeviceSuspended]
    refine handleStatus_same s h _ ?_
    intro st p
    cases st <;> exact ⟨rfl, rfl⟩
  | oz e => exact ⟨rfl, rfl, rfl, rfl⟩

namespace Logged

theorem empty : Logged [] Subgraph.empty :=
  ⟨rfl, rfl, rfl, List.nodup_nil, fun _ hx => absurd hx List.not_mem_nil, fun _ hd => absurd hd List.not_mem_nil⟩

theorem same (hs : Logged es s) (h : SameProofs s s') : Logged es s' := by
  refine ⟨?_, ?_, ?_, ?_⟩
  · rw [h.submissions, hs.submissions]
  · rw [h.total, hs.total]
  · rw [h.flagged, hs.flagged]
  · rw [h.dailyStats]
    exact hs.daily

theorem proof (hs : Logged es s) (hnew : ∀ y ∈ es, y.2.sessionKey ≠ x.2.sessionKey) :
    Logged (es ++ [x]) (handleProofSubmitted x.1 s x.2) := by
  rw [handleProofSubmitted_eq]
  have hsub : Keyed.find Submission.id s.submissions (submissionOf x.1 x.2).id = none := by
    rw [Keyed.find_eq_none_iff, hs.submissions, List.map_map, List.mem_map]
    rintro ⟨y, hy, heq⟩
    exact hnew y hy (toHexString_inj.1 heq)
  refine ⟨?_, ?_, ?_, hs.daily.concat⟩
  · rw [Keyed.save_of_none hsub, hs.submissions, List.map_append, List.map_singleton]
  · show (loadOrCreateProtocol s).totalSubmissions + 1 = _
    rw [hs.total, length_concat_bits]
  · show (loadOrCreateProtocol s).totalPostDisconnections + _ = _
    rw [hs.flagged, countP_concat_bits]

theorem run (stream : List Entry) (hn : ((proofEntries stream).map (·.2.sessionKey)).Nodup) :
    Logged (proofEntries stream) (replay stream) := by
  induction stream using List.reverseRecOn with
  | nil => exact .empty
  | append_singleton xs x ih =>
    rw [replay_concat]
    have hcat : proofEntries (xs ++ [x]) = proofEntries xs ++ (proofEntry x).toList := by
      rw [proofEntries, List.filterMap_append, proofEntries]
      cases h : proofEntry x <;> simp [h]
    rw [hcat, List.map_append, List.nodup_append] at hn
    rw [hcat]
    have hs := ih hn.1
    obtain ⟨cx, e | e⟩ := x
    · show Logged (proofEntries xs ++ []) _
      rw [List.append_nil]
      exact hs.same (handle_device_same cx _ e)
    · refine hs.proof (x := (cx, e)) ?_
      intro y hy heq
      exact hn.2.2 _ (List.mem_map_of_mem hy) _ (List.mem_singleton_self _) heq

end Logged

/-! ### Days -/

/-- The events of device `d` in the UTC day that begins at `86400 * day`. -/
def onDay (es : List (EventContext × ProofSubmitted)) (d : Bytes32) (day : Nat) : List (EventContext × ProofSubmitted) :=
  es.filter fun x => x.2.deviceId = d ∧ 86400 * day ≤ x.1.blockTimestamp ∧ x.1.blockTimestamp < 86400 * day + 86400

def statId (d : Bytes32) (day : Nat) : String := makeDailyStatId (86400 * day) (toHexString d)

theorem dailyIdOf_eq_iff {d : Bytes32} {day : Nat} : dailyIdOf x = statId d day ↔
    x.2.deviceId = d ∧ 86400 * day ≤ x.1.blockTimestamp ∧ x.1.blockTimestamp < 86400 * day + 86400 := by
  rw [dailyIdOf, statId, makeDailyStatId_inj, toHexString_inj, dayOf, getDayStartTs, SECONDS_PER_DAY, and_comm]
  refine and_congr_right fun _ => ?_
  omega

theorem countP_dailyIdOf (es : List (EventContext × ProofSubmitted)) (d : Bytes32) (day : Nat)
    (p : EventContext × ProofSubmitted → Bool) :
    es.countP (fun x => dailyIdOf x = statId d day && p x) = (onDay es d day).countP p := by
  rw [onDay, List.countP_filter]
  refine List.countP_congr ?_
  intro x _
  simp [dailyIdOf_eq_iff, and_comm]

/-- What the subgraph says about one device and day. -/
structure Counted (es : List (EventContext × ProofSubmitted)) (d : Bytes32) (day : Nat) (stat : DailyStat) : Prop where
  dayStartTs : stat.dayStartTs = 86400 * day
  deviceIdBytes : stat.deviceIdBytes = d
  count : stat.submissionCount.toInt = (onDay es d day).length
  flagged : stat.postDisconnectionCount.toInt = (onDay es d day).countP (·.2.postDisconnection)

theorem StatOf.counted {d : Bytes32} {day : Nat} {stat : DailyStat} (hs : StatOf es stat) (hid : stat.id = statId d day)
    (hlt : es.length < 2 ^ 31) : Counted es d day stat := by
  obtain ⟨x, -, hx, hday, hdev⟩ := hs.row
  obtain ⟨hd, hlo, hhi⟩ := dailyIdOf_eq_iff.1 (hx.symm.trans hid)
  have hlen : ∀ p, (onDay es d day).countP p ≤ es.length := fun p =>
    List.countP_le_length.trans (List.length_filter_le _ es)
  have hall := hlen fun _ => true
  rw [List.countP_true] at hall
  refine ⟨?_, hdev.trans hd, ?_, ?_⟩
  · rw [hday, dayOf, getDayStartTs, SECONDS_PER_DAY]
    omega
  · have hcount := countP_dailyIdOf es d day fun _ => true
    simp only [Bool.and_true, List.countP_true] at hcount
    rw [hs.count, hid, hcount, toInt_ofNat32 (by omega)]
  · have hle := hlen fun x => x.2.postDisconnection
    rw [hs.flagged, hid, countP_dailyIdOf, toInt_ofNat32 (by omega)]

/-! ### The totals -/

theorem Daily.sums {ds : List DailyStat} (hs : Daily es ds) (hlt : es.length < 2 ^ 31) :
    (ds.map fun d => d.submissionCount.toInt).sum = es.length ∧
    (ds.map fun d => d.postDisconnectionCount.toInt).sum = es.countP (·.2.postDisconnection) := by
  have hsum : ∀ (p : EventContext × ProofSubmitted → Bool) (count : DailyStat → I32),
      (∀ d ∈ ds, count d = BitVec.ofNat 32 (es.countP fun x => dailyIdOf x = d.id && p x)) →
      (ds.map fun d => (count d).toInt).sum = es.countP p := by
    intro p count hcount
    have hrows := Keyed.sum_countP (g := dailyIdOf) hs.ids p hs.seen
    rw [← hrows, List.map_map, Nat.cast_list_sum, List.map_map]
    refine congrArg List.sum (List.map_congr_left fun d hd => ?_)
    have hle := List.countP_le_length (l := es) (p := fun x => dailyIdOf x = d.id && p x)
    rw [hcount d hd, toInt_ofNat32 (by omega)]
    rfl
  constructor
  · rw [hsum (fun _ => true) DailyStat.submissionCount, List.countP_true]
    intro d hd
    simp only [Bool.and_true]
    exact (hs.stats d hd).count
  · exact hsum _ DailyStat.postDisconnectionCount fun d hd => (hs.stats d hd).flagged

/-- What a client of the subgraph sees after the events `es` of the proxy in state `r`. -/
structure Aggregates (r : V3State) (es : List (EventContext × ProofSubmitted)) (s : Store) : Prop where
  submissions : s.submissions = es.map fun x => submissionOf x.1 x.2
  ids : (s.submissions.map Submission.id).Nodup
  total : (loadOrCreateProtocol s).totalSubmissions.toInt = (proofs r).length
  used : (loadOrCreateProtocol s).totalSubmissions.toInt = {k | r.usedSessionKeys k = true}.ncard
  flagged : (loadOrCreateProtocol s).totalPostDisconnections.toInt = (proofs r).countP (·.postDisconnection)
  statIds : (s.dailyStats.map DailyStat.id).Nodup
  counted : ∀ stat ∈ s.dailyStats, ∃ d day, stat.id = statId d day
  absent : ∀ d day, s.dailyStat (statId d day) = none ↔ onDay es d day = []
  daily : ∀ d day stat, s.dailyStat (statId d day) = some stat → Counted es d day stat
  sums : (s.dailyStats.map fun stat => stat.submissionCount.toInt).sum = (loadOrCreateProtocol s).totalSubmissions.toInt ∧
    (s.dailyStats.map fun stat => stat.postDisconnectionCount.toInt).sum =
      (loadOrCreateProtocol s).totalPostDisconnections.toInt

theorem Logged.aggregates {keccak : Bytes → Bytes32} {r : V3State} (hs : Logged es s) (hr : V3.LogInv keccak r)
    (hes : es.map (·.2) = proofs r) (hlt : (proofs r).length < 2 ^ 31) : Aggregates r es s := by
  have hlen : es.length = (proofs r).length := by rw [← hes, List.length_map]
  have htotal : (loadOrCreateProtocol s).totalSubmissions.toInt = es.length := by
    rw [hs.total, toInt_ofNat32 (hlen ▸ hlt)]
  have hflagged : (loadOrCreateProtocol s).totalPostDisconnections.toInt = es.countP (·.2.postDisconnection) := by
    have hle := List.countP_le_length (l := es) (p := fun x => x.2.postDisconnection)
    rw [hs.flagged, toInt_ofNat32 (by omega)]
  have hused : {k | r.usedSessionKeys k = true} = (((proofs r).map (·.sessionKey)).toFinset : Set Bytes32) := by
    ext k
    simp [hr.used]
  refine ⟨hs.submissions, ?_, ?_, ?_, ?_, hs.daily.ids, fun stat hstat => ?_, fun d day => ?_, fun d day stat hstat => ?_,
    ?_⟩
  · rw [hs.submissions, List.map_map]
    have hkeys : (es.map fun x => x.2.sessionKey) = (proofs r).map (·.sessionKey) := by
      rw [← hes, List.map_map]
      rfl
    have hid := (hkeys ▸ hr.nodup).map fun k k' => (@toHexString_inj k k').1
    rwa [List.map_map] at hid
  · rw [htotal, hlen]
  · rw [htotal, hlen, hused, Set.ncard_coe_finset, List.toFinset_card_of_nodup hr.nodup, List.length_map]
  · rw [hflagged, ← hes, List.countP_map]
    rfl
  · obtain ⟨x, -, hid, -⟩ := (hs.daily.stats stat hstat).row
    refine ⟨x.2.deviceId, x.1.blockTimestamp / 86400, ?_⟩
    rw [hid, dailyIdOf_eq_iff]
    exact ⟨rfl, by omega, by omega⟩
  · rw [Store.dailyStat, Keyed.find_eq_none_iff, onDay, List.filter_eq_nil_iff]
    constructor
    · intro hno x hx hday
      have hid := dailyIdOf_eq_iff.2 (of_decide_eq_true hday)
      exact hno (hid ▸ hs.daily.seen x hx)
    · intro hno hmem
      obtain ⟨stat, hstat, hid⟩ := List.mem_map.1 hmem
      obtain ⟨x, hx, hrow, -⟩ := (hs.daily.stats stat hstat).row
      exact hno x hx (decide_eq_true (dailyIdOf_eq_iff.1 (hrow.symm.trans hid)))
  · have hid : stat.id = statId d day := Keyed.key_of_find hstat
    exact (hs.daily.stats stat (Keyed.mem_of_find hstat)).counted hid (hlen ▸ hlt)
  · rw [htotal, hflagged]
    exact hs.daily.sums (hlen ▸ hlt)

theorem submissions_aggregated {keccak : Bytes → Bytes32} {r : V3State} (h0 : V3.Deployed keccak r) (txs : List V3.Tx)
    {stream : List Entry}
    (hstream : (proofEntries stream).map (·.2) = proofs (Runs.run (V3.exec keccak) r txs))
    (hcount : (proofs (Runs.run (V3.exec keccak) r txs)).length < 2 ^ 31) :
    Aggregates (Runs.run (V3.exec keccak) r txs) (proofEntries stream) (replay stream) ∧
    ∀ dayStart dayStart' d d', makeDailyStatId dayStart (toHexString d) = makeDailyStatId dayStart' (toHexString d') →
      dayStart = dayStart' ∧ d = d' := by
  have hr := V3.LogInv.run h0 txs
  refine ⟨?_, ?_⟩
  · refine (Logged.run stream ?_).aggregates hr hstream hcount
    have hn := hr.nodup
    rwa [← hstream, List.map_map] at hn
  · intro dayStart dayStart' d d' h
    obtain ⟨hday, hdev⟩ := makeDailyStatId_inj.1 h
    exact ⟨hday, toHexString_inj.1 hdev⟩

namespace SampleStream
open V3.TestChain

/-- The two accepted submissions of `replayed`, a day apart, with a device event before each. -/
def submitted : List Entry :=
  ((proofs (Runs.run (V3.exec packKeccak) (V3.TestChain.deployed chainA) replayed)).zip [1000, 90000]).flatMap fun (e, time) =>
    [deviceEntry (.deviceSuspended 7 1), ⟨⟨1, time, 0⟩, .proof e⟩]

end SampleStream

open SampleStream V3.TestChain in
theorem submissions_aggregated_sample :
    V3.Deployed packKeccak (deployed chainA) ∧
    (proofEntries submitted).map (·.2) = proofs (Runs.run (V3.exec packKeccak) (deployed chainA) replayed) ∧
    (proofs (Runs.run (V3.exec packKeccak) (deployed chainA) replayed)).length = 2 ∧
    Aggregates (Runs.run (V3.exec packKeccak) (deployed chainA) replayed) (proofEntries submitted) (replay submitted) := by
  have h0 := deployed_deployed chainA
  have hstream : (proofEntries submitted).map (·.2) =
      proofs (Runs.run (V3.exec packKeccak) (deployed chainA) replayed) := by decide +kernel
  have hlen : (proofs (Runs.run (V3.exec packKeccak) (deployed chainA) replayed)).length = 2 := by decide +kernel
  exact ⟨h0, hstream, hlen, (submissions_aggregated h0 replayed hstream (by omega)).1⟩

end Subgraph
end InfraVeritas
