import InfraVeritas.V3Admin
import InfraVeritas.V3Log

/-!
# Devices do not influence each other

`Agrees K D s s'` compares two states as far as the session keys `K` and the devices `D` are concerned;
the rest of the storage is the same. `Agrees.call` carries it through a call that both states get,
`Agrees.other` through a submission of another device that only one of them gets. Deleting the submissions
of other devices and swapping neighbours follow by induction over the run.
-/

namespace InfraVeritas
open Checks

namespace V3
variable {keccak : Bytes → Bytes32} {env : Env} {s s' x : V3State} {a : SubmitArgs} {K D : Set Bytes32}

/-- `s` with the submissions and the log of `x`. -/
def graft (x s : V3State) : V3State :=
  { s with
    usedSessionKeys := x.usedSessionKeys
    lastSubmissionTimestamp := x.lastSubmissionTimestamp
    log := x.log }

/-- Whether the event is no submission of a device other than `d`. -/
def ownEvent (d : Bytes32) : V3Event → Bool
  | .proofSubmitted e => e.deviceId = d
  | _ => true

def ownLog (d : Bytes32) (s : V3State) : List V3Event := s.log.filter (ownEvent d)

structure Agrees (K D : Set Bytes32) (s s' : V3State) : Prop where
  frame : s' = graft s' s
  used : ∀ k ∈ K, s'.usedSessionKeys k = s.usedSessionKeys k
  last : ∀ d ∈ D, s'.lastSubmissionTimestamp d = s.lastSubmissionTimestamp d
  log : ∀ d ∈ D, ownLog d s' = ownLog d s

/-- A submission is about the keys `K` and the devices `D`. -/
def Within (keccak : Bytes → Bytes32) (K D : Set Bytes32) (c : Call) : Prop :=
  ∀ a, c = .submitProof a →
    sessionKey keccak a.pubInputs.deviceId a.pubInputs.sessionId ∈ K ∧ bytes32OfU64 a.pubInputs.deviceId ∈ D

theorem ownLog_emit (d : Bytes32) (s : V3State) (es : List V3Event) :
    ownLog d (emit s es) = ownLog d s ++ es.filter (ownEvent d) := List.filter_append ..

namespace Agrees

theorem refl (s : V3State) : Agrees K D s s := ⟨rfl, fun _ _ => rfl, fun _ _ => rfl, fun _ _ => rfl⟩

theorem emit (h : Agrees K D s s') (es : List V3Event) : Agrees K D (V3.emit s es) (V3.emit s' es) := by
  refine ⟨?_, h.used, h.last, ?_⟩
  · conv_lhs => rw [h.frame]
    rfl
  · intro d hd
    rw [ownLog_emit, ownLog_emit, h.log d hd]

/-- A change of the rest of the storage. -/
theorem map (h : Agrees K D s s') {f : V3State → V3State} (hf : ∀ x s, f (graft x s) = graft x (f s)) :
    Agrees K D (f s) (f s') := by
  have hs : f s = graft s (f s) := hf s s
  have hs' : f s' = graft s' (f s) := by
    conv_lhs => rw [h.frame]
    exact hf s' s
  refine ⟨?_, ?_, ?_, ?_⟩
  · rw [hs']
    rfl
  · intro k hk
    rw [hs, hs']
    exact h.used k hk
  · intro d hd
    rw [hs, hs']
    exact h.last d hd
  · intro d hd
    rw [hs, hs']
    exact h.log d hd

/-! ### The administrative functions -/

theorem pause (h : Agrees K D s (graft x s)) :
    SameResult (Agrees K D) (V3.pause keccak env s) (V3.pause keccak env (graft x s)) :=
  .bind _ fun _ => .bind _ fun (paused, _) =>
    .ok ((h.map (f := fun s => { s with paused := paused }) fun _ _ => rfl).emit _)

theorem unpause (h : Agrees K D s (graft x s)) :
    SameResult (Agrees K D) (V3.unpause env s) (V3.unpause env (graft x s)) :=
  .bind _ fun _ => .bind _ fun (paused, _) =>
    .ok ((h.map (f := fun s => { s with paused := paused }) fun _ _ => rfl).emit _)

theorem setRoles (h : Agrees K D s (graft x s)) (r : Except OZError (Roles × List OZEvent)) :
    SameResult (Agrees K D) (V3.setRoles s r) (V3.setRoles (graft x s) r) :=
  .bind _ fun (roles, _) => .ok ((h.map (f := fun s => { s with roles := roles }) fun _ _ => rfl).emit _)

theorem setContract (h : Agrees K D s (graft x s)) {old new : Address} {update : V3State → Address → V3State}
    {changed : Address → Address → V3Event} (hu : ∀ x s, update (graft x s) new = graft x (update s new)) :
    SameResult (Agrees K D) (V3.setContract env s old update changed new)
      (V3.setContract env (graft x s) old update changed new) :=
  .bind _ fun _ => .bind _ fun _ => .bind _ fun _ => .ok ((h.map (f := fun s => update s new) hu).emit _)

theorem cacheDomainSeparator (h : Agrees K D s s') (keccak : Bytes → Bytes32) (env : Env) :
    Agrees K D (V3.cacheDomainSeparator keccak env s) (V3.cacheDomainSeparator keccak env s') :=
  (h.map (f := fun s => { s with
    cachedChainId := env.chainid
    cachedDomainSeparator := buildDomainSeparator keccak env }) fun _ _ => rfl).emit _

theorem grantRoleInternal (h : Agrees K D s s') (env : Env) (role : Bytes32) (account : Address) :
    Agrees K D (V3.grantRoleInternal env s role account) (V3.grantRoleInternal env s' role account) := by
  have hroles : s'.roles = (graft s' s).roles := congrArg V3State.roles h.frame
  rw [show (graft s' s).roles = s.roles from rfl] at hroles
  unfold V3.grantRoleInternal
  rw [hroles]
  exact (h.map (f := fun s' => { s' with roles := _ }) fun _ _ => rfl).emit _

theorem initializeBody (h : Agrees K D s s') (keccak : Bytes → Bytes32) (env : Env)
    (admin registry p256 honk : Address) :
    Agrees K D (V3.initializeBody keccak env s admin registry p256 honk)
      (V3.initializeBody keccak env s' admin registry p256 honk) := by
  have h₁ := h.map (f := fun s => { s with paused := false, reentrancyStatus := ReentrancyGuard.NOT_ENTERED })
    fun _ _ => rfl
  have h₂ := h₁.grantRoleInternal env AccessControl.DEFAULT_ADMIN_ROLE admin
  have h₃ := h₂.grantRoleInternal env (UPGRADER_ROLE keccak) admin
  have h₄ := h₃.map (f := fun s => { s with deviceRegistry := registry, p256Verifier := p256, honkVerifier := honk })
    fun _ _ => rfl
  exact h₄.cacheDomainSeparator keccak env

theorem initializeProxy (h : Agrees K D s (graft x s)) (admin registry p256 honk : Address) :
    SameResult (Agrees K D) (V3.initializeProxy keccak env s admin registry p256 honk)
      (V3.initializeProxy keccak env (graft x s) admin registry p256 honk) := by
  refine .bind _ fun init => .bind _ fun _ => .bind _ fun _ => .bind _ fun _ => .bind _ fun _ => .ok ?_
  have h₁ := h.map (f := fun s => { s with initializable := init }) fun _ _ => rfl
  have h₂ := h₁.initializeBody keccak env admin registry p256 honk
  exact (h₂.map (f := fun s => { s with initializable := { s.initializable with initializing := false } })
    fun _ _ => rfl).emit _

theorem reinitializeEIP712 (h : Agrees K D s (graft x s)) :
    SameResult (Agrees K D) (V3.reinitializeEIP712 keccak env s) (V3.reinitializeEIP712 keccak env (graft x s)) := by
  refine .bind _ fun init => .bind _ fun _ => .ok ?_
  have h₁ := h.map (f := fun s => { s with initializable := init }) fun _ _ => rfl
  have h₂ := h₁.cacheDomainSeparator keccak env
  exact (h₂.map (f := fun s => { s with initializable := { s.initializable with initializing := false } })
    fun _ _ => rfl).emit _

/-! ### Submissions -/

/-- What `submitProof` writes. -/
theorem record (h : Agrees K D s s') (k₀ d₀ : Bytes32) (t : U64) (e : ProofSubmitted) :
    Agrees K D
      { s with
        usedSessionKeys := Function.update s.usedSessionKeys k₀ true
        lastSubmissionTimestamp := Function.update s.lastSubmissionTimestamp d₀ t
        reentrancyStatus := ReentrancyGuard.NOT_ENTERED
        log := s.log ++ [.proofSubmitted e] }
      { s' with
        usedSessionKeys := Function.update s'.usedSessionKeys k₀ true
        lastSubmissionTimestamp := Function.update s'.lastSubmissionTimestamp d₀ t
        reentrancyStatus := ReentrancyGuard.NOT_ENTERED
        log := s'.log ++ [.proofSubmitted e] } := by
  refine ⟨?_, ?_, ?_, ?_⟩
  · conv_lhs => rw [h.frame]
    rfl
  · intro k hk
    show Function.update s'.usedSessionKeys k₀ true k = Function.update s.usedSessionKeys k₀ true k
    by_cases hk' : k = k₀
    · rw [hk', Function.update_self, Function.update_self]
    · rw [Function.update_of_ne hk', Function.update_of_ne hk', h.used k hk]
  · intro d hd
    show Function.update s'.lastSubmissionTimestamp d₀ t d = Function.update s.lastSubmissionTimestamp d₀ t d
    by_cases hd' : d = d₀
    · rw [hd', Function.update_self, Function.update_self]
    · rw [Function.update_of_ne hd', Function.update_of_ne hd', h.last d hd]
  · intro d hd
    have hlog := (h.emit [.proofSubmitted e]).log d hd
    exact hlog

/-- A submission reads the used flag of its key and the timestamp of its device, and what the states share. -/
theorem submitProof (h : Agrees K D s (graft x s))
    (hk : sessionKey keccak a.pubInputs.deviceId a.pubInputs.sessionId ∈ K) (hd : bytes32OfU64 a.pubInputs.deviceId ∈ D) :
    SameResult (Agrees K D) (V3.submitProof keccak env s a) (V3.submitProof keccak env (graft x s) a) := by
  unfold V3.submitProof
  simp only [h.used _ hk, h.last _ hd]
  -- the modifiers and the lengths
  refine .bind _ fun _ => .bind _ fun _ => .bind _ fun _ => .bind _ fun _ => .bind _ fun _ => ?_
  -- checks 6, 3, 5 and 7a
  refine .bind _ fun _ => .bind _ fun _ => .bind _ fun _ => .bind _ fun _ => .bind _ fun _ => ?_
  -- checks 1, 2 and 4
  refine .bind _ fun _ => .bind _ fun _ => .bind _ fun _ => .bind _ fun _ => .bind _ fun _ => .bind _ fun _ => .ok ?_
  exact h.record _ _ _ _

/-! ### Transactions -/

theorem call (h : Agrees K D s s') (env : Env) {c : Call} (hc : Within keccak K D c) :
    SameResult (Agrees K D) (V3.call keccak env s c) (V3.call keccak env s' c) := by
  obtain ⟨x, rfl⟩ : ∃ x, s' = graft x s := ⟨s', h.frame⟩
  cases c with
  | initializeProxy admin registry p256 honk => exact h.initializeProxy admin registry p256 honk
  | reinitializeEIP712 => exact h.reinitializeEIP712
  | submitProof a => exact h.submitProof (hc a rfl).1 (hc a rfl).2
  | pause => exact h.pause
  | unpause => exact h.unpause
  | setDeviceRegistry r =>
    rw [V3.call, V3.call, setDeviceRegistry, setDeviceRegistry]
    exact h.setContract fun _ _ => rfl
  | setP256Verifier v =>
    rw [V3.call, V3.call, setP256Verifier, setP256Verifier]
    exact h.setContract fun _ _ => rfl
  | setHonkVerifier v =>
    rw [V3.call, V3.call, setHonkVerifier, setHonkVerifier]
    exact h.setContract fun _ _ => rfl
  | grantRole | revokeRole | renounceRole => exact h.setRoles _

theorem exec (h : Agrees K D s s') {t : Tx} (hc : Within keccak K D t.call) :
    Agrees K D (V3.exec keccak s t) (V3.exec keccak s' t) := by
  have hr := h.call t.env hc
  unfold V3.exec
  generalize V3.call keccak t.env s t.call = r, V3.call keccak t.env s' t.call = r' at hr ⊢
  cases hr with
  | error e => exact h
  | ok h' => exact h'

theorem run (h : Agrees K D s s') {txs : List Tx} (hc : ∀ t ∈ txs, Within keccak K D t.call) :
    Agrees K D (Runs.run (V3.exec keccak) s txs) (Runs.run (V3.exec keccak) s' txs) := by
  induction txs generalizing s s' with
  | nil => exact h
  | cons t txs ih => exact ih (h.exec (hc t (by simp))) fun u hu => hc u (by simp [hu])

/-- A submission that is about none of the keys and devices. -/
theorem other (h : Agrees K D s s') (hg : s.reentrancyStatus = ReentrancyGuard.NOT_ENTERED) {t : Tx}
    (hc : t.call = .submitProof a) (hk : sessionKey keccak a.pubInputs.deviceId a.pubInputs.sessionId ∉ K)
    (hd : bytes32OfU64 a.pubInputs.deviceId ∉ D) : Agrees K D (V3.exec keccak s t) s' := by
  rcases hr : V3.call keccak t.env s t.call with e | s₁
  · rwa [exec_of_error hr]
  rw [hc] at hr
  obtain ⟨ha, -⟩ := submitProof_eq_ok_iff.1 hr
  rw [exec_of_accepts hc ha]
  refine ⟨?_, ?_, ?_, ?_⟩
  · conv_lhs => rw [h.frame]
    simp only [graft, V3.accepted, hg]
  · intro k hk'
    have hne : k ≠ sessionKey keccak a.pubInputs.deviceId a.pubInputs.sessionId := fun heq => hk (heq ▸ hk')
    show s'.usedSessionKeys k = Function.update s.usedSessionKeys _ true k
    rw [Function.update_of_ne hne, h.used k hk']
  · intro d hd'
    have hne : d ≠ bytes32OfU64 a.pubInputs.deviceId := fun heq => hd (heq ▸ hd')
    show s'.lastSubmissionTimestamp d = Function.update s.lastSubmissionTimestamp _ _ d
    rw [Function.update_of_ne hne, h.last d hd']
  · intro d hd'
    have hne : bytes32OfU64 a.pubInputs.deviceId ≠ d := fun heq => hd (heq ▸ hd')
    show ownLog d s' = (s.log ++ [V3Event.proofSubmitted (eventOf keccak s a.pubInputs)]).filter (ownEvent d)
    rw [List.filter_append, h.log d hd']
    simp [ownLog, ownEvent, eventOf, hne]

end Agrees

/-! ### Without the other devices -/

/-- Whether the transaction is no submission of a device other than `d`. -/
def keeps (d : U64) (t : Tx) : Bool :=
  match t.call with
  | .submitProof a => a.pubInputs.deviceId = d
  | _ => true

/-- The error of a submission of device `d`, or the events it emits. -/
def outcome (keccak : Bytes → Bytes32) (d : U64) (x : V3State × Tx) : Option (Except V3Error (List V3Event)) :=
  match x.2.call with
  | .submitProof a =>
    if a.pubInputs.deviceId = d then
      some ((call keccak x.2.env x.1 x.2.call).map fun s' => s'.log.drop x.1.log.length)
    else none
  | _ => none

/-- The outcomes of the submissions of device `d`, in the order of the run. -/
def outcomes (keccak : Bytes → Bytes32) (d : U64) (s : V3State) (txs : List Tx) :
    List (Except V3Error (List V3Event)) :=
  (Runs.steps (exec keccak) s txs).filterMap (outcome keccak d)

/-- The session keys of device `d`. -/
def keysOf (keccak : Bytes → Bytes32) (d : U64) : Set Bytes32 := Set.range (sessionKey keccak d)

theorem within_submitProof {d : U64} (hd : a.pubInputs.deviceId = d) :
    Within keccak (keysOf keccak d) {bytes32OfU64 d} (.submitProof a) := by
  intro a' ha
  obtain rfl := Call.submitProof.inj ha
  exact ⟨⟨a.pubInputs.sessionId, by rw [hd]⟩, congrArg bytes32OfU64 hd⟩

theorem within_of_keeps {d : U64} {t : Tx} (h : keeps d t = true) :
    Within keccak (keysOf keccak d) {bytes32OfU64 d} t.call := by
  intro a ha
  have hd : a.pubInputs.deviceId = d := by simpa [keeps, ha] using h
  exact within_submitProof hd a rfl

theorem log_accepted (pi : PublicInputs) :
    (accepted keccak s pi).log.drop s.log.length = [.proofSubmitted (eventOf keccak s pi)] := List.drop_left ..

theorem outcome_eq {d : U64} (h : Agrees (keysOf keccak d) {bytes32OfU64 d} s s') (t : Tx) :
    outcome keccak d (s', t) = outcome keccak d (s, t) := by
  obtain ⟨env, c⟩ := t
  cases c with
  | submitProof a =>
    by_cases hd : a.pubInputs.deviceId = d
    · have hr := h.call env (within_submitProof hd)
      have hev : eventOf keccak s' a.pubInputs = eventOf keccak s a.pubInputs := by
        have hl := h.last (bytes32OfU64 a.pubInputs.deviceId) (congrArg bytes32OfU64 hd)
        simp only [eventOf, hl]
      simp only [outcome, if_pos hd, Option.some.injEq]
      rcases hs : call keccak env s (.submitProof a) with e | t <;>
        rcases hs' : call keccak env s' (.submitProof a) with e' | t' <;> rw [hs, hs'] at hr <;> cases hr
      · rfl
      · obtain ⟨-, rfl⟩ := submitProof_eq_ok_iff.1 hs
        obtain ⟨-, rfl⟩ := submitProof_eq_ok_iff.1 hs'
        simp only [Except.map, log_accepted, hev]
    · simp only [outcome, if_neg hd]
  | _ => rfl

theorem outcomes_cons (d : U64) (s : V3State) (t : Tx) (txs : List Tx) :
    outcomes keccak d s (t :: txs) = (outcome keccak d (s, t)).toList ++ outcomes keccak d (exec keccak s t) txs := by
  rw [outcomes, Runs.steps_cons, List.filterMap_cons, outcomes]
  cases outcome keccak d (s, t) <;> rfl

/-- The run without the submissions of other devices, next to the run with them. -/
theorem Agrees.filter_run (hk : PackedInjective keccak) {d : U64} (txs : List Tx)
    (h : Agrees (keysOf keccak d) {bytes32OfU64 d} s s') (hi : AdminInv s) :
    Agrees (keysOf keccak d) {bytes32OfU64 d} (Runs.run (V3.exec keccak) s txs)
        (Runs.run (V3.exec keccak) s' (txs.filter (keeps d))) ∧
      outcomes keccak d s' (txs.filter (keeps d)) = outcomes keccak d s txs := by
  induction txs generalizing s s' with
  | nil => exact ⟨h, rfl⟩
  | cons t txs ih =>
    have hi' := (@AdminInv.exec keccak s hi t).2
    rcases hkeep : keeps d t with _ | _
    · obtain ⟨a, hc, hne⟩ : ∃ a, t.call = .submitProof a ∧ a.pubInputs.deviceId ≠ d := by
        unfold keeps at hkeep
        split at hkeep
        · next a hc => exact ⟨a, hc, of_decide_eq_false hkeep⟩
        · cases hkeep
      have hkey : sessionKey keccak a.pubInputs.deviceId a.pubInputs.sessionId ∉ keysOf keccak d := by
        rintro ⟨n, hn⟩
        exact hne ((sessionKey_inj hk).1 hn).1.symm
      have hdev : bytes32OfU64 a.pubInputs.deviceId ∉ ({bytes32OfU64 d} : Set Bytes32) :=
        fun hd => hne (bytes32OfU64_inj.1 hd)
      have hnone : outcome keccak d (s, t) = none := by
        unfold outcome
        simp only [hc, if_neg hne]
      obtain ⟨hrun, hout⟩ := ih (h.other hi.notEntered hc hkey hdev) hi'
      rw [List.filter_cons_of_neg (by simp [hkeep])]
      exact ⟨hrun, by rw [hout, outcomes_cons, hnone]; rfl⟩
    · obtain ⟨hrun, hout⟩ := ih (h.exec (within_of_keeps hkeep)) hi'
      rw [List.filter_cons_of_pos hkeep]
      exact ⟨hrun, by rw [outcomes_cons, outcomes_cons, hout, outcome_eq h]⟩

/-! ### Neighbours -/

theorem Agrees.accepts_iff (h : Agrees (keysOf keccak a.pubInputs.deviceId) {bytes32OfU64 a.pubInputs.deviceId} s s') :
    Accepts keccak env s' a ↔ Accepts keccak env s a := by
  have hr := h.call env (within_submitProof rfl)
  rcases hs : V3.submitProof keccak env s a with e | t <;>
    rcases hs' : V3.submitProof keccak env s' a with e' | t' <;> rw [V3.call, V3.call, hs, hs'] at hr <;> cases hr
  · exact iff_of_false (rejected_iff.1 ⟨_, hs'⟩) (rejected_iff.1 ⟨_, hs⟩)
  · exact iff_of_true (submitProof_eq_ok_iff.1 hs').1 (submitProof_eq_ok_iff.1 hs).1

theorem eventOf_accepted_of_ne {pi qi : PublicInputs} (hne : pi.deviceId ≠ qi.deviceId) :
    eventOf keccak (accepted keccak s pi) qi = eventOf keccak s qi := by
  have hdev : bytes32OfU64 qi.deviceId ≠ bytes32OfU64 pi.deviceId := fun h => hne (bytes32OfU64_inj.1 h).symm
  have hl : (accepted keccak s pi).lastSubmissionTimestamp (bytes32OfU64 qi.deviceId) =
      s.lastSubmissionTimestamp (bytes32OfU64 qi.deviceId) := Function.update_of_ne hdev ..
  simp only [eventOf, hl]

/-- Two devices write different keys and different timestamps. -/
theorem accepted_comm (hk : PackedInjective keccak) {pi qi : PublicInputs} (hne : pi.deviceId ≠ qi.deviceId)
    (s : V3State) : Agrees Set.univ Set.univ (accepted keccak (accepted keccak s pi) qi)
      (accepted keccak (accepted keccak s qi) pi) := by
  have hkey : sessionKey keccak pi.deviceId pi.sessionId ≠ sessionKey keccak qi.deviceId qi.sessionId :=
    fun h => hne ((sessionKey_inj hk).1 h).1
  have hdev : bytes32OfU64 pi.deviceId ≠ bytes32OfU64 qi.deviceId := fun h => hne (bytes32OfU64_inj.1 h)
  refine ⟨rfl, ?_, ?_, ?_⟩
  · intro k _
    exact congrFun (Function.update_comm hkey.symm true true s.usedSessionKeys) k
  · intro d _
    exact congrFun (Function.update_comm hdev.symm qi.epochStartTs pi.epochStartTs s.lastSubmissionTimestamp) d
  · intro d _
    show ((s.log ++ [V3Event.proofSubmitted (eventOf keccak s qi)]) ++
        [V3Event.proofSubmitted (eventOf keccak (accepted keccak s qi) pi)]).filter (ownEvent d) =
      ((s.log ++ [V3Event.proofSubmitted (eventOf keccak s pi)]) ++
        [V3Event.proofSubmitted (eventOf keccak (accepted keccak s pi) qi)]).filter (ownEvent d)
    rw [eventOf_accepted_of_ne hne, eventOf_accepted_of_ne hne.symm]
    simp only [List.append_assoc, List.filter_append, List.append_cancel_left_eq, List.filter_singleton, ownEvent, eventOf]
    by_cases hp : bytes32OfU64 pi.deviceId = d
    · have hq : bytes32OfU64 qi.deviceId ≠ d := fun hq => hdev (hp.trans hq.symm)
      simp [hp, hq]
    · simp [hp]

theorem exec_of_not_accepts {t : Tx} (hc : t.call = .submitProof a) (h : ¬ Accepts keccak t.env s a) :
    exec keccak s t = s := by
  obtain ⟨e, he⟩ := rejected_iff.2 h
  exact exec_of_error (e := e) (by rw [hc]; exact he)

theorem exec_comm (hk : PackedInjective keccak) (hi : AdminInv s) {t u : Tx} {b : SubmitArgs} (ht : t.call = .submitProof a)
    (hu : u.call = .submitProof b) (hne : a.pubInputs.deviceId ≠ b.pubInputs.deviceId) :
    Agrees Set.univ Set.univ (exec keccak (exec keccak s t) u) (exec keccak (exec keccak s u) t) := by
  have hother : ∀ {t : Tx} {a : SubmitArgs} {d : U64}, t.call = .submitProof a → a.pubInputs.deviceId ≠ d →
      Agrees (keysOf keccak d) {bytes32OfU64 d} (exec keccak s t) s := by
    intro t a d hc hne
    refine (Agrees.refl s).other hi.notEntered hc ?_ fun hd => hne (bytes32OfU64_inj.1 hd)
    rintro ⟨n, hn⟩
    exact hne ((sessionKey_inj hk).1 hn).1.symm
  have hacc : ∀ env, Accepts keccak env (exec keccak s t) b ↔ Accepts keccak env s b :=
    fun env => (hother ht hne).accepts_iff.symm
  have hacc' : ∀ env, Accepts keccak env (exec keccak s u) a ↔ Accepts keccak env s a :=
    fun env => (hother hu hne.symm).accepts_iff.symm
  by_cases ha : Accepts keccak t.env s a
  · by_cases hb : Accepts keccak u.env s b
    · rw [exec_of_accepts hu ((hacc _).2 hb), exec_of_accepts ht ((hacc' _).2 ha), exec_of_accepts ht ha,
        exec_of_accepts hu hb]
      exact accepted_comm hk hne s
    · rw [exec_of_not_accepts hu fun h => hb ((hacc _).1 h), exec_of_not_accepts hu hb]
      exact .refl _
  · rw [exec_of_not_accepts ht fun h => ha ((hacc' _).1 h), exec_of_not_accepts ht ha]
    exact .refl _

/-- The storage, without the log. -/
def storage (s : V3State) : V3State := { s with log := [] }

theorem Agrees.storage (h : Agrees Set.univ Set.univ s s') : V3.storage s' = V3.storage s := by
  have hu : s'.usedSessionKeys = s.usedSessionKeys := funext fun k => h.used k trivial
  have hl : s'.lastSubmissionTimestamp = s.lastSubmissionTimestamp := funext fun d => h.last d trivial
  rw [h.frame]
  simp only [V3.storage, graft, hu, hl]

theorem eventsOf_eq (s : V3State) (d : Bytes32) : eventsOf s d = (ownLog d s).filterMap proofEvent := by
  rw [eventsOf, proofs, ownLog, List.filter_filterMap, List.filterMap_filter]
  refine List.filterMap_congr ?_
  intro e _
  cases e <;> simp [proofEvent, ownEvent, Option.filter]

theorem Agrees.eventsOf (h : Agrees K D s s') {d : Bytes32} (hd : d ∈ D) : eventsOf s' d = eventsOf s d := by
  rw [eventsOf_eq, eventsOf_eq, h.log d hd]

theorem devices_isolated (hk : PackedInjective keccak) (h0 : Deployed keccak s) (txs : List Tx) :
    (∀ d : U64, outcomes keccak d s (txs.filter (keeps d)) = outcomes keccak d s txs ∧
      (Runs.run (exec keccak) s (txs.filter (keeps d))).lastSubmissionTimestamp (bytes32OfU64 d) =
        (Runs.run (exec keccak) s txs).lastSubmissionTimestamp (bytes32OfU64 d) ∧
      ∀ n, (Runs.run (exec keccak) s (txs.filter (keeps d))).usedSessionKeys (sessionKey keccak d n) =
        (Runs.run (exec keccak) s txs).usedSessionKeys (sessionKey keccak d n)) ∧
    ∀ (pre : List Tx) (t u : Tx) (post : List Tx) (a b : SubmitArgs), txs = pre ++ t :: u :: post →
      t.call = .submitProof a → u.call = .submitProof b → a.pubInputs.deviceId ≠ b.pubInputs.deviceId →
      storage (Runs.run (exec keccak) s (pre ++ u :: t :: post)) = storage (Runs.run (exec keccak) s txs) ∧
      ∀ d, eventsOf (Runs.run (exec keccak) s (pre ++ u :: t :: post)) d = eventsOf (Runs.run (exec keccak) s txs) d := by
  have hi := AdminInv.deployed h0
  refine ⟨?_, ?_⟩
  · intro d
    obtain ⟨h, hout⟩ := Agrees.filter_run hk txs (.refl (K := keysOf keccak d) (D := {bytes32OfU64 d}) s) hi
    exact ⟨hout, h.last _ rfl, fun n => h.used _ ⟨n, rfl⟩⟩
  · rintro pre t u post a b rfl ht hu hne
    have hpre := @AdminInv.run keccak s hi pre
    have hpost : ∀ t ∈ post, Within keccak Set.univ Set.univ t.call := fun _ _ _ _ => ⟨trivial, trivial⟩
    have h := (exec_comm hk hpre ht hu hne).run hpost
    rw [Runs.run_append, Runs.run_append]
    exact ⟨h.storage, fun d => h.eventsOf trivial⟩

namespace TestChain

/-- Two devices in turn; device 7 repeats its session. -/
def interleaved : List Tx :=
  [grantOperator chainA, submitTx chainA 7 1 100, submitTx chainA 8 1 50, submitTx chainA 7 1 200, submitTx chainA 8 2 60]

end TestChain

open TestChain in
theorem devices_isolated_sample :
    PackedInjective packKeccak ∧ Deployed packKeccak (deployed chainA) ∧
    (outcomes packKeccak 7 (deployed chainA) interleaved).map Except.isOk = [true, false] ∧
    outcomes packKeccak 7 (deployed chainA) (interleaved.filter (keeps 7)) =
      outcomes packKeccak 7 (deployed chainA) interleaved := by
  have hk := packKeccak_injective
  have h0 := deployed_deployed chainA
  exact ⟨hk, h0, by decide +kernel, ((devices_isolated hk h0 interleaved).1 7).1⟩

end V3
end InfraVeritas
