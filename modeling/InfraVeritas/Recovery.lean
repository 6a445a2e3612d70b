import InfraVeritas.Ordering
import InfraVeritas.Rejections
import InfraVeritas.Routing
import InfraVeritas.V3Admin

/-!
# Which rejections can be undone

A rejected `submitProof` call may succeed later: time passes, the proxy is unpaused, the operator gets its
role. A used session key, a stored epoch, a wrong length or a wrong hash stay (`Recoverable`), and without an
admin so do the pause and the roles. The worker re-queues a job after some of V3's errors (`retried_iff`);
`retry_recoverable_iff` says when it does so only for calls that can still succeed.
-/

namespace InfraVeritas
open Checks

namespace V3
variable {keccak : Bytes → Bytes32} {env env' : Env} {s s' : V3State} {a : SubmitArgs}

/-! ### What stays -/

/-- Without an admin there never is one, no one gains a role, and a pause stays. -/
theorem noAdmin_exec (h : AdminInv s) (hn : ∀ account, ¬ IsAdmin s account) (t : Tx) :
    (∀ account, ¬ IsAdmin (exec keccak s t) account) ∧ (s.paused = true → (exec keccak s t).paused = true) ∧
      ∀ role account, AccessControl.hasRole s.roles role account = false →
        AccessControl.hasRole (exec keccak s t).roles role account = false := by
  cases (@AdminInv.exec keccak _ h t).1 with
  | same hr hp => exact ⟨fun account ha => hn account (by rwa [IsAdmin, hr] at ha), fun hs => hp.trans hs, fun _ _ hf => hr ▸ hf⟩
  | pause hr hp => exact ⟨fun account ha => hn account (by rwa [IsAdmin, hr] at ha), fun _ => hp, fun _ _ hf => hr ▸ hf⟩
  | unpause hr ha => exact absurd ha (hn _)
  | setRole role account value hp hr ha =>
    have hv : value = false := by
      rw [← Bool.not_eq_true]
      exact fun hv => hn _ (ha hv)
    have hfalse (role' : Bytes32) (account' : Address)
        (hf : AccessControl.hasRole s.roles role' account' = false) :
        AccessControl.hasRole (exec keccak s t).roles role' account' = false := by
      rw [hr, AccessControl.hasRole_setRole, hv, hf, ite_self]
    refine ⟨fun account' ha' => ?_, fun hs => hp.trans hs, hfalse⟩
    rw [IsAdmin, hfalse _ _ (Bool.eq_false_iff.2 (hn account'))] at ha'
    cases ha'

theorem noAdmin_run (h : AdminInv s) (hn : ∀ account, ¬ IsAdmin s account) (txs : List Tx) :
    (s.paused = true → (Runs.run (exec keccak) s txs).paused = true) ∧
      ∀ role account, AccessControl.hasRole s.roles role account = false →
        AccessControl.hasRole (Runs.run (exec keccak) s txs).roles role account = false := by
  induction txs generalizing s with
  | nil => exact ⟨id, fun _ _ hf => hf⟩
  | cons t txs ih =>
    obtain ⟨hn', hp, hr⟩ := @noAdmin_exec keccak _ h hn t
    obtain ⟨hp', hr'⟩ := ih (@AdminInv.exec keccak _ h t).2 hn'
    exact ⟨fun hs => hp' (hp hs), fun role account hf => hr' role account (hr role account hf)⟩

theorem stored_exec {d : Bytes32} {t : U64} (h : s.lastSubmissionTimestamp d ≠ 0 ∧ ¬ s.lastSubmissionTimestamp d < t)
    (tx : Tx) : (exec keccak s tx).lastSubmissionTimestamp d ≠ 0 ∧ ¬ (exec keccak s tx).lastSubmissionTimestamp d < t := by
  rcases @exec_cases keccak s tx with ⟨a, -, ha, he, -⟩ | ⟨-, he⟩
  · rw [he]
    show Function.update s.lastSubmissionTimestamp (bytes32OfU64 a.pubInputs.deviceId) _ d ≠ 0 ∧
      ¬ Function.update s.lastSubmissionTimestamp (bytes32OfU64 a.pubInputs.deviceId) _ d < t
    by_cases hd : d = bytes32OfU64 a.pubInputs.deviceId
    · subst hd
      rw [Function.update_self]
      have hlt := ha.later.resolve_left h.1
      refine ⟨fun h0 => ?_, fun ht => h.2 (BitVec.lt_trans hlt ht)⟩
      rw [h0] at hlt
      exact BitVec.not_lt_zero hlt
    · rwa [Function.update_of_ne hd]
  · rw [he.last]
    exact h

theorem stored_run {d : Bytes32} {t : U64} (h : s.lastSubmissionTimestamp d ≠ 0 ∧ ¬ s.lastSubmissionTimestamp d < t)
    (txs : List Tx) : (Runs.run (exec keccak) s txs).lastSubmissionTimestamp d ≠ 0 ∧
      ¬ (Runs.run (exec keccak) s txs).lastSubmissionTimestamp d < t :=
  Runs.run_inv (I := fun s : V3State => s.lastSubmissionTimestamp d ≠ 0 ∧ ¬ s.lastSubmissionTimestamp d < t) h
    (fun _ tx hs => stored_exec hs tx) txs

/-! ### Acceptance later -/

/-- `env'` is a later call context on the same proxy. -/
structure Follows (env env' : Env) : Prop where
  self : env'.self = env.self
  chainid : env'.chainid = env.chainid
  time : env.timestamp.toNat ≤ env'.timestamp.toNat

instance : IsTrans Env Follows :=
  ⟨fun _ _ _ h h' => ⟨h'.self.trans h.self, h'.chainid.trans h.chainid, h.time.trans h'.time⟩⟩

/-- The call succeeds in a later state: after some transactions, at some later time, with whatever answers of
the registry and the verifiers. -/
def AcceptedLater (keccak : Bytes → Bytes32) (env : Env) (s : V3State) (a : SubmitArgs) : Prop :=
  ∃ (txs : List Tx) (env' : Env) (s' : V3State), (env :: (txs.map (·.env) ++ [env'])).IsChain Follows ∧
    env'.sender = env.sender ∧ submitProof keccak env' (Runs.run (exec keccak) s txs) a = .ok s'

/-- The checks whose failure is permanent pass, and where an admin is needed there is one. -/
structure Recoverable (keccak : Bytes → Bytes32) (env : Env) (s : V3State) (a : SubmitArgs) : Prop where
  signatureLength : a.signature.length = 64
  pubkeyLength : a.devicePubkey.length = 64
  noOverflow : env.timestamp.toNat + 300 < 2 ^ 256
  payloadHash : a.pubInputs.payloadHash = a.payloadHash
  unused : s.usedSessionKeys (sessionKey keccak a.pubInputs.deviceId a.pubInputs.sessionId) = false
  later : s.lastSubmissionTimestamp (bytes32OfU64 a.pubInputs.deviceId) = 0 ∨
    s.lastSubmissionTimestamp (bytes32OfU64 a.pubInputs.deviceId) < a.pubInputs.epochStartTs
  admin : s.paused = true ∨ AccessControl.hasRole s.roles (OPERATOR_ROLE keccak) env.sender = false →
    ∃ account, IsAdmin s account

theorem recoverable_of_acceptedLater (hinv : AdminInv s) (h : AcceptedLater keccak env s a) : Recoverable keccak env s a := by
  obtain ⟨txs, env', s', hchain, hsender, hs⟩ := h
  obtain ⟨ha, -⟩ := submitProof_eq_ok_iff.1 hs
  have htime : env.timestamp.toNat ≤ env'.timestamp.toNat := by
    have hp := List.isChain_iff_pairwise.1 hchain
    exact (List.rel_of_pairwise_cons hp (List.mem_append_right _ (List.mem_singleton_self env'))).time
  refine ⟨ha.signatureLength, ha.pubkeyLength, ?_, ha.payloadHash, ?_, ?_, ?_⟩
  · have := ha.noOverflow
    omega
  · rw [← Bool.not_eq_true]
    intro hu
    have hu' := @used_run keccak _ _ hu txs
    rw [ha.unused] at hu'
    cases hu'
  · by_contra hn
    rw [not_or] at hn
    obtain ⟨h0, hlt⟩ := @stored_run keccak _ _ _ hn txs
    exact ha.later.elim h0 hlt
  · intro hneed
    by_contra hnone
    obtain ⟨hp, hr⟩ := @noAdmin_run keccak _ hinv (fun account haccount => hnone ⟨account, haccount⟩) txs
    rcases hneed with hpaused | hrole
    · have hp' := hp hpaused
      rw [ha.notPaused] at hp'
      cases hp'
    · have hr' := hr _ _ hrole
      rw [← hsender, ha.operator] at hr'
      cases hr'

def callAs (env : Env) (account : Address) : Env := { env with sender := account }

theorem follows_callAs (env : Env) (account : Address) : Follows env (callAs env account) := ⟨rfl, rfl, Nat.le_refl _⟩

theorem chain_callAs {txs : List Tx} (h : ∀ t ∈ txs, ∃ account, t.env = callAs env account) (hf : Follows env env') :
    (env :: (txs.map (·.env) ++ [env'])).IsChain Follows := by
  refine List.isChain_iff_pairwise.2 (List.pairwise_cons.2 ⟨fun e he => ?_, List.pairwise_append.2 ⟨?_, ?_, ?_⟩⟩)
  · rcases List.mem_append.1 he with he | he
    · obtain ⟨t, ht, rfl⟩ := List.mem_map.1 he
      obtain ⟨account, hacc⟩ := h t ht
      rw [hacc]
      exact follows_callAs env account
    · rw [List.mem_singleton.1 he]
      exact hf
  · refine List.pairwise_map.2 (List.pairwise_of_forall_mem_list fun t ht t' ht' => ?_)
    obtain ⟨account, hacc⟩ := h t ht
    obtain ⟨account', hacc'⟩ := h t' ht'
    rw [hacc, hacc']
    exact ⟨rfl, rfl, Nat.le_refl _⟩
  · exact List.pairwise_singleton ..
  · intro e he e' he'
    obtain ⟨t, ht, rfl⟩ := List.mem_map.1 he
    obtain ⟨account, hacc⟩ := h t ht
    rw [List.mem_singleton.1 he', hacc]
    exact ⟨hf.self, hf.chainid, hf.time⟩

theorem exec_unpause {admin : Address} (ha : IsAdmin s admin) (hp : s.paused = true) :
    exec keccak s ⟨callAs env admin, .unpause⟩ = emit { s with paused := false } [.oz (.unpaused admin)] := by
  have hcall : call keccak (callAs env admin) s .unpause = .ok (emit { s with paused := false } [.oz (.unpaused admin)]) :=
    unpause_eq_ok_iff.2 ⟨ha, hp, rfl⟩
  rw [exec, hcall]

theorem exists_unpaused (hadmin : s.paused = true → ∃ account, IsAdmin s account) :
    ∃ txs : List Tx, (∀ t ∈ txs, ∃ account, t.env = callAs env account) ∧
      (Runs.run (exec keccak) s txs).paused = false ∧ (Runs.run (exec keccak) s txs).roles = s.roles ∧
      SameSubmissions s (Runs.run (exec keccak) s txs) := by
  rcases hp : s.paused with _ | _
  · exact ⟨[], fun t ht => absurd ht List.not_mem_nil, hp, rfl, .refl s⟩
  · obtain ⟨admin, ha⟩ := hadmin hp
    refine ⟨[⟨callAs env admin, .unpause⟩], List.forall_mem_singleton.2 ⟨admin, rfl⟩, ?_⟩
    rw [Runs.run_cons, Runs.run_nil, exec_unpause ha hp]
    refine ⟨rfl, rfl, .update (by simp [proofEvent]) ?_⟩
    exact ⟨rfl, rfl, rfl⟩

theorem exists_granted {role : Bytes32} {account : Address} (hinv : AdminInv s)
    (hadmin : AccessControl.hasRole s.roles role account = false → ∃ account, IsAdmin s account) :
    ∃ txs : List Tx, (∀ t ∈ txs, ∃ account, t.env = callAs env account) ∧
      AccessControl.hasRole (Runs.run (exec keccak) s txs).roles role account = true ∧
      (Runs.run (exec keccak) s txs).paused = s.paused ∧ SameSubmissions s (Runs.run (exec keccak) s txs) := by
  rcases hr : AccessControl.hasRole s.roles role account with _ | _
  · obtain ⟨admin, ha⟩ := hadmin hr
    refine ⟨[⟨callAs env admin, .grantRole role account⟩], List.forall_mem_singleton.2 ⟨admin, rfl⟩, ?_⟩
    have hcheck : AccessControl.hasRole s.roles (AccessControl.getRoleAdmin s.roles role) (callAs env admin).sender = true := by
      rw [hinv.roleAdmin]
      exact ha
    rw [Runs.run_cons, Runs.run_nil, exec_grantRole hcheck]
    refine ⟨?_, rfl, grantRoleInternal_same s role account⟩
    show AccessControl.hasRole (AccessControl.grantRoleInternal s.roles role account admin).1 role account = true
    rw [AccessControl.hasRole_grantRoleInternal]
    simp
  · exact ⟨[], fun t ht => absurd ht List.not_mem_nil, hr, rfl, .refl s⟩

/-- The registry and the verifiers say yes. -/
def consenting : Oracles := ⟨fun _ _ => .returned true, fun _ _ _ _ _ _ => .returned true, fun _ _ _ => .returned true⟩

theorem acceptedLater_of_recoverable (hinv : AdminInv s) (h : Recoverable keccak env s a) : AcceptedLater keccak env s a := by
  obtain ⟨txs, ht, hp, hr, hsame⟩ := @exists_unpaused keccak env s fun hp => h.admin (.inl hp)
  have hinv₁ : AdminInv (Runs.run (exec keccak) s txs) := hinv.run txs
  obtain ⟨txs', ht', hr', hp', hsame'⟩ := @exists_granted keccak env _ (OPERATOR_ROLE keccak) env.sender hinv₁ fun hrole => by
    rw [hr] at hrole
    obtain ⟨account, ha⟩ := h.admin (.inr hrole)
    exact ⟨account, by rwa [IsAdmin, hr]⟩
  have hinv₂ : AdminInv (Runs.run (exec keccak) _ txs') := hinv₁.run txs'
  -- late enough for every epoch
  let now : UInt256 := if env.timestamp.toNat ≤ 2 ^ 64 then BitVec.ofNat 256 (2 ^ 64) else env.timestamp
  have hnow : env.timestamp.toNat ≤ now.toNat ∧ 2 ^ 64 ≤ now.toNat ∧ now.toNat + 300 < 2 ^ 256 := by
    by_cases hle : env.timestamp.toNat ≤ 2 ^ 64
    · have hn : now.toNat = 2 ^ 64 := by
        simp only [now, if_pos hle, BitVec.toNat_ofNat]
        rfl
      omega
    · have hn : now = env.timestamp := if_neg hle
      have hov := h.noOverflow
      rw [hn]
      omega
  let env' : Env := { env with timestamp := now, oracles := consenting }
  refine ⟨txs ++ txs', env', _, chain_callAs ?_ ⟨rfl, rfl, hnow.1⟩, rfl, submitProof_eq_ok_iff.2 ⟨?_, rfl⟩⟩
  · intro t hm
    rcases List.mem_append.1 hm with hm | hm
    · exact ht t hm
    · exact ht' t hm
  · rw [Runs.run_append]
    have hepoch := a.pubInputs.epochStartTs.isLt
    have hall := hsame.trans hsame'
    exact {
      notPaused := hp'.trans hp
      notEntered := by rw [hinv₂.notEntered]; decide
      operator := hr'
      signatureLength := h.signatureLength
      pubkeyLength := h.pubkeyLength
      noOverflow := hnow.2.2
      epoch := by show _ ≤ now.toNat + 300; omega
      payloadHash := h.payloadHash
      unused := by rw [hall.used]; exact h.unused
      later := by rw [hall.last]; exact h.later
      authorized := rfl
      p256 := rfl
      honk := rfl }

theorem acceptedLater_iff (hinv : AdminInv s) : AcceptedLater keccak env s a ↔ Recoverable keccak env s a :=
  ⟨recoverable_of_acceptedLater hinv, acceptedLater_of_recoverable hinv⟩

/-! ### Retries -/

/-- `e` is one of V3's own errors, as `mapChainError` knows them. -/
def Decoded (e : V3Error) : Prop := (mapChainError e.thrown).code ≠ .UNKNOWN

/-- What the worker is thrown when the simulated call reverts with `e`. -/
def workerError (e : V3Error) : WorkerError := .chain (mapChainError e.thrown)

/-- The first check that fails is one after whose error the worker retries: the pause, the role, the epoch
against the clock, or the epoch against the stored one. -/
def RejectsForRetry (keccak : Bytes → Bytes32) (env : Env) (s : V3State) (a : SubmitArgs) : Prop :=
  s.paused = true ∨ AccessControl.hasRole s.roles (OPERATOR_ROLE keccak) env.sender = false ∨
    Sized a ∧ env.timestamp.toNat + 300 < 2 ^ 256 ∧
      (env.timestamp.toNat + 300 < a.pubInputs.epochStartTs.toNat ∨
        a.pubInputs.payloadHash = a.payloadHash ∧
          s.usedSessionKeys (sessionKey keccak a.pubInputs.deviceId a.pubInputs.sessionId) = false ∧
          ¬ (s.lastSubmissionTimestamp (bytes32OfU64 a.pubInputs.deviceId) = 0 ∨
            s.lastSubmissionTimestamp (bytes32OfU64 a.pubInputs.deviceId) < a.pubInputs.epochStartTs))

theorem rejectsForRetry_of_rejects {e : V3Error} (hinv : AdminInv s) (h : Rejects keccak env s a e)
    (hd : Decoded e) (hq : ¬ (workerError e).IsQuarantine) : RejectsForRetry keccak env s a := by
  cases h with
  | enforcedPause h => exact .inl h
  | reentrantCall _ h =>
    rw [hinv.notEntered] at h
    exact absurd h (by decide)
  | unauthorizedAccount _ _ h => exact .inr (.inl h)
  | epochInFuture _ hl ho h => exact .inr (.inr ⟨hl, ho, .inl h⟩)
  | invalidTimestamp _ hl ht hh hu h => exact .inr (.inr ⟨hl, ht.noOverflow, .inr ⟨hh, hu, h⟩⟩)
  | overflow | registryReverted | p256Reverted | honkReverted => exact absurd rfl hd
  | signatureLength => exact absurd (by decide : ChainErrorCode.InvalidSignatureLength ∈ QUARANTINE_CODES) hq
  | pubkeyLength => exact absurd (by decide : ChainErrorCode.InvalidPubkeyLength ∈ QUARANTINE_CODES) hq
  | payloadHash => exact absurd (by decide : ChainErrorCode.PayloadHashMismatch ∈ QUARANTINE_CODES) hq
  | sessionKeyUsed => exact absurd (by decide : ChainErrorCode.SessionKeyAlreadyUsed ∈ QUARANTINE_CODES) hq
  | deviceNotActive => exact absurd (by decide : ChainErrorCode.DeviceNotActive ∈ QUARANTINE_CODES) hq
  | invalidSignature => exact absurd (by decide : ChainErrorCode.InvalidP256Signature ∈ QUARANTINE_CODES) hq
  | invalidProof => exact absurd (by decide : ChainErrorCode.InvalidZKProof ∈ QUARANTINE_CODES) hq

/-- Every error after the checks that failed here is one of the retried ones. -/
theorem exists_retried (hinv : AdminInv s) (h : RejectsForRetry keccak env s a) :
    ∃ e, submitProof keccak env s a = .error e ∧ Decoded e ∧ ¬ (workerError e).IsQuarantine := by
  rcases hs : submitProof keccak env s a with e | s'
  · refine ⟨e, rfl, ?_⟩
    have hpaused (he : Entered keccak env s) (hp : s.paused = true) : False := by
      rw [he.notPaused] at hp
      cases hp
    have hrole (he : Entered keccak env s) (hf : AccessControl.hasRole s.roles (OPERATOR_ROLE keccak) env.sender = false) :
        False := by
      rw [he.operator] at hf
      cases hf
    have hstate (hc : PassesState keccak env s a) : False := by
      rcases h with hp | hf | ⟨-, -, hlt | ⟨-, -, hn⟩⟩
      · exact hpaused hc.entered hp
      · exact hrole hc.entered hf
      · exact Nat.not_le.2 hlt hc.epochOk.epoch
      · exact hn hc.later
    cases rejects_of_error hs with
    | enforcedPause => exact ⟨nofun, nofun⟩
    | reentrantCall _ hg =>
      rw [hinv.notEntered] at hg
      exact absurd hg (by decide)
    | unauthorizedAccount => exact ⟨nofun, nofun⟩
    | epochInFuture => exact ⟨nofun, nofun⟩
    | invalidTimestamp => exact ⟨nofun, nofun⟩
    | signatureLength he hn =>
      rcases h with hp | hf | ⟨hl, -, -⟩
      · exact (hpaused he hp).elim
      · exact (hrole he hf).elim
      · exact absurd hl.signature hn
    | pubkeyLength he _ hn =>
      rcases h with hp | hf | ⟨hl, -, -⟩
      · exact (hpaused he hp).elim
      · exact (hrole he hf).elim
      · exact absurd hl.pubkey hn
    | overflow he _ hn =>
      rcases h with hp | hf | ⟨-, ho, -⟩
      · exact (hpaused he hp).elim
      · exact (hrole he hf).elim
      · exact absurd ho hn
    | payloadHash he _ ht hn =>
      rcases h with hp | hf | ⟨-, -, hlt | ⟨hh, -, -⟩⟩
      · exact (hpaused he hp).elim
      · exact (hrole he hf).elim
      · exact absurd ht.epoch (Nat.not_le.2 hlt)
      · exact absurd hh hn
    | sessionKeyUsed he _ ht _ hu =>
      rcases h with hp | hf | ⟨-, -, hlt | ⟨-, hu', -⟩⟩
      · exact (hpaused he hp).elim
      · exact (hrole he hf).elim
      · exact absurd ht.epoch (Nat.not_le.2 hlt)
      · rw [hu] at hu'
        cases hu'
    | registryReverted hc | deviceNotActive hc | p256Reverted hc | invalidSignature hc | honkReverted hc
    | invalidProof hc => exact (hstate hc).elim
  · obtain ⟨ha, -⟩ := submitProof_eq_ok_iff.1 hs
    rcases h with hp | hf | ⟨-, -, hlt | ⟨-, -, hn⟩⟩
    · rw [ha.notPaused] at hp
      cases hp
    · rw [ha.operator] at hf
      cases hf
    · exact absurd ha.epoch (Nat.not_le.2 hlt)
    · exact absurd ha.later hn

section Queue
variable {T R : Type} {q : InMemoryQueue T R} {job : String} {r : JobRecord T R}

/-- The worker puts the job back after `err`. -/
def Requeued (q : InMemoryQueue T R) (job : String) (err : WorkerError) : Prop :=
  ∃ r, (Worker.handleError q job err).get job = some r ∧ r.status = .pending

theorem requeued_iff {err : WorkerError} (hr : q.get job = some r) :
    Requeued q job err ↔ ¬ err.IsQuarantine ∧ r.attempts < InMemoryQueue.MAX_ATTEMPTS := by
  constructor
  · rintro ⟨r', hr', hs⟩
    by_cases hq : err.IsQuarantine
    · obtain ⟨code, message, he⟩ := Worker.handleError_of_quarantine q job hq
      obtain ⟨r₁, hr₁, hs₁⟩ := InMemoryQueue.get_quarantine code message hr
      rw [he, hr₁, Option.some.injEq] at hr'
      rw [← hr', hs₁] at hs
      cases hs
    · refine ⟨hq, ?_⟩
      by_contra hlt
      obtain ⟨code, message, he⟩ := Worker.handleError_of_not_quarantine q job hq
      obtain ⟨r₁, hr₁, hs₁⟩ := InMemoryQueue.get_fail_of_le code message hr hlt
      rw [he, hr₁, Option.some.injEq] at hr'
      rw [← hr', hs₁] at hs
      cases hs
  · rintro ⟨hq, hlt⟩
    obtain ⟨code, message, he⟩ := Worker.handleError_of_not_quarantine q job hq
    obtain ⟨r₁, hr₁, hs₁⟩ := (InMemoryQueue.get_fail_of_lt code message hr hlt).1
    exact ⟨r₁, by rw [he, hr₁], hs₁⟩

/-- A job is put back only while its call can still succeed, if and only if a rejection for which the worker
retries hides no permanent one. -/
theorem retry_recoverable_iff {s₀ : V3State} (h0 : Deployed keccak s₀) (txs : List Tx) (hr : q.get job = some r) :
    (∀ e, submitProof keccak env (Runs.run (exec keccak) s₀ txs) a = .error e → Decoded e →
        Requeued q job (workerError e) → AcceptedLater keccak env (Runs.run (exec keccak) s₀ txs) a) ↔
      (r.attempts < InMemoryQueue.MAX_ATTEMPTS → RejectsForRetry keccak env (Runs.run (exec keccak) s₀ txs) a →
        Recoverable keccak env (Runs.run (exec keccak) s₀ txs) a) := by
  have hinv : AdminInv (Runs.run (exec keccak) s₀ txs) := (AdminInv.deployed h0).run txs
  constructor
  · intro h hlt hreject
    obtain ⟨e, he, hd, hq⟩ := exists_retried hinv hreject
    exact recoverable_of_acceptedLater hinv (h e he hd ((requeued_iff hr).2 ⟨hq, hlt⟩))
  · intro h e he hd hq
    obtain ⟨hq, hlt⟩ := (requeued_iff hr).1 hq
    exact acceptedLater_of_recoverable hinv (h hlt (rejectsForRetry_of_rejects hinv (rejects_of_error he) hd hq))

end Queue

namespace TestChain

def firstAttempt : InMemoryQueue Unit Unit := ⟨[⟨"a", (), .processing, 1, none, none⟩], []⟩

def oneAccepted : List Tx := [grantOperator chainA, submitTx chainA 7 1 100]

def errorOf {α : Type} : Except V3Error α → Option V3Error
  | .error e => some e
  | .ok _ => none

theorem eq_error {α : Type} {x : Except V3Error α} {e : V3Error} (h : errorOf x = some e) : x = .error e := by
  cases x with
  | error e' => exact congrArg _ (Option.some.inj h)
  | ok y => cases h

end TestChain

open TestChain in
/-- An epoch in the future is retried, and accepted later. -/
theorem retry_recoverable_sample :
    submitProof packKeccak chainA (Runs.run (exec packKeccak) (deployed chainA) oneAccepted) (submission 7 2 2000000) =
      .error (.epochInFuture 2000000 1000000) ∧
    Requeued firstAttempt "a" (workerError (.epochInFuture 2000000 1000000)) ∧
    AcceptedLater packKeccak chainA (Runs.run (exec packKeccak) (deployed chainA) oneAccepted) (submission 7 2 2000000) := by
  have hr : firstAttempt.get "a" = some ⟨"a", (), .processing, 1, none, none⟩ := rfl
  have he : submitProof packKeccak chainA (Runs.run (exec packKeccak) (deployed chainA) oneAccepted)
      (submission 7 2 2000000) = .error (.epochInFuture 2000000 1000000) := eq_error (by decide +kernel)
  have hq : Requeued firstAttempt "a" (workerError (.epochInFuture 2000000 1000000)) :=
    (requeued_iff hr).2 ⟨nofun, by decide⟩
  refine ⟨he, hq, (retry_recoverable_iff (deployed_deployed chainA) oneAccepted hr).2 (fun _ _ => ?_) _ he nofun hq⟩
  have hadmin : AccessControl.hasRole (Runs.run (exec packKeccak) (deployed chainA) oneAccepted).roles
      AccessControl.DEFAULT_ADMIN_ROLE 1 = true := by decide +kernel
  exact ⟨rfl, rfl, by decide, rfl, by decide +kernel, .inr (by decide +kernel), fun _ => ⟨1, hadmin⟩⟩

open TestChain in
/-- A session whose epoch is the stored one is put back, though no later state accepts it. -/
theorem invalidTimestamp_retried :
    Deployed packKeccak (deployed chainA) ∧
    Chain.submitArgs (Pipeline.SampleJobs.job 2 100).payload (List.replicate 32 0) (Pipeline.SampleJobs.job 2 100).signature
      (Pipeline.SampleJobs.job 2 100).pubkey ⟨[], List.replicate 9 "0"⟩ = some (submission 7 2 100) ∧
    submitProof packKeccak chainA (Runs.run (exec packKeccak) (deployed chainA) oneAccepted) (submission 7 2 100) =
      .error (.invalidTimestamp 100 100) ∧
    Decoded (.invalidTimestamp 100 100) ∧ Requeued firstAttempt "a" (workerError (.invalidTimestamp 100 100)) ∧
    ¬ AcceptedLater packKeccak chainA (Runs.run (exec packKeccak) (deployed chainA) oneAccepted) (submission 7 2 100) := by
  have hr : firstAttempt.get "a" = some ⟨"a", (), .processing, 1, none, none⟩ := rfl
  have hlast : (Runs.run (exec packKeccak) (deployed chainA) oneAccepted).lastSubmissionTimestamp (bytes32OfU64 7) = 100 := by
    decide +kernel
  refine ⟨deployed_deployed chainA, Pipeline.SampleJobs.submitArgs_job 2 100, eq_error (by decide +kernel), nofun,
    (requeued_iff hr).2 ⟨nofun, by decide⟩, fun h => ?_⟩
  have hinv : AdminInv (Runs.run (exec packKeccak) (deployed chainA) oneAccepted) :=
    (AdminInv.deployed (deployed_deployed chainA)).run oneAccepted
  have hlater := (recoverable_of_acceptedLater hinv h).later
  rw [show (submission 7 2 100).pubInputs.deviceId = 7 from rfl, hlast] at hlater
  exact absurd hlater (by decide)

end V3
end InfraVeritas
