import InfraVeritas.Deployments
import InfraVeritas.Process
import InfraVeritas.V3Log

/-!
# The worker, its chain client and V3

One state for the queue and its worker, the transactions the wallet has signed, and V3's storage. The
awaits of one `process` call are its `Phase`s; between two of them anything else may happen: jobs are
enqueued, a signed transaction is mined whenever the network gets to it (or never), others use V3, and each
client call may throw whatever became of its transaction. `Agreement` compares the queue's final states with
what V3 accepted, and holds in every run that loses no acceptance (`NotLost`).
-/

namespace InfraVeritas
open Checks

/-- What the aggregator is configured with: its libraries, `keccak256`, and the operator's account. -/
structure Config where
  lib : Libraries
  keccak : Bytes → Bytes32
  operatorAddress : Address

/-- A transaction is known by its number in the order of signing. -/
structure SubmissionResult where
  txHash : Nat
deriving DecidableEq, Repr

/-- Where the `process` call of the current job stands. -/
inductive Phase
  | preparing
  | simulating (args : Option SubmitArgs)
  | writing (txHash : Nat)
  | waiting (txHash : Nat)
  | validating (result : SubmissionResult)
deriving DecidableEq

/-- The transaction whose fate the call is about to learn. -/
def Phase.txHash : Phase → Option Nat
  | .writing h => some h
  | .waiting h => some h
  | .validating result => some result.txHash
  | _ => none

inductive TxStatus
  | pending
  | success
  | reverted
deriving DecidableEq, Repr

structure SentTx where
  job : String
  args : SubmitArgs
  status : TxStatus
deriving DecidableEq, Repr

structure Pipeline where
  worker : Worker SubmissionJob SubmissionResult
  phase : Phase
  txs : List SentTx
  chain : V3State

namespace Chain

/-- What the client library throws for arguments without an ABI encoding. -/
def encodingError : JsError := ⟨none, none, none, none, none, "argument out of range"⟩

/-- `simulateContract`: it throws, or a node runs the call on the current state. -/
def simulateContract (cfg : Config) (chain : V3State) (args : Option SubmitArgs) (r : Except JsError Env) :
    Except JsError SubmitArgs := do
  let env ← r
  match args with
  | none => .error encodingError
  | some a => match V3.submitProof cfg.keccak { env with sender := cfg.operatorAddress } chain a with
    | .ok _ => return a
    | .error e => .error e.thrown

end Chain

namespace Pipeline
open InMemoryQueue Chain

def init (chain : V3State) : Pipeline := ⟨Worker.init, .preparing, [], chain⟩

def settle (p : Pipeline) (outcome : Except WorkerError SubmissionResult) : Pipeline :=
  { p with worker := p.worker.settle outcome, phase := .preparing }

def currentJob (p : Pipeline) : Option (JobRecord SubmissionJob SubmissionResult) :=
  p.worker.current.bind p.worker.queue.get

variable (cfg : Config)

def mine (p : Pipeline) (txHash : Nat) (env : Env) : Pipeline :=
  match p.txs[txHash]? with
  | some ⟨job, args, .pending⟩ =>
    match V3.submitProof cfg.keccak { env with sender := cfg.operatorAddress } p.chain args with
    | .ok chain => { p with chain := chain, txs := p.txs.set txHash ⟨job, args, .success⟩ }
    | .error _ => { p with txs := p.txs.set txHash ⟨job, args, .reverted⟩ }
  | _ => p

inductive Event
  | enqueue (id : String) (data : SubmissionJob)
  /-- the payload hash, the pre-check, the witness and the proof -/
  | prepared (tools : CircuitTools)
  | simulated (r : Except JsError Env)
  /-- `writeContract` returns or throws -/
  | written (r : Except JsError Unit)
  /-- `waitForTransactionReceipt` returns or throws -/
  | receipt (r : Except String Unit)
  /-- the validation pipeline; it throws what the report of its error throws -/
  | validated (r : Except WorkerError Unit)
  | mined (txHash : Nat) (env : Env)
  | external (t : V3.Tx)

/-- An event that the current phase does not wait for changes nothing. -/
def step (p : Pipeline) : Event → Pipeline
  | .enqueue id data => match p.worker.enqueue id data with
    | .ok worker => { p with worker := worker }
    | .error _ => p
  | .prepared tools => match p.phase, p.currentJob with
    | .preparing, some job => match Process.prepare cfg.lib tools job.data with
      | .ok (payloadHash, proof) =>
        { p with phase :=
            .simulating (submitArgs job.data.payload payloadHash job.data.signature job.data.pubkey proof) }
      | .error err => p.settle (.error err)
    | _, _ => p
  | .simulated r => match p.phase, p.worker.current with
    | .simulating args, some job => match simulateContract cfg p.chain args r with
      | .ok a => { p with phase := .writing p.txs.length, txs := p.txs ++ [⟨job, a, .pending⟩] }
      | .error err => p.settle (.error (.chain (mapChainError err)))
    | _, _ => p
  | .written r => match p.phase, r with
    | .writing txHash, .ok _ => { p with phase := .waiting txHash }
    | .writing _, .error err => p.settle (.error (.chain (mapChainError err)))
    | _, _ => p
  | .receipt r => match p.phase, r with
    | .waiting _, .error message => p.settle (.error (.other message))
    | .waiting txHash, .ok _ => match p.txs[txHash]? with
      | some ⟨_, _, .success⟩ => { p with phase := .validating ⟨txHash⟩ }
      | some ⟨_, _, .reverted⟩ => p.settle (.error (.chain ⟨.TX_REVERTED, s!"Transaction {txHash} reverted after inclusion " ++
          "(chain reorg or condition changed between simulate and write)"⟩))
      | _ => p
    | _, _ => p
  | .validated r => match p.phase, r with
    | .validating result, .ok _ => p.settle (.ok result)
    | .validating _, .error err => p.settle (.error err)
    | _, _ => p
  | .mined txHash env => mine cfg p txHash env
  | .external t => { p with chain := V3.exec cfg.keccak p.chain t }

/-! ### What a step can do -/

def SentFor (data : SubmissionJob) (a : SubmitArgs) : Prop := ∃ payloadHash, Holds data.payload payloadHash a.pubInputs

theorem SentFor.sessionKey_eq {data : SubmissionJob} {a a' : SubmitArgs} (h : SentFor data a) (h' : SentFor data a') :
    V3.sessionKey cfg.keccak a.pubInputs.deviceId a.pubInputs.sessionId =
      V3.sessionKey cfg.keccak a'.pubInputs.deviceId a'.pubInputs.sessionId := by
  obtain ⟨_, h⟩ := h
  obtain ⟨_, h'⟩ := h'
  have hd : a.pubInputs.deviceId = a'.pubInputs.deviceId :=
    BitVec.eq_of_toNat_eq (Int.natCast_inj.1 (h.deviceId.2.trans h'.deviceId.2.symm))
  have hn : a.pubInputs.sessionId = a'.pubInputs.sessionId :=
    BitVec.eq_of_toNat_eq (Int.natCast_inj.1 (h.sessionId.2.trans h'.sessionId.2.symm))
  rw [hd, hn]

/-- The event loses no acceptance: neither `writeContract` nor `waitForTransactionReceipt` throws for a
transaction that V3 has accepted, nor does the validation after it, and V3 accepts no transaction whose call
has thrown before. -/
def NotLost (p : Pipeline) : Event → Prop
  | .written (.error _) => ∀ h t, p.phase = .writing h → p.txs[h]? = some t → t.status ≠ .success
  | .receipt (.error _) => ∀ h t, p.phase = .waiting h → p.txs[h]? = some t → t.status ≠ .success
  | .validated (.error _) => ∀ result, p.phase ≠ .validating result
  | .mined h env => ∀ t, p.txs[h]? = some t → t.status = .pending →
      V3.Accepts cfg.keccak { env with sender := cfg.operatorAddress } p.chain t.args → p.phase.txHash = some h
  | _ => True

/-- The effects of an event, with what holds when they happen. -/
inductive Step (p : Pipeline) : Event → Pipeline → Prop
  | skip {e : Event} : Step p e p
  | enqueue {id : String} {data : SubmissionJob} {worker : Worker SubmissionJob SubmissionResult}
      (hw : p.worker.enqueue id data = .ok worker) : Step p (.enqueue id data) { p with worker := worker }
  | prepared {tools : CircuitTools} {job : JobRecord SubmissionJob SubmissionResult} {args : Option SubmitArgs}
      (hphase : p.phase = .preparing) (hjob : p.currentJob = some job) (hargs : ∀ a, args = some a → SentFor job.data a) :
      Step p (.prepared tools) { p with phase := .simulating args }
  | signed {r : Except JsError Env} {a : SubmitArgs} {job : String} (hphase : p.phase = .simulating (some a))
      (hcur : p.worker.current = some job) :
      Step p (.simulated r) { p with phase := .writing p.txs.length, txs := p.txs ++ [⟨job, a, .pending⟩] }
  | written {r : Except JsError Unit} {h : Nat} (hphase : p.phase = .writing h) :
      Step p (.written r) { p with phase := .waiting h }
  | included {r : Except String Unit} {h : Nat} {t : SentTx} (hphase : p.phase = .waiting h)
      (ht : p.txs[h]? = some t) (hs : t.status = .success) : Step p (.receipt r) { p with phase := .validating ⟨h⟩ }
  | failed {e : Event} {err : WorkerError} (hfail : NotLost cfg p e → ∀ h t, p.phase.txHash = some h →
      p.txs[h]? = some t → t.status ≠ .success) : Step p e (p.settle (.error err))
  | completed {r : Except WorkerError Unit} {result : SubmissionResult} (hphase : p.phase = .validating result) :
      Step p (.validated r) (p.settle (.ok result))
  | accepted {h : Nat} {env : Env} {job : String} {args : SubmitArgs} (ht : p.txs[h]? = some ⟨job, args, .pending⟩)
      (ha : V3.Accepts cfg.keccak { env with sender := cfg.operatorAddress } p.chain args) :
      Step p (.mined h env)
        { p with chain := V3.accepted cfg.keccak p.chain args.pubInputs, txs := p.txs.set h ⟨job, args, .success⟩ }
  | reverted {h : Nat} {env : Env} {job : String} {args : SubmitArgs} (ht : p.txs[h]? = some ⟨job, args, .pending⟩) :
      Step p (.mined h env) { p with txs := p.txs.set h ⟨job, args, .reverted⟩ }
  | external {t : V3.Tx} : Step p (.external t) { p with chain := V3.exec cfg.keccak p.chain t }

theorem simulateContract_ok {chain : V3State} {args : Option SubmitArgs} {r : Except JsError Env} {a : SubmitArgs}
    (h : simulateContract cfg chain args r = .ok a) : args = some a := by
  obtain ⟨env, -, h⟩ := bind_eq_ok.1 h
  rcases args with _ | a'
  · cases h
  · dsimp only at h
    split at h
    · exact congrArg some (pure_eq_ok.1 h)
    · cases h

theorem simulateContract_error {chain : V3State} {a : SubmitArgs} {env : Env} {e : V3Error}
    (h : V3.submitProof cfg.keccak { env with sender := cfg.operatorAddress } chain a = .error e) :
    simulateContract cfg chain (some a) (.ok env) = .error e.thrown := by
  rw [simulateContract, ok_bind]
  dsimp only
  rw [h]

theorem step_mined (p : Pipeline) (h : Nat) (env : Env) : Step cfg p (.mined h env) (mine cfg p h env) := by
  unfold mine
  split
  · next job args ht =>
    split
    · next chain hs =>
      obtain ⟨ha, rfl⟩ := V3.submitProof_eq_ok_iff.1 hs
      exact .accepted ht ha
    · exact .reverted ht
  · exact .skip

theorem step_spec (p : Pipeline) (e : Event) : Step cfg p e (step cfg p e) := by
  have hnone {h : Nat} (hn : p.phase.txHash = none) (hs : p.phase.txHash = some h) : False := by
    rw [hn] at hs; cases hs
  cases e with
  | enqueue id data =>
    rcases hw : p.worker.enqueue id data with err | worker
    · rw [step, hw]; exact .skip
    · rw [step, hw]; exact .enqueue hw
  | prepared tools =>
    unfold step
    dsimp only
    split
    · next job hphase hjob =>
      split
      · exact .prepared hphase hjob fun a ha => ⟨_, submitArgs_holds ha⟩
      · exact .failed fun _ h t hs => (hnone (by rw [hphase]; rfl) hs).elim
    · exact .skip
  | simulated r =>
    unfold step
    dsimp only
    split
    · next args job hphase hcur =>
      split
      · next a ha => exact .signed (simulateContract_ok cfg ha ▸ hphase) hcur
      · exact .failed fun _ h t hs => (hnone (by rw [hphase]; rfl) hs).elim
    · exact .skip
  | written r =>
    unfold step
    dsimp only
    split
    · next h _ hphase => exact .written hphase
    · next h err hphase =>
      refine .failed fun hnl h' t hs ht => hnl h' t ?_ ht
      rw [hphase] at hs ⊢
      exact congrArg _ (Option.some.inj hs)
    · exact .skip
  | receipt r =>
    unfold step
    dsimp only
    split
    · next h message hphase =>
      refine .failed fun hnl h' t hs ht => hnl h' t ?_ ht
      rw [hphase] at hs ⊢
      exact congrArg _ (Option.some.inj hs)
    · next h _ hphase =>
      split
      · next job args ht => exact .included hphase ht rfl
      · next job args ht =>
        refine .failed ?_
        intro _ h' t hs ht' hst
        rw [hphase] at hs
        obtain rfl := Option.some.inj hs
        rw [ht, Option.some.injEq] at ht'
        subst ht'
        cases hst
      · exact .skip
    · exact .skip
  | validated r =>
    unfold step
    dsimp only
    split
    · next result _ hphase => exact .completed hphase
    · next result err hphase => exact .failed fun hnl _ _ _ => absurd hphase (hnl result)
    · exact .skip
  | mined h env => exact step_mined cfg p h env
  | external t => exact .external

theorem step_enqueue_init (chain : V3State) {id : String} {data : SubmissionJob} (hid : id ≠ "") :
    step cfg (init chain) (.enqueue id data) =
      { init chain with worker := ⟨⟨[⟨id, data, .processing, 1, none, none⟩], []⟩, some id⟩ } := by
  simp only [step, init, Worker.enqueue_init hid]

/-- The events of a run enqueue under non-empty ids. -/
def Event.NonEmpty : Event → Prop
  | .enqueue id _ => id ≠ ""
  | _ => True

def Event.id? : Event → Option String
  | .enqueue id _ => some id
  | _ => none

/-- The ids a run enqueues, in order. -/
def enqueued (events : List Event) : List String := (events.filterMap Event.id?).eraseDups

theorem step_worker_enqueue (p : Pipeline) (id : String) (data : SubmissionJob) :
    (step cfg p (.enqueue id data)).worker = Worker.step p.worker (.enqueue id data) := by
  rw [step, Worker.step]
  split
  · next hw => rw [hw]
  · next hw => rw [hw]

theorem step_worker (p : Pipeline) {e : Event} (he : e.id? = none) : (step cfg p e).worker = p.worker ∨
    ∃ outcome, (step cfg p e).worker = Worker.step p.worker (.settle outcome) := by
  have h := step_spec cfg p e
  generalize step cfg p e = p' at h
  cases h with
  | skip | prepared | signed | written | included | accepted | reverted | external => exact .inl rfl
  | enqueue => cases he
  | failed => exact .inr ⟨.error _, rfl⟩
  | completed => exact .inr ⟨.ok _, rfl⟩

/-- The worker of a run is in a run of its own: the same jobs are enqueued, and the other events end a
`process` call or do not concern it. -/
theorem worker_run (chain : V3State) {events : List Event} (he : ∀ e ∈ events, e.NonEmpty) :
    ∃ es : List (Worker.Event SubmissionJob SubmissionResult), (∀ e ∈ es, e.NonEmpty) ∧
      es.filterMap Worker.Event.id? = events.filterMap Event.id? ∧
      (Runs.run (step cfg) (init chain) events).worker = Runs.run Worker.step Worker.init es := by
  induction events using List.reverseRecOn with
  | nil => exact ⟨[], fun e he => absurd he List.not_mem_nil, rfl, rfl⟩
  | append_singleton events e ih =>
    obtain ⟨hinit, hlast⟩ := List.forall_mem_append.1 he
    obtain ⟨es, hes, hids, hw⟩ := ih hinit
    have snoc (e' : Worker.Event SubmissionJob SubmissionResult) (hne : e'.NonEmpty) (hid : e'.id? = e.id?)
        (hstep : (step cfg (Runs.run (step cfg) (init chain) events) e).worker = Worker.step
          (Runs.run (step cfg) (init chain) events).worker e') :
        ∃ es : List (Worker.Event SubmissionJob SubmissionResult), (∀ e ∈ es, e.NonEmpty) ∧
          es.filterMap Worker.Event.id? = (events ++ [e]).filterMap Event.id? ∧
          (Runs.run (step cfg) (init chain) (events ++ [e])).worker = Runs.run Worker.step Worker.init es := by
      refine ⟨es ++ [e'], List.forall_mem_append.2 ⟨hes, List.forall_mem_singleton.2 hne⟩, ?_, ?_⟩
      · rw [List.filterMap_append, List.filterMap_append, hids]
        simp only [List.filterMap_cons, hid, List.filterMap_nil]
      · rw [Runs.run_concat, Runs.run_concat, hstep, hw]
    rcases hid : e.id? with _ | id
    · rcases step_worker cfg (Runs.run (step cfg) (init chain) events) hid with h | ⟨outcome, h⟩
      · refine ⟨es, hes, ?_, ?_⟩
        · rw [List.filterMap_append, hids]
          simp only [List.filterMap_cons, hid, List.filterMap_nil, List.append_nil]
        · rw [Runs.run_concat, h, hw]
      · exact snoc (.settle outcome) trivial hid.symm h
    · cases e with
      | enqueue id data => exact snoc (.enqueue id data) (hlast _ (List.mem_singleton_self _)) rfl (step_worker_enqueue ..)
      | _ => cases hid

/-! ### A sample aggregator

Its libraries accept everything and its permutation is constant, its operator is account 1 of the sample
deployment, and its jobs are those of device 7. -/

namespace SampleJobs
open V3.TestChain

def config : Config := ⟨⟨fun _ => Vector.replicate 5 0, fun _ _ _ => .ok true⟩, packKeccak, 1⟩

def tools : CircuitTools := ⟨fun _ => .ok [], fun _ => .ok ⟨[], List.replicate 9 "0"⟩, fun _ => .ok true⟩

def job (session epoch : U64) : SubmissionJob :=
  ⟨"", ⟨7, session.toNat, epoch.toNat, 0, 0, 0, 0, List.replicate 100 ⟨0, 0, 0⟩⟩, List.replicate 64 0, List.replicate 64 0⟩

def chain : V3State := V3.exec packKeccak (deployed chainA) (grantOperator chainA)

def after (events : List Event) : Pipeline := Runs.run (step config) (init chain) events

theorem poseidonSponge_zero (msg : List Nat) : Poseidon.poseidonSponge config.lib.perm msg = 0 := by
  have hperm (state : Poseidon.State) : Poseidon.permute config.lib.perm state = Vector.replicate 5 0 := by
    show (Vector.replicate 5 (0 : Field)).map ZMod.val = _
    rw [Vector.map_replicate, ZMod.val_zero]
  have hstate : (msg.foldl (Poseidon.absorb config.lib.perm) (Vector.replicate 5 0, 0)).2 = 0 →
      (msg.foldl (Poseidon.absorb config.lib.perm) (Vector.replicate 5 0, 0)).1 = Vector.replicate 5 0 := by
    induction msg using List.reverseRecOn with
    | nil => exact fun _ => rfl
    | append_singleton msg m _ =>
      rw [List.foldl_append, List.foldl_cons, List.foldl_nil, Poseidon.absorb]
      split
      · exact fun _ => hperm _
      · exact fun h => absurd h (Nat.succ_ne_zero _)
  rw [Poseidon.poseidonSponge, Poseidon.squeeze]
  split
  · rw [hperm]; rfl
  · next h => rw [hstate (not_not.1 h)]; rfl

theorem prepare_eq {data : SubmissionJob} (hs : data.signature.length = 64) (hp : data.pubkey.length = 64)
    (hn : data.payload.readings.length = 100) :
    Process.prepare config.lib tools data = .ok (List.replicate 32 0, ⟨[], List.replicate 9 "0"⟩) := by
  have hash : Aggregator.computePayloadHash config.lib.perm data.payload = .ok (List.replicate 32 0) := by
    rw [Aggregator.computePayloadHash_of_length hn, poseidonSponge_zero]
    rfl
  have hvalid : Process.precheck config.lib (List.replicate 32 0) data = .ok true := by
    rw [Process.precheck, Process.pubkeyWithPrefix, revertIf_of_not (by omega)]
    rfl
  obtain ⟨w, hw, -⟩ := @Encoders.prepareWitnessInputs_spec config.lib.perm _ _ _ hs hp hn
  rw [Process.prepare, hash]
  show ((Process.precheck config.lib (List.replicate 32 0) data).mapError WorkerError.other >>= fun _ => _) = _
  rw [hvalid, Prover.generateWitness, hw]
  rfl

/-- The sample job for a session, whatever its flag. -/
theorem submitArgs_flag (s e flag : U64) :
    submitArgs { (job s e).payload with tamper_flag := flag.toNat } (List.replicate 32 0) (job s e).signature (job s e).pubkey
      ⟨[], List.replicate 9 "0"⟩ =
      some { submission 7 s e with pubInputs := { (submission 7 s e).pubInputs with tamperFlag := flag } } := by
  have hu (x : U64) : IsU64 (x.toNat : ℤ) ∧ (x.toNat : ℤ) = x.toNat := ⟨⟨Int.natCast_nonneg _, by omega⟩, rfl⟩
  have hi : IsI64 0 ∧ (0 : I64).toInt = 0 := by decide
  have hhash : List.replicate 32 0 = wordBytes 0 := by decide
  have henergy : Prover.computeTotalEnergy (job 0 0).payload = 0 := by decide +kernel
  have ht : Prover.computeTotalEnergy { (job s e).payload with tamper_flag := flag.toNat } = 0 := henergy
  have hpi : pubInputs { (job s e).payload with tamper_flag := flag.toNat } (List.replicate 32 0) =
      some { (submission 7 s e).pubInputs with tamperFlag := flag } :=
    pubInputs_eq_some.2 ⟨hu 7, hu s, hu e, hi, hi, hu 0, hu flag, hhash, ht ▸ hu 0⟩
  rw [submitArgs, hpi]
  rfl

theorem submitArgs_job (s e : U64) :
    submitArgs (job s e).payload (List.replicate 32 0) (job s e).signature (job s e).pubkey ⟨[], List.replicate 9 "0"⟩ =
      some (submission 7 s e) := submitArgs_flag s e 0

theorem step_prepared_of {p : Pipeline} {data : SubmissionJob} {a : SubmitArgs} (hphase : p.phase = .preparing)
    (hjob : p.currentJob.map (·.data) = some data) (hs : data.signature.length = 64) (hp : data.pubkey.length = 64)
    (hn : data.payload.readings.length = 100)
    (ha : submitArgs data.payload (List.replicate 32 0) data.signature data.pubkey ⟨[], List.replicate 9 "0"⟩ = some a) :
    step config p (.prepared tools) = { p with phase := .simulating (some a) } := by
  obtain ⟨r, hr, rfl⟩ := Option.map_eq_some_iff.1 hjob
  simp only [step, hphase, hr, prepare_eq hs hp hn, ha]

theorem step_prepared {p : Pipeline} {s e : U64} (hphase : p.phase = .preparing)
    (hjob : p.currentJob.map (·.data) = some (job s e)) :
    step config p (.prepared tools) = { p with phase := .simulating (some (submission 7 s e)) } :=
  step_prepared_of hphase hjob rfl rfl List.length_replicate (submitArgs_job s e)

/-- The rest of an attempt up to its signed transaction. -/
def sign : List Event := [.simulated (.ok chainA), .written (.ok ())]

end SampleJobs

end Pipeline
end InfraVeritas
