import InfraVeritas.Lib.Checks
import InfraVeritas.Lib.Keyed

/-!
# `InMemoryQueue`

The job map in insertion order and the FIFO list of pending ids (`queue/index.ts`). `QueueInv` is its
representation invariant relative to the job in process: what is pending, what is in process, how often
a job was claimed, and that jobs are claimed for the first time in the order they were enqueued.
-/

namespace InfraVeritas
open Checks

inductive JobStatus
  | pending
  | processing
  | complete
  | failed
  | quarantined
deriving DecidableEq, Repr

structure JobError where
  code : String
  message : String
deriving DecidableEq, Repr

structure JobRecord (T R : Type) where
  id : String
  data : T
  status : JobStatus
  attempts : Nat
  result : Option R
  error : Option JobError

/-- `complete`, `failed` and `quarantined` are final. -/
def JobStatus.Terminal (s : JobStatus) : Prop := s = .complete ∨ s = .failed ∨ s = .quarantined

instance : DecidablePred JobStatus.Terminal := fun _ => inferInstanceAs (Decidable (_ ∨ _))

structure InMemoryQueue (T R : Type) where
  records : List (JobRecord T R)
  pending : List String

namespace InMemoryQueue
variable {T R : Type}

/-- `maxAttempts` of `fail`. -/
def MAX_ATTEMPTS : Nat := 3

def empty : InMemoryQueue T R := ⟨[], []⟩

def get (q : InMemoryQueue T R) (id : String) : Option (JobRecord T R) := Keyed.find JobRecord.id q.records id

def enqueue (q : InMemoryQueue T R) (id : String) (data : T) : Except String (InMemoryQueue T R) := do
  revertIf ((q.get id).isSome = true) s!"Job {id} already exists"
  return { records := q.records ++ [⟨id, data, .pending, 0, none, none⟩], pending := q.pending ++ [id] }

/-- Change the record of `id` in place, if there is one. -/
def update (q : InMemoryQueue T R) (id : String) (f : JobRecord T R → JobRecord T R) : InMemoryQueue T R :=
  { q with records := Keyed.modify JobRecord.id q.records id f }

def start (r : JobRecord T R) : JobRecord T R := { r with status := .processing, attempts := r.attempts + 1 }

def claim (q : InMemoryQueue T R) : InMemoryQueue T R × Option (JobRecord T R) :=
  match q.pending with
  | [] => (q, none)
  | id :: rest =>
    let q := { q with pending := rest }
    if id = "" then (q, none)
    else match q.get id with
      | none => (q, none)
      | some record => (q.update id start, some (start record))

def complete (q : InMemoryQueue T R) (id : String) (result : R) : InMemoryQueue T R :=
  q.update id fun r => { r with status := .complete, result := some result }

def fail (q : InMemoryQueue T R) (id code message : String) : InMemoryQueue T R :=
  match q.get id with
  | none => q
  | some record =>
    if record.attempts < MAX_ATTEMPTS then
      { q.update id fun r => { r with error := some ⟨code, message⟩, status := .pending } with
        pending := q.pending ++ [id] }
    else q.update id fun r => { r with error := some ⟨code, message⟩, status := .failed }

def quarantine (q : InMemoryQueue T R) (id code message : String) : InMemoryQueue T R :=
  q.update id fun r => { r with status := .quarantined, error := some ⟨code, message⟩ }

/-! ### Lookups -/

variable {q q' : InMemoryQueue T R} {id id' : String} {data : T} {f : JobRecord T R → JobRecord T R}
  {r : JobRecord T R}

theorem id_of_get (h : q.get id = some r) : r.id = id := Keyed.key_of_find h

theorem get_update (hf : ∀ r, (f r).id = r.id) :
    (q.update id f).get id' = (q.get id').map fun r => if id' = id then f r else r :=
  Keyed.find_modify hf

theorem get_update_self (hf : ∀ r, (f r).id = r.id) (h : q.get id = some r) :
    (q.update id f).get id = some (f r) :=
  Keyed.find_modify_self hf h

theorem get_update_ne (hf : ∀ r, (f r).id = r.id) (hne : id' ≠ id) : (q.update id f).get id' = q.get id' :=
  Keyed.find_modify_ne hf hne

@[simp] theorem pending_update : (q.update id f).pending = q.pending := rfl

theorem ids_update (hf : ∀ r, (f r).id = r.id) : (q.update id f).records.map (·.id) = q.records.map (·.id) :=
  Keyed.map_key_modify hf

theorem enqueue_eq_ok : q.enqueue id data = .ok q' ↔
    q.get id = none ∧ q' = ⟨q.records ++ [⟨id, data, .pending, 0, none, none⟩], q.pending ++ [id]⟩ := by
  unfold enqueue
  simp only [bind_eq_ok, exists_punit, revertIf_eq_ok, pure_eq_ok, Bool.not_eq_true, Option.isSome_eq_false_iff,
    Option.isNone_iff_eq_none]
  exact and_congr_right fun _ => eq_comm

theorem get_enqueue (h : q.enqueue id data = .ok q') :
    q'.get id' = if id' = id then some ⟨id, data, .pending, 0, none, none⟩ else q.get id' := by
  obtain ⟨hnone, rfl⟩ := enqueue_eq_ok.1 h
  exact Keyed.find_concat (x := (⟨id, data, .pending, 0, none, none⟩ : JobRecord T R)) hnone

theorem pending_enqueue (h : q.enqueue id data = .ok q') : q'.pending = q.pending ++ [id] := by
  obtain ⟨-, rfl⟩ := enqueue_eq_ok.1 h
  rfl

/-! ### Later states -/

/-- `q'` comes after `q`: no record is lost or changes its data, no claim is undone, and a final status
is final. -/
def Keeps (q q' : InMemoryQueue T R) : Prop :=
  ∀ id r, q.get id = some r → ∃ r', q'.get id = some r' ∧ r'.data = r.data ∧ r.attempts ≤ r'.attempts ∧
    (r.status.Terminal → r' = r)

namespace Keeps

theorem refl (q : InMemoryQueue T R) : Keeps q q := fun _ r hr => ⟨r, hr, rfl, Nat.le_refl _, fun _ => rfl⟩

theorem trans {q₁ q₂ q₃ : InMemoryQueue T R} (h : Keeps q₁ q₂) (h' : Keeps q₂ q₃) : Keeps q₁ q₃ := by
  intro id r hr
  obtain ⟨r₂, hr₂, hd, ha, ht⟩ := h id r hr
  obtain ⟨r₃, hr₃, hd', ha', ht'⟩ := h' id r₂ hr₂
  refine ⟨r₃, hr₃, hd'.trans hd, Nat.le_trans ha ha', ?_⟩
  intro hs
  have heq := ht hs
  exact (ht' (heq ▸ hs)).trans heq

theorem enqueue (h : q.enqueue id data = .ok q') : Keeps q q' := by
  intro id' r hr
  have hne : id' ≠ id := fun he => by
    rw [he, (enqueue_eq_ok.1 h).1] at hr
    cases hr
  refine ⟨r, ?_, rfl, Nat.le_refl _, fun _ => rfl⟩
  rw [get_enqueue h, if_neg hne, hr]

theorem of_get (hr : q.get id = some r) {r' : JobRecord T R} (hr' : q'.get id = some r')
    (hd : r'.data = r.data) (ha : r.attempts ≤ r'.attempts) (ht : ¬ r.status.Terminal)
    (ho : ∀ id', id' ≠ id → q'.get id' = q.get id') : Keeps q q' := by
  intro id' r₁ hr₁
  by_cases he : id' = id
  · subst he
    rw [hr, Option.some.injEq] at hr₁
    subst hr₁
    exact ⟨r', hr', hd, ha, fun h => absurd h ht⟩
  · exact ⟨r₁, (ho id' he).trans hr₁, rfl, Nat.le_refl _, fun _ => rfl⟩

end Keeps

/-! ### The representation invariant -/

/-- A record of a queue whose job in process is `cur`. -/
structure RecordInv (cur : Option String) (r : JobRecord T R) : Prop where
  nonempty : r.id ≠ ""
  attempts : r.attempts ≤ MAX_ATTEMPTS
  retry : r.status = .pending → r.attempts < MAX_ATTEMPTS ∧ (1 ≤ r.attempts → r.error.isSome = true)
  claimed : r.status ≠ .pending → 1 ≤ r.attempts
  processing : r.status = .processing ↔ cur = some r.id

/-- The jobs never claimed yet are the last ones enqueued, and wait in that order. -/
def Ordered (q : InMemoryQueue T R) : Prop :=
  ∃ claimed fresh, q.records = claimed ++ fresh ∧ (∀ r ∈ claimed, 1 ≤ r.attempts) ∧
    (∀ r ∈ fresh, r.attempts = 0) ∧ (fresh.map (·.id)).Sublist q.pending

structure QueueInv (q : InMemoryQueue T R) (cur : Option String) : Prop where
  nodup : (q.records.map (·.id)).Nodup
  pendingNodup : q.pending.Nodup
  pending : ∀ id, id ∈ q.pending ↔ ∃ r, q.get id = some r ∧ r.status = .pending
  current : ∀ id, cur = some id → ∃ r, q.get id = some r
  records : ∀ id r, q.get id = some r → RecordInv cur r
  order : Ordered q

namespace QueueInv
variable {cur : Option String}

theorem empty : QueueInv (InMemoryQueue.empty : InMemoryQueue T R) none := by
  refine ⟨List.nodup_nil, List.nodup_nil, fun id => ⟨fun h => (by cases h), fun ⟨r, h, _⟩ => (by cases h)⟩,
    fun id h => (by cases h), fun id r h => (by cases h), ?_⟩
  refine ⟨[], [], rfl, fun r h => (by cases h), fun r h => (by cases h), ?_⟩
  exact List.Sublist.refl []

theorem get_iff (h : QueueInv q cur) : q.get id = some r ↔ r ∈ q.records ∧ r.id = id :=
  Keyed.find_eq_some_iff h.nodup

theorem enqueue (h : QueueInv q cur) (hid : id ≠ "") (hq : q.enqueue id data = .ok q') : QueueInv q' cur := by
  obtain ⟨hnone, hq'⟩ := enqueue_eq_ok.1 hq
  have hget (id' : String) : q'.get id' = _ := get_enqueue hq
  have hnew : id ∉ q.records.map (·.id) := Keyed.find_eq_none_iff.1 hnone
  have hcur : cur ≠ some id := fun hc => by
    obtain ⟨r, hr⟩ := h.current id hc
    rw [hnone] at hr; cases hr
  have hpend : id ∉ q.pending := fun hp => by
    obtain ⟨r, hr, -⟩ := (h.pending id).1 hp
    rw [hnone] at hr; cases hr
  refine ⟨?_, ?_, ?_, ?_, ?_, ?_⟩
  · rw [hq', List.map_append, List.nodup_append]
    refine ⟨h.nodup, List.nodup_singleton _, ?_⟩
    rintro a ha b hb rfl
    have hid' : a = id := List.mem_singleton.1 hb
    exact hnew (hid' ▸ ha)
  · rw [pending_enqueue hq, List.nodup_append]
    refine ⟨h.pendingNodup, List.nodup_singleton _, ?_⟩
    rintro a ha b hb rfl
    exact hpend (List.mem_singleton.1 hb ▸ ha)
  · intro id'
    rw [pending_enqueue hq, List.mem_append, List.mem_singleton, hget]
    split
    · next he => exact ⟨fun _ => ⟨_, rfl, rfl⟩, fun _ => .inr he⟩
    · next he => rw [← h.pending id', or_iff_left he]
  · intro id' hc
    rw [hget]
    split
    · exact ⟨_, rfl⟩
    · exact h.current id' hc
  · intro id' r hr
    rw [hget] at hr
    split at hr
    · obtain rfl := Option.some.inj hr
      refine ⟨hid, Nat.zero_le _, fun _ => ⟨(by decide : 0 < MAX_ATTEMPTS), fun h1 => absurd h1 (Nat.not_lt_zero 0)⟩, ?_, ?_⟩
      · exact fun hs => absurd rfl hs
      · exact ⟨fun hs => (by cases hs), fun hc => absurd hc hcur⟩
    · exact h.records id' r hr
  · obtain ⟨claimed, fresh, hrec, hc, hf, hsub⟩ := h.order
    refine ⟨claimed, fresh ++ [⟨id, data, .pending, 0, none, none⟩], ?_, hc, ?_, ?_⟩
    · rw [hq', hrec, List.append_assoc]
    · intro r hr
      rw [List.mem_append, List.mem_singleton] at hr
      rcases hr with hr | rfl
      · exact hf r hr
      · rfl
    · rw [pending_enqueue hq, List.map_append]
      exact hsub.append (List.Sublist.refl _)

theorem claim_some {rest : List String} (h : QueueInv q none) (hp : q.pending = id :: rest) :
    ∃ r, q.get id = some r ∧ q.claim = (({ q with pending := rest } : InMemoryQueue T R).update id start, some (start r)) ∧
      QueueInv (({ q with pending := rest } : InMemoryQueue T R).update id start) (some id) := by
  obtain ⟨r, hget, hst⟩ := (h.pending id).1 (by rw [hp]; exact List.mem_cons_self ..)
  have hr := h.records id r hget
  have hid : r.id = id := id_of_get hget
  have hne : id ≠ "" := hid ▸ hr.nonempty
  have hnd := h.pendingNodup
  rw [hp, List.nodup_cons] at hnd
  set q₁ : InMemoryQueue T R := { q with pending := rest }
  have hstart : ∀ r : JobRecord T R, (start r).id = r.id := fun _ => rfl
  have hclaim : q.claim = (q₁.update id start, some (start r)) := by
    rw [claim, hp]
    simp only [hne, if_false]
    rw [show (({ q with pending := rest } : InMemoryQueue T R).get id) = some r from hget]
  have hget₁ : ∀ id', q₁.get id' = q.get id' := fun _ => rfl
  refine ⟨r, hget, hclaim, ?_, hnd.2, ?_, ?_, ?_, ?_⟩
  · rw [ids_update hstart]; exact h.nodup
  · intro id'
    rw [get_update hstart, hget₁]
    by_cases he : id' = id
    · subst he
      rw [hget]
      exact ⟨fun hm => absurd hm hnd.1, fun ⟨r', hr', hs⟩ => by
        rw [Option.map_some, if_pos rfl, Option.some.injEq] at hr'
        subst hr'
        cases hs⟩
    · simp only [if_neg he, Option.map_id']
      rw [← h.pending id', hp, List.mem_cons, or_iff_right he]
      rfl
  · intro id' hc
    obtain rfl := Option.some.inj hc
    exact ⟨start r, get_update_self hstart hget⟩
  · intro id' r' hr'
    by_cases he : id' = id
    · subst he
      rw [get_update_self (q := q₁) hstart hget, Option.some.injEq] at hr'
      subst hr'
      have hlt := (hr.retry hst).1
      refine ⟨hr.nonempty, hlt, fun hs => (by cases hs), fun _ => Nat.succ_pos _, ?_⟩
      exact ⟨fun _ => congrArg some hid.symm, fun _ => rfl⟩
    · rw [get_update_ne hstart he, hget₁] at hr'
      have hr₁ := h.records id' r' hr'
      refine ⟨hr₁.nonempty, hr₁.attempts, hr₁.retry, hr₁.claimed, hr₁.processing.trans ?_⟩
      have hid' := id_of_get hr'
      exact ⟨fun hc => (by cases hc), fun hc => absurd (hid'.symm.trans (Option.some.inj hc).symm) he⟩
  · obtain ⟨claimed, fresh, hrec, hc, hf, hsub⟩ := h.order
    rw [hp] at hsub
    have hmod : (q₁.update id start).records =
        Keyed.modify JobRecord.id claimed id start ++ Keyed.modify JobRecord.id fresh id start := by
      show Keyed.modify JobRecord.id q.records id start = _
      rw [hrec, Keyed.modify_append]
    have hclaimed : ∀ r ∈ Keyed.modify JobRecord.id claimed id start, 1 ≤ r.attempts := fun r hr => by
      obtain ⟨r', hr', rfl⟩ := Keyed.mem_modify hr
      split
      · exact Nat.succ_pos _
      · exact hc r' hr'
    rw [List.sublist_cons_iff] at hsub
    rcases hsub with hsub | ⟨ids, hids, hsub⟩
    · -- a retried job: it is not among the fresh ones, or it would be pending twice
      have hnot : id ∉ fresh.map (·.id) := fun hm => hnd.1 (hsub.subset hm)
      exact ⟨_, fresh, by rw [hmod, Keyed.modify_of_notMem hnot], hclaimed, hf, hsub⟩
    · -- the first fresh job
      obtain ⟨r₀, fresh', rfl, hr₀, rfl⟩ := List.map_eq_cons_iff.1 hids
      have hids' : (claimed.map (·.id) ++ (r₀ :: fresh').map (·.id)).Nodup := by
        rw [← List.map_append, ← hrec]; exact h.nodup
      rw [List.map_cons, hr₀, List.nodup_append, List.nodup_cons] at hids'
      obtain ⟨-, ⟨hnot, -⟩, -⟩ := hids'
      refine ⟨Keyed.modify JobRecord.id claimed id start ++ [start r₀], fresh', ?_, ?_, ?_, hsub⟩
      · have htail : Keyed.modify JobRecord.id fresh' id start = fresh' := Keyed.modify_of_notMem hnot
        rw [hmod, List.append_assoc]
        show _ ++ ((if r₀.id = id then start r₀ else r₀) :: Keyed.modify JobRecord.id fresh' id start) = _
        rw [if_pos hr₀, htail]
        rfl
      · intro r hr
        rw [List.mem_append, List.mem_singleton] at hr
        rcases hr with hr | rfl
        · exact hclaimed r hr
        · exact Nat.succ_pos _
      · exact fun r hr => hf r (List.mem_cons_of_mem _ hr)

theorem claim_none (hp : q.pending = []) : q.claim = (q, none) := by rw [claim, hp]

/-- The job in process leaves it with a new status; a job that is pending again goes to the tail. -/
theorem settle (h : QueueInv q (some id)) (hget : q.get id = some r)
    (hf : ∀ r, (f r).id = r.id ∧ (f r).attempts = r.attempts) (hst : (f r).status ≠ .processing)
    (hretry : (f r).status = .pending → r.attempts < MAX_ATTEMPTS ∧ (f r).error.isSome = true) :
    QueueInv { q.update id f with pending := q.pending ++ if (f r).status = .pending then [id] else [] } none := by
  have hid := fun r => (hf r).1
  have hr := h.records id r hget
  have hrid : r.id = id := id_of_get hget
  have hproc : r.status = .processing := hr.processing.2 (congrArg some hrid.symm)
  have hpend : id ∉ q.pending := fun hp => by
    obtain ⟨r', hr', hs⟩ := (h.pending id).1 hp
    rw [hget, Option.some.injEq] at hr'
    subst hr'
    rw [hproc] at hs
    cases hs
  have hattempts : 1 ≤ r.attempts := hr.claimed (by rw [hproc]; decide)
  have hget' : ∀ id', InMemoryQueue.get { q.update id f with
      pending := q.pending ++ if (f r).status = .pending then [id] else [] } id' = (q.update id f).get id' := fun _ => rfl
  refine ⟨?_, ?_, ?_, fun id' hc => (by cases hc), ?_, ?_⟩
  · show ((q.update id f).records.map (·.id)).Nodup
    rw [ids_update hid]; exact h.nodup
  · refine List.nodup_append.2 ⟨h.pendingNodup, ?_, ?_⟩
    · split
      · exact List.nodup_singleton _
      · exact List.nodup_nil
    · rintro a ha b hb rfl
      split at hb
      · exact hpend (List.mem_singleton.1 hb ▸ ha)
      · cases hb
  · intro id'
    rw [hget']
    show id' ∈ q.pending ++ _ ↔ _
    by_cases he : id' = id
    · subst he
      rw [get_update_self hid hget, List.mem_append, or_iff_right hpend]
      split
      · next hs => exact ⟨fun _ => ⟨_, rfl, hs⟩, fun _ => List.mem_singleton_self _⟩
      · next hs => exact ⟨fun hm => (by cases hm), fun ⟨r', hr', hs'⟩ => absurd (Option.some.inj hr' ▸ hs') hs⟩
    · rw [get_update_ne hid he, ← h.pending id', List.mem_append]
      refine or_iff_left ?_
      intro hm
      split at hm
      · exact he (List.mem_singleton.1 hm)
      · cases hm
  · intro id' r' hr'
    rw [hget'] at hr'
    by_cases he : id' = id
    · subst he
      rw [get_update_self hid hget, Option.some.injEq] at hr'
      subst hr'
      refine ⟨?_, ?_, fun hs => ?_, fun _ => ?_, fun hs => absurd hs hst, fun hc => (by cases hc)⟩
      · rw [hid]; exact hr.nonempty
      · rw [(hf r).2]; exact hr.attempts
      · rw [(hf r).2]; exact ⟨(hretry hs).1, fun _ => (hretry hs).2⟩
      · rw [(hf r).2]; exact hattempts
    · rw [get_update_ne hid he] at hr'
      have hr₁ := h.records id' r' hr'
      refine ⟨hr₁.nonempty, hr₁.attempts, hr₁.retry, hr₁.claimed, ?_⟩
      refine ⟨fun hs => absurd (hr₁.processing.1 hs) fun hc => he ?_, fun hc => (by cases hc)⟩
      exact (id_of_get hr').symm.trans (Option.some.inj hc).symm
  · obtain ⟨claimed, fresh, hrec, hc, hfr, hsub⟩ := h.order
    have hnot : id ∉ fresh.map (·.id) := fun hm => by
      obtain ⟨r', hr', hid'⟩ := List.mem_map.1 hm
      have hmem : r' ∈ q.records := by rw [hrec]; exact List.mem_append_right _ hr'
      rw [(h.get_iff.2 ⟨hmem, hid'⟩ : q.get id = some r'), Option.some.injEq] at hget
      subst hget
      rw [hfr _ hr'] at hattempts
      exact absurd hattempts (by decide)
    refine ⟨Keyed.modify JobRecord.id claimed id f, fresh, ?_, fun r' hr' => ?_, hfr, ?_⟩
    · show Keyed.modify JobRecord.id q.records id f = _
      rw [hrec, Keyed.modify_append, Keyed.modify_of_notMem hnot]
    · obtain ⟨r₁, hr₁, rfl⟩ := Keyed.mem_modify hr'
      split
      · rw [(hf r₁).2]; exact hc r₁ hr₁
      · exact hc r₁ hr₁
    · exact hsub.trans (List.sublist_append_left ..)

theorem finish (h : QueueInv q (some id)) (hget : q.get id = some r)
    (hf : ∀ r, (f r).id = r.id ∧ (f r).attempts = r.attempts) (hst : (f r).status ≠ .processing)
    (hp : (f r).status ≠ .pending) : QueueInv (q.update id f) none := by
  have hs := h.settle hget hf hst fun h' => absurd h' hp
  rw [if_neg hp, List.append_nil] at hs
  exact hs

theorem requeue (h : QueueInv q (some id)) (hget : q.get id = some r)
    (hf : ∀ r, (f r).id = r.id ∧ (f r).attempts = r.attempts) (hst : (f r).status = .pending)
    (hlt : r.attempts < MAX_ATTEMPTS) (he : (f r).error.isSome = true) :
    QueueInv { q.update id f with pending := q.pending ++ [id] } none := by
  have hs := h.settle hget hf (by rw [hst]; decide) fun _ => ⟨hlt, he⟩
  rwa [if_pos hst] at hs

theorem claimed_before {l₁ l₂ : List (JobRecord T R)} (h : QueueInv q (some r.id))
    (hrec : q.records = l₁ ++ r :: l₂) : ∀ r' ∈ l₁, 1 ≤ r'.attempts := by
  have hget : q.get r.id = some r := h.get_iff.2 ⟨by rw [hrec]; simp, rfl⟩
  have hr := h.records _ r hget
  have hattempts : 1 ≤ r.attempts := hr.claimed (by rw [hr.processing.2 rfl]; decide)
  obtain ⟨claimed, fresh, hrec', hc, hf, -⟩ := h.order
  rw [hrec] at hrec'
  intro r' hr'
  rcases List.append_eq_append_iff.1 hrec' with ⟨m, hm, hm'⟩ | ⟨m, hm, hm'⟩
  · exact hc r' (hm ▸ List.mem_append_left _ hr')
  · -- `r` itself would be fresh
    rcases m with _ | ⟨r₀, m⟩
    · rw [List.append_nil] at hm
      exact hc r' (hm ▸ hr')
    · have hmem : r ∈ fresh := by rw [hm']; simp
      rw [hf r hmem] at hattempts
      exact absurd hattempts (by decide)

end QueueInv

end InMemoryQueue
end InfraVeritas
