import Mathlib.Data.List.Induction

/-!
# Runs of a deterministic step function

A system is a step function `step : σ → τ → σ` on states `σ` and inputs `τ` (a transaction, an event,
a scheduling choice); nondeterminism sits in the inputs. `run step s ts` is the state after the
inputs `ts`, and `steps step s ts` lists every input with the state it was applied to. An invariant
is proved once per input (`run_inv`), possibly only for the inputs of this run (`run_inv_of_steps`).
-/

namespace Runs

variable {σ τ : Type*} (step : σ → τ → σ)

/-- The state after the inputs `ts`, from `s`. -/
def run (s : σ) (ts : List τ) : σ := ts.foldl step s

/-- Every input of the run together with the state it is applied to. -/
def steps : σ → List τ → List (σ × τ)
  | _, [] => []
  | s, t :: ts => (s, t) :: steps (step s t) ts

@[simp] theorem run_nil (s : σ) : run step s [] = s := rfl

@[simp] theorem run_cons (s : σ) (t : τ) (ts : List τ) : run step s (t :: ts) = run step (step s t) ts := rfl

theorem run_append (s : σ) (ts us : List τ) : run step s (ts ++ us) = run step (run step s ts) us :=
  List.foldl_append

theorem run_concat (s : σ) (ts : List τ) (t : τ) : run step s (ts ++ [t]) = step (run step s ts) t := by
  rw [run_append, run_cons, run_nil]

@[simp] theorem steps_nil (s : σ) : steps step s [] = [] := rfl

@[simp] theorem steps_cons (s : σ) (t : τ) (ts : List τ) :
    steps step s (t :: ts) = (s, t) :: steps step (step s t) ts := rfl

theorem steps_append (s : σ) (ts us : List τ) :
    steps step s (ts ++ us) = steps step s ts ++ steps step (run step s ts) us := by
  induction ts generalizing s with
  | nil => rfl
  | cons t ts ih => simp [ih]

theorem steps_concat (s : σ) (ts : List τ) (t : τ) :
    steps step s (ts ++ [t]) = steps step s ts ++ [(run step s ts, t)] := by
  rw [steps_append]; rfl

theorem mem_steps_iff {s s' : σ} {t : τ} {ts : List τ} :
    (s', t) ∈ steps step s ts ↔ ∃ us vs, ts = us ++ t :: vs ∧ run step s us = s' := by
  constructor
  · intro h
    induction ts generalizing s with
    | nil => simp at h
    | cons u ts ih =>
      rw [steps_cons, List.mem_cons] at h
      rcases h with h | h
      · obtain ⟨rfl, rfl⟩ := Prod.mk.inj h
        exact ⟨[], ts, rfl, rfl⟩
      · obtain ⟨us, vs, rfl, hs⟩ := ih h
        exact ⟨u :: us, vs, rfl, hs⟩
  · rintro ⟨us, vs, rfl, rfl⟩
    rw [steps_append]
    simp

theorem input_mem {s : σ} {ts : List τ} {x : σ × τ} (hx : x ∈ steps step s ts) : x.2 ∈ ts := by
  obtain ⟨us, vs, rfl, -⟩ := (mem_steps_iff step).1 hx
  simp

variable {step}

/-- Induction over a run from the right: a property of the inputs so far and the state reached. -/
theorem run_induction {P : List τ → σ → Prop} {s : σ} (h0 : P [] s)
    (hs : ∀ ts t, P ts (run step s ts) → P (ts ++ [t]) (step (run step s ts) t)) (ts : List τ) :
    P ts (run step s ts) := by
  induction ts using List.reverseRecOn with
  | nil => exact h0
  | append_singleton ts t ih =>
    rw [run_concat]
    exact hs ts t ih

/-- A property preserved by the inputs of this run, in the states they are applied to. -/
theorem run_inv_of_steps {I : σ → Prop} {s : σ} {ts : List τ} (h0 : I s)
    (hs : ∀ x ∈ steps step s ts, I x.1 → I (step x.1 x.2)) : I (run step s ts) := by
  induction ts generalizing s with
  | nil => exact h0
  | cons t ts ih =>
    exact ih (hs (s, t) (by simp) h0) fun x hx => hs x (by simp [hx])

/-- A property preserved by every input holds after every run. -/
theorem run_inv {I : σ → Prop} {s : σ} (h0 : I s) (hs : ∀ s t, I s → I (step s t)) (ts : List τ) :
    I (run step s ts) :=
  run_inv_of_steps h0 fun x _ => hs x.1 x.2

/-- Inputs that change nothing, however many. -/
theorem run_eq_self {s : σ} {ts : List τ} (h : ∀ t ∈ ts, step s t = s) : run step s ts = s := by
  induction ts with
  | nil => rfl
  | cons t ts ih =>
    rw [run_cons, h t (by simp)]
    exact ih fun u hu => h u (by simp [hu])

/-- An account that every input of the run settles: it is paid one for each input that `p` counts. -/
theorem countP_steps_add {p : σ × τ → Bool} {credit : σ → Int} {s : σ} {ts : List τ}
    (h : ∀ x ∈ steps step s ts, (if p x then 1 else 0) + credit (step x.1 x.2) = credit x.1) :
    ((steps step s ts).countP p : Int) + credit (run step s ts) = credit s := by
  induction ts generalizing s with
  | nil => simp
  | cons t ts ih =>
    have hfirst := h (s, t) (by simp)
    have hrest := ih (s := step s t) fun x hx => h x (by simp [hx])
    rw [steps_cons, List.countP_cons, run_cons]
    dsimp only at hfirst
    split at hfirst
    · next hp => rw [if_pos hp]; omega
    · next hp => rw [if_neg hp]; omega

/-! ### The log of a run -/

/-- Every input of the run adds at most one entry to the log `out`. -/
def AddsOne {β : Type*} (step : σ → τ → σ) (out : σ → List β) : Prop :=
  ∀ s t, out (step s t) = out s ∨ ∃ e, out (step s t) = out s ++ [e]

theorem AddsOne.length_le {β : Type*} {out : σ → List β} (h : AddsOne step out) (s : σ) (ts : List τ) :
    (out (run step s ts)).length ≤ (out s).length + ts.length := by
  induction ts generalizing s with
  | nil => simp
  | cons t ts ih =>
    rw [run_cons, List.length_cons]
    have hrest := ih (step s t)
    rcases h s t with he | ⟨e, he⟩
    · rw [he] at hrest
      omega
    · rw [he, List.length_append, List.length_singleton] at hrest
      omega

/-- The log grows at its end only. -/
theorem AddsOne.grows {β : Type*} {out : σ → List β} (h : AddsOne step out) (s : σ) (ts : List τ) :
    out s <+: out (run step s ts) := by
  induction ts generalizing s with
  | nil => simp
  | cons t ts ih =>
    refine List.IsPrefix.trans ?_ (ih (step s t))
    rcases h s t with he | ⟨e, he⟩ <;> simp [he]

/-- Every beginning of the log is the log of a beginning of the run. -/
theorem AddsOne.exists_run {β : Type*} {out : σ → List β} (h : AddsOne step out) {s : σ} (h0 : out s = [])
    {ts : List τ} {es : List β} (hes : es <+: out (run step s ts)) : ∃ ts', ts' <+: ts ∧ out (run step s ts') = es := by
  induction ts using List.reverseRecOn with
  | nil =>
    rw [run_nil, h0, List.prefix_nil] at hes
    exact ⟨[], List.nil_prefix, by rw [run_nil, h0, hes]⟩
  | append_singleton ts t ih =>
    have hlast : out (run step s (ts ++ [t])) = es ∨ es <+: out (run step s ts) := by
      rw [run_concat] at hes ⊢
      rcases h (run step s ts) t with he | ⟨e, he⟩
      · rw [he] at hes
        exact .inr hes
      · rw [he, List.prefix_concat_iff] at hes
        exact hes.imp (fun heq => he.trans heq.symm) id
    rcases hlast with heq | hpre
    · exact ⟨ts ++ [t], List.prefix_rfl, heq⟩
    · obtain ⟨ts', hts, heq⟩ := ih hpre
      exact ⟨ts', hts.trans (List.prefix_append ts [t]), heq⟩

/-- The entries of a stream that `f` selects end with `e`: the stream splits at the one that gave `e`. -/
theorem filterMap_eq_concat {α β : Type*} {f : α → Option β} {xs : List α} {es : List β} {e : β}
    (h : xs.filterMap f = es ++ [e]) :
    ∃ ys x zs, xs = ys ++ x :: zs ∧ ys.filterMap f = es ∧ f x = some e ∧ zs.filterMap f = [] := by
  obtain ⟨ys, ws, rfl, hys, hws⟩ := List.filterMap_eq_append_iff.1 h
  obtain ⟨ys', x, zs, rfl, hnone, hx, hzs⟩ := List.filterMap_eq_cons_iff.1 hws
  refine ⟨ys ++ ys', x, zs, by rw [List.append_assoc], ?_, hx, hzs⟩
  rw [List.filterMap_append, hys, List.filterMap_eq_nil_iff.2 hnone, List.append_nil]

end Runs
