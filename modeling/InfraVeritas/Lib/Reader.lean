import InfraVeritas.Lib.Loops
import Mathlib.Tactic.Ring

/-!
# Readers with a moving position

A reader of `data` starts at a position and goes on behind what it has read. `Reads data r size write Valid` says that `r`
succeeds exactly where `data` has the bytes that `write` writes for a valid value, and gives that value. It is closed under
sequencing (`Reads.pair`), loops (`Reads.ofFnM`) and renaming (`Reads.map`), so that a format is read back by the readers in
the order in which it is written, and no other bytes are taken.
-/

namespace Reader

abbrev Reading (ε α : Type) := StateT Nat (Except ε) α

variable {ε α β : Type} {data : List UInt8}

/-- The bytes of `data` from position `b` on begin with `bs`. -/
def At (data : List UInt8) (b : Nat) (bs : List UInt8) : Prop := (data.drop b).take bs.length = bs

theorem at_nil (b : Nat) : At data b [] := List.take_zero

theorem at_append {b : Nat} {as bs : List UInt8} : At data b (as ++ bs) ↔ At data b as ∧ At data (b + as.length) bs := by
  rw [At, At, At, List.length_append, List.take_add, List.drop_drop]
  constructor
  · intro h
    have hle : ((data.drop b).take as.length).length ≤ as.length := List.length_take_le ..
    have hle' : ((data.drop (b + as.length)).take bs.length).length ≤ bs.length := List.length_take_le ..
    have hlen := congrArg List.length h
    rw [List.length_append, List.length_append] at hlen
    exact List.append_inj h (by omega)
  · rintro ⟨h₁, h₂⟩
    rw [h₁, h₂]

theorem at_zero_iff {bs : List UInt8} : At data 0 bs ↔ bs <+: data := by
  rw [At, List.drop_zero, List.prefix_iff_eq_take, eq_comm]

theorem run_bind_eq_ok {r : Reading ε α} {s : α → Reading ε β} {b : Nat} {y : β × Nat} :
    (r >>= s).run b = .ok y ↔ ∃ a b', r.run b = .ok (a, b') ∧ (s a).run b' = .ok y := by
  rw [StateT.run_bind]
  rcases r.run b with e | ⟨a, b'⟩
  · constructor
    · nofun
    · rintro ⟨a, b', ha, -⟩
      cases ha
  · constructor
    · intro h
      exact ⟨a, b', rfl, h⟩
    · rintro ⟨_, _, ha, h⟩
      cases ha
      exact h

theorem run_pure_eq_ok {a : α} {b : Nat} {y : α × Nat} : (pure a : Reading ε α).run b = .ok y ↔ (a, b) = y := by
  rw [StateT.run_pure]
  constructor
  · rintro ⟨⟩
    rfl
  · rintro rfl
    rfl

/-- `r` reads the `size` bytes that `write` writes for a valid value. -/
structure Reads (data : List UInt8) (r : Reading ε α) (size : Nat) (write : α → List UInt8) (Valid : α → Prop) : Prop where
  length {a : α} : Valid a → (write a).length = size
  run_eq_ok {b b' : Nat} {a : α} : r.run b = .ok (a, b') ↔ (Valid a ∧ At data b (write a)) ∧ b' = b + size

/-- Read one value after the other. -/
def pair (r : Reading ε α) (s : Reading ε β) : Reading ε (α × β) := do
  let a ← r
  let b ← s
  return (a, b)

namespace Reads
variable {r : Reading ε α} {s : Reading ε β} {m n : Nat} {w : α → List UInt8} {v : β → List UInt8} {V : α → Prop}
  {U : β → Prop}

theorem pair (hr : Reads data r m w V) (hs : Reads data s n v U) :
    Reads data (Reader.pair r s) (m + n) (fun x => w x.1 ++ v x.2) (fun x => V x.1 ∧ U x.2) where
  length h := by rw [List.length_append, hr.length h.1, hs.length h.2]
  run_eq_ok {b b'} {x} := by
    simp only [Reader.pair, run_bind_eq_ok, run_pure_eq_ok, hr.run_eq_ok, hs.run_eq_ok, Prod.mk.injEq]
    constructor
    · rintro ⟨a, c, ⟨⟨hV, hat⟩, rfl⟩, d, c', ⟨⟨hU, hat'⟩, rfl⟩, rfl, rfl⟩
      rw [at_append, hr.length hV]
      exact ⟨⟨⟨hV, hU⟩, hat, hat'⟩, Nat.add_assoc ..⟩
    · rintro ⟨⟨⟨hV, hU⟩, hat⟩, rfl⟩
      rw [at_append, hr.length hV] at hat
      exact ⟨x.1, _, ⟨⟨hV, hat.1⟩, rfl⟩, x.2, _, ⟨⟨hU, hat.2⟩, rfl⟩, rfl, Nat.add_assoc ..⟩

theorem congr (hr : Reads data r m w V) {w' : α → List UInt8} {V' : α → Prop} (hw : ∀ a, w' a = w a)
    (hV : ∀ a, V' a ↔ V a) : Reads data r m w' V' where
  length h := by rw [hw, hr.length ((hV _).1 h)]
  run_eq_ok {b b'} {a} := by rw [hw, hV, hr.run_eq_ok]

/-- Read from the beginning. -/
theorem run'_eq_ok (hr : Reads data r m w V) {a : α} : r.run' 0 = .ok a ↔ V a ∧ w a <+: data := by
  have hrun : r.run' 0 = Prod.fst <$> r.run 0 := rfl
  rw [hrun, ← at_zero_iff]
  constructor
  · intro h
    rcases hb : r.run 0 with e | ⟨a', b⟩
    · rw [hb] at h
      cases h
    · rw [hb] at h
      cases h
      exact (hr.run_eq_ok.1 hb).1
  · intro h
    rw [hr.run_eq_ok.2 ⟨h, rfl⟩]
    rfl

/-- The values of a type with the same data, such as the record of a tuple's components. -/
theorem map (hr : Reads data r m w V) {f : α → β} {g : β → α} (hfg : ∀ b, f (g b) = b) (hgf : ∀ a, g (f a) = a) :
    Reads data (f <$> r) m (fun b => w (g b)) (fun b => V (g b)) where
  length h := hr.length h
  run_eq_ok {b b'} {x} := by
    simp only [map_eq_pure_bind, run_bind_eq_ok, run_pure_eq_ok, hr.run_eq_ok, Prod.mk.injEq]
    constructor
    · rintro ⟨a, c, h, rfl, rfl⟩
      rwa [hgf]
    · intro h
      exact ⟨g x, b', h, hfg x, rfl⟩

/-- `for (uint256 i = 0; i < n; i++) v[i] = …` -/
theorem ofFnM {n : Nat} {r : Fin n → Reading ε α} {V : Fin n → α → Prop} (hr : ∀ i, Reads data (r i) m w (V i)) :
    Reads data (Vector.ofFnM r) (n * m) (fun as => as.toList.flatMap w) (fun as => ∀ i, V i (as.get i)) := by
  induction n with
  | zero =>
    refine ⟨?_, ?_⟩
    · intro as _
      obtain rfl := as.eq_empty
      simp
    · intro b b' as
      rw [Vector.ofFnM_zero, run_pure_eq_ok, Prod.mk.injEq]
      constructor
      · rintro ⟨rfl, rfl⟩
        exact ⟨⟨nofun, at_nil _⟩, by simp⟩
      · rintro ⟨-, rfl⟩
        exact ⟨as.eq_empty.symm, by simp⟩
  | succ n ih =>
    have hpush (as : Vector α (n + 1)) : as.pop.push as.back = as := Vector.push_pop_back as
    have hback (v : Vector α n) (a : α) : (v.push a).back = a := by simp [Vector.back]
    have hsnoc := (ih fun i => hr i.castSucc).pair (hr (Fin.last n))
    have hmap := hsnoc.map (f := fun x => x.1.push x.2) (g := fun as => (as.pop, as.back)) hpush fun x => by
      rw [Vector.pop_push, hback]
    have hread : Vector.ofFnM r =
        (fun x => x.1.push x.2) <$> Reader.pair (Vector.ofFnM fun i : Fin n => r i.castSucc) (r (Fin.last n)) := by
      simp [Vector.ofFnM_succ, Reader.pair]
    have hsize : (n + 1) * m = n * m + m := by ring
    rw [hread, hsize]
    refine hmap.congr ?_ ?_
    · intro as
      obtain ⟨v, a, rfl⟩ : ∃ v a, as = Vector.push v a := Vector.exists_push
      simp [hback, Vector.toList_push]
    · intro as
      obtain ⟨v, a, rfl⟩ : ∃ v a, as = Vector.push v a := Vector.exists_push
      rw [Loops.forall_push (V := V), Vector.pop_push, hback]

end Reads

/-! ### Errors -/

/-- Whatever `r` fails with satisfies `E`. -/
def ErrorsIn (E : ε → Prop) (r : Reading ε α) : Prop := ∀ b e, r.run b = .error e → E e

namespace ErrorsIn
variable {E : ε → Prop} {r : Reading ε α}

theorem pure (a : α) : ErrorsIn E (Pure.pure a : Reading ε α) := fun _ _ h => by cases h

theorem lift {x : Except ε α} (hx : ∀ e, x = .error e → E e) : ErrorsIn E (liftM x : Reading ε α) := by
  intro b e h
  rcases x with e' | a
  · cases h
    exact hx e rfl
  · cases h

theorem bind (hr : ErrorsIn E r) {s : α → Reading ε β} (hs : ∀ a, ErrorsIn E (s a)) : ErrorsIn E (r >>= s) := by
  intro b e h
  rw [StateT.run_bind] at h
  rcases hb : r.run b with e' | ⟨a, b'⟩
  · rw [hb] at h
    cases h
    exact hr b e hb
  · rw [hb] at h
    exact hs a b' e h

theorem map (hr : ErrorsIn E r) (f : α → β) : ErrorsIn E (f <$> r) := by
  rw [map_eq_pure_bind]
  exact hr.bind fun a => pure (f a)

theorem pair (hr : ErrorsIn E r) {s : Reading ε β} (hs : ErrorsIn E s) : ErrorsIn E (Reader.pair r s) :=
  hr.bind fun _ => hs.bind fun _ => pure _

theorem ofFnM {n : Nat} {r : Fin n → Reading ε α} (hr : ∀ i, ErrorsIn E (r i)) : ErrorsIn E (Vector.ofFnM r) := by
  induction n with
  | zero =>
    rw [Vector.ofFnM_zero]
    exact pure _
  | succ n ih =>
    rw [Vector.ofFnM_succ]
    exact (ih fun i => hr i.castSucc).bind fun _ => (hr (Fin.last n)).bind fun _ => pure _

theorem run' (hr : ErrorsIn E r) {b : Nat} {e : ε} (h : r.run' b = .error e) : E e := by
  have hrun : r.run' b = Prod.fst <$> r.run b := rfl
  rw [hrun] at h
  rcases hb : r.run b with e' | x
  · rw [hb] at h
    cases h
    exact hr b e hb
  · rw [hb] at h
    cases h

end ErrorsIn
end Reader
