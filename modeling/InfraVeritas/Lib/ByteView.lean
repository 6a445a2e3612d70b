import InfraVeritas.Lib.Checks

/-!
# Writing into a byte buffer

`writeAt` overwrites bytes of a buffer of fixed length from an offset on, `put` does so at a cursor and moves it
on. `foldlM_put`: successive `put`s write the concatenation of their arguments.
-/

namespace ByteView
open Checks

variable {ε α : Type} (range : ε)

/-- Bytes that do not fit into the buffer are the error `range`. -/
def writeAt (buf : List UInt8) (offset : Nat) (bs : List UInt8) : Except ε (List UInt8) := do
  revertIf (offset + bs.length > buf.length) range
  return buf.take offset ++ bs ++ buf.drop (offset + bs.length)

/-- A buffer and the offset of the next write. -/
def put (st : List UInt8 × Nat) (bs : List UInt8) : Except ε (List UInt8 × Nat) := do
  let buf ← writeAt range st.1 st.2 bs
  return (buf, st.2 + bs.length)

variable {range}

theorem put_append {done rest bs : List UInt8} (h : bs.length ≤ rest.length) :
    put range (done ++ rest, done.length) bs =
      .ok ((done ++ bs) ++ rest.drop bs.length, (done ++ bs).length) := by
  have hlen : ¬ done.length + bs.length > (done ++ rest).length := by
    rw [List.length_append]
    omega
  have hdrop : (done ++ rest).drop (done.length + bs.length) = rest.drop bs.length := by
    rw [← List.drop_drop, List.drop_left]
  rw [put, writeAt, revertIf_of_not hlen, List.take_left, hdrop, List.length_append]
  rfl

theorem foldlM_put {chunks : List (List UInt8)} {done rest : List UInt8} (h : chunks.flatten.length ≤ rest.length) :
    chunks.foldlM (put range) (done ++ rest, done.length) =
      .ok (done ++ chunks.flatten ++ rest.drop chunks.flatten.length, (done ++ chunks.flatten).length) := by
  induction chunks generalizing done rest with
  | nil => simp [pure, Except.pure]
  | cons bs chunks ih =>
    rw [List.flatten_cons, List.length_append] at h
    rw [List.foldlM_cons, put_append (by omega), ok_bind, ih (by rw [List.length_drop]; omega), List.flatten_cons,
      List.drop_drop]
    simp only [List.append_assoc, List.length_append]

/-- A buffer that the writes fill exactly. -/
theorem foldlM_put_full {chunks : List (List UInt8)} {buf : List UInt8} (h : chunks.flatten.length = buf.length) :
    chunks.foldlM (put range) (buf, 0) = .ok (chunks.flatten, buf.length) := by
  have hput := @foldlM_put ε range chunks [] buf (Nat.le_of_eq h)
  rw [List.nil_append, List.length_nil, List.nil_append, List.drop_eq_nil_of_le (Nat.le_of_eq h.symm), List.append_nil, h] at hput
  exact hput

/-- A loop whose body is itself a sequence of steps. -/
theorem foldlM_flatMap {σ β : Type} {m : Type → Type} [Monad m] [LawfulMonad m] (f : σ → β → m σ) (g : α → List β)
    (as : List α) (s : σ) : as.foldlM (fun s a => (g a).foldlM f s) s = (as.flatMap g).foldlM f s := by
  induction as generalizing s with
  | nil => rfl
  | cons a as ih =>
    rw [List.foldlM_cons, List.flatMap_cons, List.foldlM_append]
    exact congrArg _ (funext ih)

end ByteView
