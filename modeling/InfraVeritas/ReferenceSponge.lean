import InfraVeritas.Poseidon
import InfraVeritas.Lib.Sponge

/-!
# The two sponges and the sponge of the specification

The specification adds blocks of four field elements to the rate of the state and permutes after each. Here the
loops of the aggregator and of the edge stand once more with the library call as an action of a monad, so that
the calls can be counted.
-/

namespace InfraVeritas
namespace Poseidon

/-! ### The loops -/

section Loops
variable {m : Type → Type} [Monad m] (perm : Vector Field 5 → m (Vector Field 5))

def permuteM (state : State) : m State := do
  let permuted ← perm (state.map fun x : Nat => (x : Field))
  return permuted.map ZMod.val

def absorbM (st : State × Nat) (x : Nat) : m (State × Nat) :=
  let idx := CAPACITY + st.2
  let state := st.1.set! idx ((st.1[idx]! + x) % P)
  if st.2 + 1 = RATE then do
    let state ← permuteM perm state
    return (state, 0)
  else return (state, st.2 + 1)

def squeezeM (st : State × Nat) : m Nat := do
  let state ← if st.2 ≠ 0 then permuteM perm st.1 else pure st.1
  return state[OUTPUT_POSITION]!

def poseidonSpongeM (msg : List Nat) : m Nat := do
  let st ← msg.foldlM (absorbM perm) (Vector.replicate 5 0, 0)
  squeezeM perm st

def edgePoseidonSpongeM (msg : List Nat) : m Nat := do
  let st ← (List.range msg.length).foldlM (fun st k => absorbM perm st msg[k]!) (Vector.replicate 5 0, 0)
  squeezeM perm st

variable {perm}

/-- The edge's loop by index is the aggregator's, call by call. -/
theorem edgePoseidonSpongeM_eq (msg : List Nat) : edgePoseidonSpongeM perm msg = poseidonSpongeM perm msg := by
  have hfold : (List.range msg.length).foldlM (fun st k => absorbM perm st msg[k]!) (Vector.replicate 5 0, 0) =
      msg.foldlM (absorbM perm) (Vector.replicate 5 0, 0) := by
    conv_rhs => rw [← map_getElem_range msg]
    rw [List.foldlM_map]
  rw [edgePoseidonSpongeM, hfold, poseidonSpongeM]

end Loops

theorem poseidonSponge_eq_id (perm : Permutation) (msg : List Nat) :
    poseidonSponge perm msg = poseidonSpongeM (m := Id) perm msg := by
  have hstep : absorb perm = absorbM (m := Id) perm := by
    funext st x
    rw [absorb, absorbM]
    split <;> rfl
  have hlast (st : State × Nat) : squeeze perm st = squeezeM (m := Id) perm st := by
    rw [squeeze, squeezeM]
    split <;> rfl
  rw [poseidonSponge, hlast, hstep]
  exact congrArg (squeezeM (m := Id) perm) List.idRun_foldlM.symm

/-! ### The specification -/

/-- A chunk in the rate positions, filled up with zeros. -/
def place (chunk : List Field) : Vector Field 5 := Vector.ofFn fun i => if i.val = 0 then 0 else chunk.getD (i - 1) 0

def absorbChunk (perm : Permutation) (state : Vector Field 5) (chunk : List Field) : Vector Field 5 :=
  perm (state + place chunk)

def referenceSponge (perm : Permutation) (msg : List Field) : Field :=
  ((Sponge.blocks RATE msg).foldl (absorbChunk perm) 0)[OUTPUT_POSITION]!

section Reference
variable {m : Type → Type} [Monad m] (perm : Vector Field 5 → m (Vector Field 5))

def absorbChunkM (state : Vector Field 5) (chunk : List Field) : m (Vector Field 5) := perm (state + place chunk)

def referenceSpongeM (msg : List Field) : m Field := do
  let state ← (Sponge.blocks RATE msg).foldlM (absorbChunkM perm) 0
  return state[OUTPUT_POSITION]!

/-- The element that is absorbed as number `i` of its block. -/
def addAt (i x : Nat) (state : State) : State := state.set! (CAPACITY + i) ((state[CAPACITY + i]! + x) % P)

theorem getElem_addAt (i x : Nat) (state : State) (k : Nat) (hk : k < 5) :
    (addAt i x state)[k] = if CAPACITY + i = k then (state[k] + x) % P else state[k] := by
  rw [addAt, Vector.set!_eq_setIfInBounds, Vector.getElem_setIfInBounds]
  by_cases h : CAPACITY + i = k
  · rw [if_pos h, if_pos h, h, getElem!_pos state k hk]
  · rw [if_neg h, if_neg h]

/-- The elements are added at their positions, and nothing at the others. -/
theorem cast_getElem_addFrom (chunk : List Nat) (state : State) (i : Nat) (k : Nat) (hk : k < 5) :
    ((Sponge.addFrom addAt i chunk state)[k] : Field) =
      state[k] + if k ≤ i then 0 else (toFields chunk).getD (k - 1 - i) 0 := by
  induction chunk generalizing state i with
  | nil => simp [Sponge.addFrom, toFields]
  | cons x chunk ih =>
    rw [Sponge.addFrom, ih, getElem_addAt, CAPACITY]
    rcases Nat.lt_trichotomy k (1 + i) with h | h | h
    · rw [if_neg (by omega), if_pos (by omega), if_pos (by omega)]
    · have hidx : k - 1 - i = 0 := by omega
      rw [if_pos h.symm, if_pos (by omega), if_neg (by omega), hidx, ZMod.natCast_mod, Nat.cast_add, add_zero]
      rfl
    · have hidx : k - 1 - i = k - 1 - (i + 1) + 1 := by omega
      rw [if_neg (by omega), if_neg (by omega), if_neg (by omega), hidx]
      rfl

variable [LawfulMonad m] {perm}

theorem map_addFrom (state : Vector Field 5) (chunk : List Nat) :
    (Sponge.addFrom addAt 0 chunk (state.map ZMod.val)).map (fun x : Nat => (x : Field)) =
      state + place (toFields chunk) := by
  refine Vector.ext ?_
  intro k hk
  rw [Vector.getElem_map, cast_getElem_addFrom, Vector.getElem_map, ZMod.natCast_zmod_val, Vector.getElem_add, place,
    Vector.getElem_ofFn]
  simp only [Nat.le_zero_eq, Nat.sub_zero]

theorem poseidonSpongeM_eq_run (msg : List Nat) :
    poseidonSpongeM perm msg =
      (·[OUTPUT_POSITION]!) <$> Sponge.run RATE addAt (permuteM perm) (Vector.replicate 5 0) msg := by
  have hlast (st : State × Nat) : squeezeM perm st = (·[OUTPUT_POSITION]!) <$> Sponge.finish (permuteM perm) st := by
    rw [squeezeM, Sponge.finish]
    split
    · exact (map_eq_pure_bind ..).symm
    · rw [pure_bind, map_pure]
  rw [poseidonSpongeM, Sponge.run, map_bind]
  exact congrArg _ (funext hlast)

/-- The loop of the aggregator is the sponge of the specification, call by call. -/
theorem poseidonSpongeM_eq (msg : List Nat) :
    poseidonSpongeM perm msg = ZMod.val <$> referenceSpongeM perm (toFields msg) := by
  have hzero : (Vector.replicate 5 0 : State) = (0 : Vector Field 5).map ZMod.val := by
    refine Vector.ext ?_
    intro k hk
    rw [Vector.getElem_replicate, Vector.getElem_map, Vector.getElem_zero, ZMod.val_zero]
  have hstep (chunk : List Nat) (state : Vector Field 5) :
      Sponge.absorbBlock addAt (permuteM perm) (state.map ZMod.val) chunk =
        Vector.map ZMod.val <$> absorbChunkM perm state (toFields chunk) := by
    rw [Sponge.absorbBlock, permuteM, map_addFrom, absorbChunkM, map_eq_pure_bind]
  have hout (state : Vector Field 5) : (state.map ZMod.val)[OUTPUT_POSITION]! = state[OUTPUT_POSITION]!.val := by
    rw [getElem!_pos _ _ (by decide), getElem!_pos _ _ (by decide), Vector.getElem_map]
  rw [poseidonSpongeM_eq_run, Sponge.run_eq_foldlM_blocks (by decide), hzero,
    Sponge.foldlM_map_state hstep, referenceSpongeM, toFields, Sponge.blocks_map,
    List.foldlM_map, ← map_eq_pure_bind, Functor.map_map, Functor.map_map]
  exact congrArg (· <$> _) (funext hout)

end Reference

/-! ### Counting -/

theorem referenceSpongeM_id (perm : Permutation) (msg : List Field) :
    referenceSpongeM (m := Id) perm msg = referenceSponge perm msg :=
  congrArg (fun state : Vector Field 5 => state[OUTPUT_POSITION]!) List.idRun_foldlM

/-- The permutation, with the number of its calls. -/
def counted (perm : Permutation) (state : Vector Field 5) : StateM Nat (Vector Field 5) := do
  modify (· + 1)
  return perm state

section Counting
variable {perm : Permutation}

theorem foldlM_counted (chunks : List (List Field)) (state : Vector Field 5) (n : Nat) :
    (chunks.foldlM (absorbChunkM (counted perm)) state).run n =
      (chunks.foldl (absorbChunk perm) state, n + chunks.length) := by
  induction chunks generalizing state n with
  | nil => rfl
  | cons chunk chunks ih =>
    have hhead : (absorbChunkM (counted perm) state chunk).run n = (absorbChunk perm state chunk, n + 1) := rfl
    have htail := ih (absorbChunk perm state chunk) (n + 1)
    rw [Nat.add_right_comm, Nat.add_assoc] at htail
    rw [List.foldlM_cons, StateT.run_bind, hhead]
    exact htail

/-- The specification permutes once a block. -/
theorem referenceSpongeM_counted (msg : List Field) :
    (referenceSpongeM (counted perm) msg).run 0 = (referenceSponge perm msg, (msg.length + 3) / 4) := by
  have hfold := @foldlM_counted perm (Sponge.blocks RATE msg) 0 0
  rw [Sponge.length_blocks, Nat.zero_add] at hfold
  rw [referenceSpongeM, StateT.run_bind, hfold]
  rfl

/-- Aggregator and edge compute the sponge of the specification, with one permutation for each four inputs and one
for the rest, and 0 for no input. -/
theorem sponge_equivalence (perm : Permutation) (msg : List Nat) :
    poseidonSponge perm msg = (referenceSponge perm (toFields msg)).val ∧
    edgePoseidonSponge perm msg = (referenceSponge perm (toFields msg)).val ∧
    (poseidonSpongeM (counted perm) msg).run 0 = (poseidonSponge perm msg, (msg.length + 3) / 4) ∧
    (edgePoseidonSpongeM (counted perm) msg).run 0 = (edgePoseidonSponge perm msg, (msg.length + 3) / 4) ∧
    poseidonSponge perm [] = 0 ∧ edgePoseidonSponge perm [] = 0 := by
  have hvalue : poseidonSponge perm msg = (referenceSponge perm (toFields msg)).val := by
    rw [poseidonSponge_eq_id, poseidonSpongeM_eq, referenceSpongeM_id]
    rfl
  have hcount : (poseidonSpongeM (counted perm) msg).run 0 = (poseidonSponge perm msg, (msg.length + 3) / 4) := by
    have hlen : (toFields msg).length = msg.length := List.length_map ..
    rw [poseidonSpongeM_eq, StateT.run_map, referenceSpongeM_counted, hvalue, hlen]
    rfl
  refine ⟨hvalue, (edgePoseidonSponge_eq msg).trans hvalue, hcount, ?_, rfl, rfl⟩
  rw [edgePoseidonSpongeM_eq, edgePoseidonSponge_eq, hcount]

end Counting
end Poseidon
end InfraVeritas
