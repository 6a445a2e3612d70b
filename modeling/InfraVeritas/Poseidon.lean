import Mathlib.Data.ZMod.Basic

/-!
# The Poseidon sponge over BN254

`poseidonSponge` of `verify/poseidon.ts` and `poseidon_sponge` of `hal/poseidon.py`, over one
parameter: the full-state permutation `x5_5` that `circomlibjs` and `circomlibpy` compute. The loop
state is the pair of the sponge state and the number of inputs absorbed since the last permutation.
-/

namespace InfraVeritas

/-- The BN254 scalar field's modulus. -/
def P : Nat := 21888242871839275222246405745257275088548364400416034343698204186575808495617

abbrev Field := ZMod P

instance : NeZero P := ⟨by decide⟩

def toFields (ws : List Nat) : List Field := ws.map fun w : Nat => (w : Field)

def intFields (vs : List Int) : List Field := vs.map fun v : Int => (v : Field)

theorem natCast_inj {a b : Nat} (ha : a < P) (hb : b < P) : (a : Field) = b ↔ a = b := by
  refine ⟨fun h => ?_, fun h => h ▸ rfl⟩
  rw [← ZMod.val_natCast_of_lt ha, ← ZMod.val_natCast_of_lt hb, h]

theorem val_toFields {ws : List Nat} (h : ∀ w ∈ ws, w < P) : (toFields ws).map ZMod.val = ws := by
  rw [toFields, List.map_map]
  conv_rhs => rw [← List.map_id ws]
  exact List.map_congr_left fun w hw => ZMod.val_natCast_of_lt (h w hw)

namespace Poseidon

abbrev STATE_SIZE : Nat := 5
def RATE : Nat := 4
def CAPACITY : Nat := 1
def OUTPUT_POSITION : Nat := 1

abbrev State := Vector Nat STATE_SIZE

/-- The permutation on field elements: capacity first, then the four rate positions. -/
abbrev Permutation := Vector Field STATE_SIZE → Vector Field STATE_SIZE

/-- The library call: the state is mapped into the field, permuted and read back reduced. -/
def permute (perm : Permutation) (state : State) : State :=
  (perm (state.map fun x : Nat => (x : Field))).map ZMod.val

/-- Absorb one input; permute when the rate is full. -/
def absorb (perm : Permutation) (st : State × Nat) (m : Nat) : State × Nat :=
  let idx := CAPACITY + st.2
  let state := st.1.set! idx ((st.1[idx]! + m) % P)
  if st.2 + 1 = RATE then (permute perm state, 0) else (state, st.2 + 1)

/-- The final permutation of a partial block, and the output position. -/
def squeeze (perm : Permutation) (st : State × Nat) : Nat :=
  let state := if st.2 ≠ 0 then permute perm st.1 else st.1
  state[OUTPUT_POSITION]!

/-- `poseidonSponge` of the aggregator. -/
def poseidonSponge (perm : Permutation) (msg : List Nat) : Nat :=
  squeeze perm (msg.foldl (absorb perm) (Vector.replicate STATE_SIZE 0, 0))

/-- `poseidon_sponge` of the edge: the same loop, by index. -/
def edgePoseidonSponge (perm : Permutation) (msg : List Nat) : Nat :=
  squeeze perm ((List.range msg.length).foldl (fun st k => absorb perm st msg[k]!) (Vector.replicate STATE_SIZE 0, 0))

variable {perm : Permutation}

theorem map_getElem_range (msg : List Nat) : (List.range msg.length).map (fun k => msg[k]!) = msg := by
  refine List.ext_getElem (by simp) ?_
  intro i h₁ h₂
  rw [List.getElem_map, List.getElem_range, getElem!_pos msg i h₂]

theorem edgePoseidonSponge_eq (msg : List Nat) : edgePoseidonSponge perm msg = poseidonSponge perm msg := by
  have hfold : (List.range msg.length).foldl (fun st k => absorb perm st msg[k]!) (Vector.replicate STATE_SIZE 0, 0) =
      msg.foldl (absorb perm) (Vector.replicate STATE_SIZE 0, 0) := by
    conv_rhs => rw [← map_getElem_range msg]
    rw [List.foldl_map]
  rw [edgePoseidonSponge, hfold, poseidonSponge]

theorem permute_lt (state : State) (i : Nat) (hi : i < 5) : (permute perm state)[i] < P := by
  rw [permute, Vector.getElem_map]
  exact ZMod.val_lt _

theorem absorb_lt {st : State × Nat} (h : ∀ i (hi : i < 5), st.1[i] < P) (m i : Nat) (hi : i < 5) :
    (absorb perm st m).1[i] < P := by
  have hset : (st.1.set! (CAPACITY + st.2) ((st.1[CAPACITY + st.2]! + m) % P))[i] < P := by
    rw [Vector.set!_eq_setIfInBounds, Vector.getElem_setIfInBounds]
    split
    · exact Nat.mod_lt _ (NeZero.pos P)
    · exact h i hi
  unfold absorb
  dsimp only
  split
  · exact permute_lt (Vector.set! st.1 _ _) i hi
  · exact hset

theorem foldl_absorb_lt {st : State × Nat} (h : ∀ i (hi : i < 5), st.1[i] < P) (msg : List Nat) (i : Nat)
    (hi : i < 5) : (msg.foldl (absorb perm) st).1[i] < P := by
  induction msg generalizing st with
  | nil => exact h i hi
  | cons m msg ih => exact ih fun j hj => absorb_lt h m j hj

theorem poseidonSponge_lt (msg : List Nat) : poseidonSponge perm msg < P := by
  have hst (i : Nat) (hi : i < 5) :
      (msg.foldl (absorb perm) (Vector.replicate STATE_SIZE 0, 0)).1[i] < P := by
    refine foldl_absorb_lt (fun j hj => ?_) msg i hi
    rw [Vector.getElem_replicate]
    exact NeZero.pos P
  unfold poseidonSponge squeeze
  dsimp only
  rw [getElem!_pos _ _ (by decide)]
  split
  · exact permute_lt _ _ (by decide)
  · exact hst _ (by decide)

end Poseidon
end InfraVeritas
