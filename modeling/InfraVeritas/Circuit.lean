import InfraVeritas.Canonical

/-!
# The circuit `v08`

`main.nr` over the two library functions it calls, and what a satisfying assignment says. The circuit
does not range-check the canonical payload: its elements are arbitrary field elements, tied to the
payload hash by the sponge only.
-/

namespace InfraVeritas
open BigEndian Checks

namespace Circuit

/-- The functions of Noir's libraries that the circuit calls. -/
structure Std where
  sponge : List Field → Field
  verify_signature : Bytes → Bytes → Bytes → Bytes → Bool

structure Public where
  device_id : Field
  session_id : Field
  epoch_start_ts : Field
  lat_e7 : Field
  lon_e7 : Field
  light_level : Field
  tamper_flag : Field
  payload_hash : Field
  total_energy_mwh : Field

/-- The private inputs; the array lengths are those of the declared types. -/
structure Private where
  canonical_payload : List Field
  signature : Bytes
  pubkey_x : Bytes
  pubkey_y : Bytes
  length_canonical_payload : canonical_payload.length = 307
  length_signature : signature.length = 64
  length_pubkey_x : pubkey_x.length = 32
  length_pubkey_y : pubkey_y.length = 32

inductive ConstraintError
  | cannotSatisfyConstraint
deriving DecidableEq, Repr

def assert (c : Prop) [Decidable c] : Except ConstraintError PUnit := revertIf (¬ c) .cannotSatisfyConstraint

/-- Check 4's loop. -/
def totalEnergy (canonical_payload : List Field) : Field :=
  (List.range 100).foldl
    (fun total i => total + canonical_payload[7 + i * 3]! * canonical_payload[8 + i * 3]!) 0

def main (std : Std) (pub : Public) (w : Private) : Except ConstraintError PUnit := do
  assert (std.sponge w.canonical_payload = pub.payload_hash)
  assert (w.canonical_payload[0]! = pub.device_id)
  assert (w.canonical_payload[1]! = pub.session_id)
  assert (w.canonical_payload[2]! = pub.epoch_start_ts)
  assert (w.canonical_payload[3]! = pub.lat_e7)
  assert (w.canonical_payload[4]! = pub.lon_e7)
  assert (w.canonical_payload[5]! = pub.light_level)
  assert (w.canonical_payload[6]! = pub.tamper_flag)
  let hash_bytes := toBE 32 pub.payload_hash.val
  assert (std.verify_signature w.pubkey_x w.pubkey_y w.signature hash_bytes = true)
  assert (totalEnergy w.canonical_payload = pub.total_energy_mwh)

def Public.ofList (xs : List Field) : Public :=
  ⟨xs[0]!, xs[1]!, xs[2]!, xs[3]!, xs[4]!, xs[5]!, xs[6]!, xs[7]!, xs[8]!⟩

def Public.metadata (pub : Public) : List Field :=
  [pub.device_id, pub.session_id, pub.epoch_start_ts, pub.lat_e7, pub.lon_e7, pub.light_level, pub.tamper_flag]

structure Satisfies (std : Std) (pub : Public) (w : Private) : Prop where
  hash : std.sponge w.canonical_payload = pub.payload_hash
  metadata : w.canonical_payload.take 7 = pub.metadata
  signature : std.verify_signature w.pubkey_x w.pubkey_y w.signature (toBE 32 pub.payload_hash.val) = true
  energy : totalEnergy w.canonical_payload = pub.total_energy_mwh

theorem assert_eq_ok {c : Prop} [Decidable c] {u : PUnit} : assert c = .ok u ↔ c := by
  rw [assert, revertIf_eq_ok, not_not]

theorem take_seven {xs : List Field} (h : 7 ≤ xs.length) :
    xs.take 7 = [xs[0]!, xs[1]!, xs[2]!, xs[3]!, xs[4]!, xs[5]!, xs[6]!] := by
  match xs, h with
  | _ :: _ :: _ :: _ :: _ :: _ :: _ :: _, _ => rfl

theorem main_eq_ok {std : Std} {pub : Public} {w : Private} {u : PUnit} :
    main std pub w = .ok u ↔ Satisfies std pub w := by
  have hlen : 7 ≤ w.canonical_payload.length := by rw [w.length_canonical_payload]; decide
  have hmeta : w.canonical_payload.take 7 = pub.metadata ↔
      w.canonical_payload[0]! = pub.device_id ∧ w.canonical_payload[1]! = pub.session_id ∧
      w.canonical_payload[2]! = pub.epoch_start_ts ∧ w.canonical_payload[3]! = pub.lat_e7 ∧
      w.canonical_payload[4]! = pub.lon_e7 ∧ w.canonical_payload[5]! = pub.light_level ∧
      w.canonical_payload[6]! = pub.tamper_flag := by
    rw [take_seven hlen, Public.metadata]
    simp only [List.cons.injEq, and_true]
  unfold main
  simp only [bind_eq_ok, exists_punit, assert_eq_ok]
  constructor
  · rintro ⟨h, h0, h1, h2, h3, h4, h5, h6, hs, ht⟩
    exact ⟨h, hmeta.2 ⟨h0, h1, h2, h3, h4, h5, h6⟩, hs, ht⟩
  · rintro ⟨h, hm, hs, ht⟩
    obtain ⟨h0, h1, h2, h3, h4, h5, h6⟩ := hmeta.1 hm
    exact ⟨h, h0, h1, h2, h3, h4, h5, h6, hs, ht⟩

/-! ### The energy sum of a serialized payload -/

/-- `Σ voltage · current` over the wrapped words of the readings. -/
def energyWords (rs : List Reading) : Nat := (rs.map fun r => wrap64 r.voltage_mv * wrap64 r.current_ma).sum

theorem foldl_add_eq (f : Nat → Field) (is : List Nat) (z : Field) :
    is.foldl (fun total i => total + f i) z = z + (is.map f).sum := by
  induction is generalizing z with
  | nil => simp
  | cons i is ih => rw [List.foldl_cons, ih, List.map_cons, List.sum_cons, add_assoc]

/-- The products of neighbouring elements at distance three, read off the words of readings. -/
theorem sum_products (pre : List Field) (rs : List Reading) :
    ((List.range rs.length).map fun i =>
      (pre ++ (rs.flatMap Reading.ints).map fun v => (wrap64 v : Field))[pre.length + i * 3]! *
      (pre ++ (rs.flatMap Reading.ints).map fun v => (wrap64 v : Field))[pre.length + 1 + i * 3]!).sum =
      (energyWords rs : Field) := by
  induction rs generalizing pre with
  | nil => simp [energyWords]
  | cons r rs ih =>
    set xs := pre ++ ((r :: rs).flatMap Reading.ints).map fun v => (wrap64 v : Field) with hxs
    let pre' := pre ++ r.ints.map fun v => (wrap64 v : Field)
    have hxs' : xs = pre' ++ (rs.flatMap Reading.ints).map fun v => (wrap64 v : Field) := by
      rw [hxs, List.flatMap_cons, List.map_append, List.append_assoc]
    have hlen : pre'.length = pre.length + 3 := by simp [pre', Reading.ints]
    have hv : xs[pre.length + 0 * 3]! = wrap64 r.voltage_mv := by
      rw [hxs]; simp [Reading.ints]
    have hc : xs[pre.length + 1 + 0 * 3]! = wrap64 r.current_ma := by
      rw [hxs]; simp [Reading.ints]
    have hrest : (List.range rs.length).map
        ((fun i => xs[pre.length + i * 3]! * xs[pre.length + 1 + i * 3]!) ∘ Nat.succ) =
        (List.range rs.length).map fun i => xs[pre'.length + i * 3]! * xs[pre'.length + 1 + i * 3]! := by
      refine List.map_congr_left ?_
      intro i _
      have h0 : pre.length + (i + 1) * 3 = pre'.length + i * 3 := by omega
      have h1 : pre.length + 1 + (i + 1) * 3 = pre'.length + 1 + i * 3 := by omega
      show xs[pre.length + (i + 1) * 3]! * xs[pre.length + 1 + (i + 1) * 3]! = _
      rw [h0, h1]
    rw [List.length_cons, List.range_succ_eq_map, List.map_cons, List.sum_cons, hv, hc, List.map_map, hrest,
      hxs', ih pre']
    simp only [energyWords, List.map_cons, List.sum_cons, Nat.cast_add, Nat.cast_mul]

theorem totalEnergy_words {p : CanonicalPayload} (h : p.readings.length = 100) :
    totalEnergy (toFields p.words) = (energyWords p.readings : Field) := by
  have hw : toFields p.words = (p.metadata.map fun v => (wrap64 v : Field)) ++
      (p.readings.flatMap Reading.ints).map fun v => (wrap64 v : Field) := by
    rw [toFields, CanonicalPayload.words, List.map_map, List.map_append]
    rfl
  rw [totalEnergy, hw, foldl_add_eq, zero_add, ← sum_products (p.metadata.map fun v => (wrap64 v : Field)), h]
  rfl

/-! ### Bounds and integers -/

theorem energyWords_le (rs : List Reading) : energyWords rs ≤ rs.length * (2 ^ 64 - 1) ^ 2 := by
  induction rs with
  | nil => simp [energyWords]
  | cons r rs ih =>
    have hr : wrap64 r.voltage_mv * wrap64 r.current_ma ≤ (2 ^ 64 - 1) ^ 2 := by
      have hv := wrap64_lt r.voltage_mv
      have hc := wrap64_lt r.current_ma
      calc wrap64 r.voltage_mv * wrap64 r.current_ma ≤ (2 ^ 64 - 1) * (2 ^ 64 - 1) :=
            Nat.mul_le_mul (by omega) (by omega)
        _ = (2 ^ 64 - 1) ^ 2 := by ring
    rw [energyWords, List.map_cons, List.sum_cons, List.length_cons, ← energyWords]
    omega

/-- One hundred products of 64-bit words do not reach the modulus. -/
theorem energyWords_lt_P {rs : List Reading} (h : rs.length = 100) : energyWords rs < P := by
  have hle := energyWords_le rs
  rw [h] at hle
  exact lt_of_le_of_lt hle (by decide)

theorem energyWords_eq_sum {rs : List Reading} (h : ∀ r ∈ rs, IsU64 r.voltage_mv ∧ IsU64 r.current_ma) :
    (energyWords rs : ℤ) = (rs.map fun r => r.voltage_mv * r.current_ma).sum := by
  induction rs with
  | nil => rfl
  | cons r rs ih =>
    obtain ⟨⟨hv, hc⟩, hrs⟩ := List.forall_mem_cons.1 h
    rw [energyWords, List.map_cons, List.sum_cons, List.map_cons, List.sum_cons, ← energyWords, ← ih hrs,
      Nat.cast_add, Nat.cast_mul, wrap64_of_nonneg hv.1 hv.2, wrap64_of_nonneg hc.1 hc.2]

end Circuit
end InfraVeritas
