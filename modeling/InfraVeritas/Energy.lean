import InfraVeritas.Circuit
import InfraVeritas.Encoders

/-!
# The total energy of an epoch

The sum is computed four times: by check 4 of the circuit over field elements, by the aggregator and
the edge over integers, and on paper as `Σ voltage · current`. The circuit reads the flat payload at
stride three from element seven; one hundred products of 64-bit words stay below the modulus, so its
accumulator is the integer sum after every iteration.
-/

namespace InfraVeritas

namespace Edge

def computeTotalEnergyMwh (readings : List Reading) : Int :=
  readings.foldl (fun total r => total + r.voltage_mv * r.current_ma) 0

theorem computeTotalEnergyMwh_eq (p : CanonicalPayload) :
    computeTotalEnergyMwh p.readings = Prover.computeTotalEnergy p := rfl

end Edge

/-- `Σ voltage · current` over the integers. -/
def energySum (rs : List Reading) : ℤ := (rs.map fun r => r.voltage_mv * r.current_ma).sum

theorem energySum_congr {rs rs' : List Reading}
    (h : rs'.map (fun r => (r.voltage_mv, r.current_ma)) = rs.map fun r => (r.voltage_mv, r.current_ma)) :
    energySum rs' = energySum rs := by
  have hsum (rs : List Reading) :
      energySum rs = ((rs.map fun r => (r.voltage_mv, r.current_ma)).map fun q => q.1 * q.2).sum := by
    rw [energySum, List.map_map]
    rfl
  rw [hsum, hsum, h]

namespace Circuit
variable {p : CanonicalPayload}

/-- The accumulator of check 4 after `k` iterations. -/
def totalAfter (canonical_payload : List Field) (k : Nat) : Field :=
  (List.range k).foldl
    (fun total i => total + canonical_payload[7 + i * 3]! * canonical_payload[8 + i * 3]!) 0

theorem totalEnergy_eq_totalAfter (xs : List Field) : totalEnergy xs = totalAfter xs 100 := rfl

theorem totalAfter_succ (xs : List Field) (k : Nat) :
    totalAfter xs (k + 1) = totalAfter xs k + xs[7 + k * 3]! * xs[8 + k * 3]! := by
  rw [totalAfter, List.range_succ, List.foldl_append]
  rfl

theorem toFields_words (p : CanonicalPayload) :
    toFields p.words = (p.metadata.map fun v => (wrap64 v : Field)) ++
      (p.readings.flatMap Reading.ints).map fun v => (wrap64 v : Field) := by
  rw [toFields, CanonicalPayload.words, List.map_map, List.map_append]
  rfl

theorem getElem!_flatMap_ints (rs : List Reading) {k j : Nat} (hk : k < rs.length) (hj : j < 3) :
    (rs.flatMap Reading.ints)[k * 3 + j]! = (rs[k]).ints[j]! := by
  induction rs generalizing k with
  | nil => simp at hk
  | cons r rs ih =>
    cases k with
    | zero =>
      match j, hj with
      | 0, _ | 1, _ | 2, _ => simp [Reading.ints]
    | succ k =>
      have hk' : k < rs.length := by simpa using hk
      have hi : (k + 1) * 3 + j = k * 3 + j + 1 + 1 + 1 := by omega
      rw [List.flatMap_cons, hi]
      exact ih hk'

/-- Element `7 + 3k + j` of the payload is word `j` of reading `k`. -/
theorem getElem!_words {k j : Nat} (hk : k < p.readings.length) (hj : j < 3) :
    (toFields p.words)[7 + k * 3 + j]! = (wrap64 (p.readings[k]).ints[j]! : Field) := by
  have hlen : k * 3 + j < (p.readings.flatMap Reading.ints).length := by
    rw [length_flatMap_ints]
    omega
  have hmeta : (p.metadata.map fun v => (wrap64 v : Field)).length = 7 := by simp [CanonicalPayload.metadata]
  have hi : 7 + k * 3 + j = (p.metadata.map fun v => (wrap64 v : Field)).length + (k * 3 + j) := by omega
  rw [← getElem!_flatMap_ints p.readings hk hj, getElem!_pos (p.readings.flatMap Reading.ints) _ hlen,
    toFields_words, hi, getElem!_pos _ _ (by simpa using hlen), List.getElem_append_right (by omega)]
  simp

theorem val_wrap64 (v : Int) : ((wrap64 v : Field)).val = wrap64 v :=
  ZMod.val_cast_of_lt ((wrap64_lt v).trans (by decide))

theorem val_voltage {k : Nat} (hk : k < p.readings.length) :
    ((toFields p.words)[7 + k * 3]!).val = wrap64 (p.readings[k]).voltage_mv := by
  have h := getElem!_words hk (j := 0) (by omega)
  rw [add_zero] at h
  rw [h, val_wrap64]
  rfl

theorem val_current {k : Nat} (hk : k < p.readings.length) :
    ((toFields p.words)[8 + k * 3]!).val = wrap64 (p.readings[k]).current_ma := by
  have h := getElem!_words hk (j := 1) (by omega)
  have hi : 8 + k * 3 = 7 + k * 3 + 1 := by omega
  rw [hi, h, val_wrap64]
  rfl

theorem energyWords_take_succ {rs : List Reading} {k : Nat} (hk : k < rs.length) :
    energyWords (rs.take (k + 1)) = energyWords (rs.take k) + wrap64 rs[k].voltage_mv * wrap64 rs[k].current_ma := by
  rw [List.take_succ_eq_append_getElem hk, energyWords, List.map_append, List.sum_append, ← energyWords]
  simp

theorem energyWords_take_le (rs : List Reading) (k : Nat) : energyWords (rs.take k) ≤ energyWords rs := by
  have h : energyWords rs = energyWords (rs.take k) + energyWords (rs.drop k) := by
    rw [energyWords, energyWords, energyWords, ← List.sum_append, ← List.map_append, List.take_append_drop]
  omega

/-- After every iteration the accumulator is the sum so far, as a natural number: nothing has wrapped. -/
theorem val_totalAfter (h : p.readings.length = 100) {k : Nat} (hk : k ≤ 100) :
    (totalAfter (toFields p.words) k).val = energyWords (p.readings.take k) := by
  induction k with
  | zero => simp [totalAfter, energyWords]
  | succ k ih =>
    have hkr : k < p.readings.length := by omega
    have hlt : energyWords (p.readings.take (k + 1)) < P :=
      (energyWords_take_le _ _).trans_lt (energyWords_lt_P h)
    have hstep := energyWords_take_succ hkr
    have hmul : ((toFields p.words)[7 + k * 3]! * (toFields p.words)[8 + k * 3]!).val =
        wrap64 (p.readings[k]).voltage_mv * wrap64 (p.readings[k]).current_ma := by
      rw [ZMod.val_mul_of_lt, val_voltage hkr, val_current hkr]
      rw [val_voltage hkr, val_current hkr]
      omega
    rw [totalAfter_succ, ZMod.val_add_of_lt, ih (by omega), hmul, hstep]
    rw [ih (by omega), hmul]
    omega

/-- The total depends on the voltages and currents only. -/
theorem totalEnergy_congr {q : CanonicalPayload} (h : p.readings.length = 100) (hlen : q.readings.length = 100)
    (hu : ∀ r ∈ p.readings, IsU64 r.voltage_mv ∧ IsU64 r.current_ma)
    (hq : q.readings.map (fun r => (r.voltage_mv, r.current_ma)) =
      p.readings.map fun r => (r.voltage_mv, r.current_ma)) :
    totalEnergy (toFields q.words) = totalEnergy (toFields p.words) := by
  have hpairs (r : Reading) (hr : r ∈ q.readings) : IsU64 r.voltage_mv ∧ IsU64 r.current_ma := by
    have hmem : (r.voltage_mv, r.current_ma) ∈ p.readings.map fun r => (r.voltage_mv, r.current_ma) := by
      rw [← hq]
      exact List.mem_map.2 ⟨r, hr, rfl⟩
    obtain ⟨s, hs, heq⟩ := List.mem_map.1 hmem
    obtain ⟨hv, hc⟩ := Prod.mk.injEq .. ▸ heq
    rw [← hv, ← hc]
    exact hu s hs
  have hcast : (energyWords q.readings : ℤ) = energyWords p.readings := by
    rw [energyWords_eq_sum hpairs, energyWords_eq_sum hu]
    exact energySum_congr hq
  rw [totalEnergy_words hlen, totalEnergy_words h, Int.natCast_inj.1 hcast]

end Circuit

/-- The circuit's accumulator over the aggregator's encoding of a payload, iteration by iteration, is the
integer sum; it ends at the total of the aggregator, of the edge and of the formula, and depends on
the voltages and currents only. -/
theorem energy_sum_agreement {p : CanonicalPayload} (h : p.readings.length = 100)
    (hu : ∀ r ∈ p.readings, IsU64 r.voltage_mv ∧ IsU64 r.current_ma) :
    ∃ bytes elements, Aggregator.canonicalize p = .ok bytes ∧
      Aggregator.bytesToFieldElements bytes = .ok elements ∧
      (∀ k < 100, (Circuit.totalAfter (toFields elements) (k + 1)).val =
        (Circuit.totalAfter (toFields elements) k).val +
          ((toFields elements)[7 + k * 3]!).val * ((toFields elements)[8 + k * 3]!).val) ∧
      (∀ k ≤ 100, ((Circuit.totalAfter (toFields elements) k).val : ℤ) = energySum (p.readings.take k)) ∧
      ((Circuit.totalEnergy (toFields elements)).val : ℤ) = Prover.computeTotalEnergy p ∧
      Prover.computeTotalEnergy p = Edge.computeTotalEnergyMwh p.readings ∧
      Edge.computeTotalEnergyMwh p.readings = energySum p.readings ∧
      ∀ q : CanonicalPayload, q.readings.map (fun r => (r.voltage_mv, r.current_ma)) =
          p.readings.map (fun r => (r.voltage_mv, r.current_ma)) →
        Prover.computeTotalEnergy q = Prover.computeTotalEnergy p ∧
        Edge.computeTotalEnergyMwh q.readings = Edge.computeTotalEnergyMwh p.readings ∧
        ∃ bytes' elements', Aggregator.canonicalize q = .ok bytes' ∧
          Aggregator.bytesToFieldElements bytes' = .ok elements' ∧
          Circuit.totalEnergy (toFields elements') = Circuit.totalEnergy (toFields elements) := by
  have hafter {k : Nat} (hk : k ≤ 100) :
      ((Circuit.totalAfter (toFields p.words) k).val : ℤ) = energySum (p.readings.take k) := by
    rw [Circuit.val_totalAfter h hk, Circuit.energyWords_eq_sum fun r hr => hu r (List.mem_of_mem_take hr)]
    rfl
  have htotal : ((Circuit.totalEnergy (toFields p.words)).val : ℤ) = energySum p.readings := by
    rw [Circuit.totalEnergy_eq_totalAfter, hafter le_rfl, ← h, List.take_length]
  refine ⟨p.bytes, p.words, Aggregator.canonicalize_of_length h, Aggregator.bytesToFieldElements_bytes h,
    fun k hk => ?_, fun k hk => hafter hk, ?_, (Edge.computeTotalEnergyMwh_eq p).symm, Prover.computeTotalEnergy_eq_sum p, fun q hq => ?_⟩
  · have hkr : k < p.readings.length := by omega
    rw [Circuit.val_totalAfter h (by omega), Circuit.val_totalAfter h (by omega), Circuit.energyWords_take_succ hkr,
      Circuit.val_voltage hkr, Circuit.val_current hkr]
  · rw [htotal, Prover.computeTotalEnergy_eq_sum, energySum]
  · have hlen : q.readings.length = 100 := by simpa [h] using congrArg List.length hq
    have hts : Prover.computeTotalEnergy q = Prover.computeTotalEnergy p := by
      rw [Prover.computeTotalEnergy_eq_sum, Prover.computeTotalEnergy_eq_sum]
      exact energySum_congr hq
    exact ⟨hts, hts, q.bytes, q.words, Aggregator.canonicalize_of_length hlen,
      Aggregator.bytesToFieldElements_bytes hlen, Circuit.totalEnergy_congr h hlen hu hq⟩

namespace SampleEnergy

/-- Readings of different voltages and currents, with timestamps and metadata outside every range. -/
def uneven : CanonicalPayload :=
  ⟨-1, 2 ^ 64, 3, 4, 5, 6, 7, (List.range 100).map fun i : Nat => ⟨2 ^ 64 - 1 - i, 2 ^ 63 + i, -i⟩⟩

theorem energy_sum_agreement_sample :
    uneven.readings.length = 100 ∧ (∀ r ∈ uneven.readings, IsU64 r.voltage_mv ∧ IsU64 r.current_ma) ∧
      ∃ bytes elements, Aggregator.canonicalize uneven = .ok bytes ∧
        Aggregator.bytesToFieldElements bytes = .ok elements ∧
        ((Circuit.totalEnergy (toFields elements)).val : ℤ) = Prover.computeTotalEnergy uneven := by
  have hlen : uneven.readings.length = 100 := by simp [uneven]
  have hu : ∀ r ∈ uneven.readings, IsU64 r.voltage_mv ∧ IsU64 r.current_ma := by
    intro r hr
    obtain ⟨i, hi, rfl⟩ := List.mem_map.1 hr
    have hlt := List.mem_range.1 hi
    simp only [IsU64]
    omega
  obtain ⟨bytes, elements, hb, he, -, -, ht, -⟩ := energy_sum_agreement hlen hu
  exact ⟨hlen, hu, bytes, elements, hb, he, ht⟩

end SampleEnergy
end InfraVeritas
