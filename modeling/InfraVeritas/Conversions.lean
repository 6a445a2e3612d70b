import InfraVeritas.Decoding
import InfraVeritas.Encoders

/-!
# Between integers and big-endian bytes

`bigintToBytesBE` fills an array from its end and `bytesToBigIntBE` reads one from its beginning. They are inverse
to each other, so that the payload hash is the same number as the sponge's output, as the 32 bytes that are signed
and as the hexadecimal field of the witness.
-/

namespace InfraVeritas
open BigEndian Checks Aggregator Prover

section
variable {n : Nat}

theorem bigintToBytesBE_of_neg {v : Int} (h : v < 0) :
    bigintToBytesBE v n = .error "bigintToBytesBE: negative values not supported" := by
  rw [bigintToBytesBE, revertIf_of h]
  rfl

/-- What is left after the loop is not zero exactly if the value does not fit. -/
theorem bigintToBytesBE_of_le {v : Nat} (h : 256 ^ n ≤ v) : ∃ message, bigintToBytesBE v n = .error message := by
  have h0 : ¬ ((v : Int) < 0) := by omega
  have h1 : v / 256 ^ n ≠ 0 := (Nat.div_pos h (Nat.pow_pos (by decide))).ne'
  rw [bigintToBytesBE, revertIf_of_not h0]
  simp only [Int.toNat_natCast, writeBytesBE_replicate]
  rw [revertIf_of h1]
  exact ⟨_, rfl⟩

theorem bigintToBytesBE_bytesToBigIntBE (bytes : Bytes) :
    bigintToBytesBE (bytesToBigIntBE bytes) bytes.length = .ok bytes := by
  rw [bytesToBigIntBE_eq, bigintToBytesBE_of_lt (ofBE_lt bytes), toBE_ofBE]

theorem length_and_value_of_bigintToBytesBE {v : Int} {out : Bytes} (h : bigintToBytesBE v n = .ok out) :
    out.length = n ∧ bytesToBigIntBE out = v := by
  rcases lt_or_ge v 0 with hneg | hnn
  · rw [bigintToBytesBE_of_neg hneg] at h
    cases h
  · obtain ⟨v, rfl⟩ := Int.eq_ofNat_of_zero_le hnn
    rcases Nat.lt_or_ge v (256 ^ n) with hlt | hge
    · rw [bigintToBytesBE_of_lt hlt] at h
      cases h
      exact ⟨length_toBE n v, by rw [bytesToBigIntBE_eq, ofBE_toBE_of_lt hlt]⟩
    · obtain ⟨message, herr⟩ := bigintToBytesBE_of_le hge
      rw [herr] at h
      cases h

theorem ofHex_toFieldHex (v : Nat) : Hex.ofHex ((toFieldHex v).toList.drop 2) = v := by
  have h0 : ¬ ((v : Int) < 0) := by omega
  rw [toFieldHex, if_neg h0, Int.toNat_natCast, ofHex_drop_hex]

theorem payload_hash_of_prepareWitnessInputs {perm : Poseidon.Permutation} {p : CanonicalPayload}
    {signature pubkey hash : Bytes} {w : WitnessInputs} (h : prepareWitnessInputs perm p signature pubkey = .ok w)
    (hhash : Aggregator.computePayloadHash perm p = .ok hash) : w.payload_hash = toFieldHex (bytesToBigIntBE hash) := by
  simp only [prepareWitnessInputs, bind_eq_ok, exists_punit, pure_eq_ok] at h
  obtain ⟨-, -, -, hash', hhash', -, -, -, -, rfl⟩ := h
  rw [hhash, Except.ok.injEq] at hhash'
  rw [hhash']

end

/-- The conversions are inverse to each other, and the payload hash passes through them unchanged. -/
theorem conversions_inverse (perm : Poseidon.Permutation) {p : CanonicalPayload} {signature pubkey : Bytes}
    (hs : signature.length = 64) (hp : pubkey.length = 64) (hr : p.readings.length = 100) :
    (∀ n v : Nat, v < 256 ^ n →
      ∃ out, bigintToBytesBE v n = .ok out ∧ out.length = n ∧ bytesToBigIntBE out = v) ∧
    (∀ n v : Nat, 256 ^ n ≤ v → ∃ message, bigintToBytesBE v n = .error message) ∧
    (∀ (n : Nat) (v : Int), v < 0 → ∃ message, bigintToBytesBE v n = .error message) ∧
    (∀ bytes : Bytes, bigintToBytesBE (bytesToBigIntBE bytes) bytes.length = .ok bytes) ∧
    ∃ canonicalBytes elements hash w, Aggregator.canonicalize p = .ok canonicalBytes ∧
      bytesToFieldElements canonicalBytes = .ok elements ∧ Aggregator.computePayloadHash perm p = .ok hash ∧
      hash.length = 32 ∧ bytesToBigIntBE hash = Poseidon.poseidonSponge perm elements ∧
      prepareWitnessInputs perm p signature pubkey = .ok w ∧ w.payload_hash = toFieldHex (bytesToBigIntBE hash) ∧
      Hex.ofHex (w.payload_hash.toList.drop 2) = Poseidon.poseidonSponge perm elements := by
  refine ⟨fun n v hv => ?_, fun n v => bigintToBytesBE_of_le, fun n v hv => ⟨_, bigintToBytesBE_of_neg hv⟩,
    bigintToBytesBE_bytesToBigIntBE, ?_⟩
  · obtain ⟨hlen, hvalue⟩ := length_and_value_of_bigintToBytesBE (bigintToBytesBE_of_lt hv)
    exact ⟨_, bigintToBytesBE_of_lt hv, hlen, hvalue⟩
  · have hhash := @Aggregator.computePayloadHash_of_length p perm hr
    have hlt := Aggregator.lt_pow_of_lt_P (@Poseidon.poseidonSponge_lt perm p.words)
    obtain ⟨hlen, hvalue⟩ := length_and_value_of_bigintToBytesBE (bigintToBytesBE_of_lt hlt)
    obtain ⟨w, hw, -⟩ := @Encoders.prepareWitnessInputs_spec perm _ _ _ hs hp hr
    have hfield := payload_hash_of_prepareWitnessInputs hw hhash
    refine ⟨_, _, _, w, Aggregator.canonicalize_of_length hr, bytesToFieldElements_bytes hr, hhash, hlen, hvalue, hw,
      hfield, ?_⟩
    rw [hfield, hvalue, ofHex_toFieldHex]

open CanonicalPayload.SamplePayload in
theorem conversions_inverse_southWest :
    bigintToBytesBE 256 2 = .ok [1, 0] ∧ (∃ message, bigintToBytesBE 256 1 = .error message) ∧
    ∃ w, prepareWitnessInputs id southWest (List.replicate 64 0) (List.replicate 64 0) = .ok w := by
  obtain ⟨-, hle, -, hround, -, -, -, w, -, -, -, -, -, hw, -⟩ := @conversions_inverse id southWest
    (List.replicate 64 0) (List.replicate 64 0) List.length_replicate List.length_replicate encodable_southWest.readings
  exact ⟨hround [1, 0], hle 1 256 (by decide), w, hw⟩

end InfraVeritas
