import InfraVeritas.Circuit
import InfraVeritas.Schema
import InfraVeritas.V3

/-!
# The three encoders of the public inputs

The nine public inputs are computed three times: as the first seven elements of the canonical payload
with the hash and the sum the circuit recomputes, as the named fields of `prepareWitnessInputs`
(`prover/witness.ts`), and as the words V3 encodes from the struct of `chain/submit.ts`. A negative
coordinate is reduced modulo `2^64`, modulo the field's modulus and modulo `2^256` respectively;
`agree_iff` says that this is the only disagreement.
-/

namespace InfraVeritas
open BigEndian Checks

/-! ### `prover/witness.ts` -/

namespace Prover

def computeTotalEnergy (payload : CanonicalPayload) : Int :=
  payload.readings.foldl (fun total r => total + r.voltage_mv * r.current_ma) 0

/-- `toFieldHex`; `%` on `bigint` truncates. -/
def toFieldHex (v : Int) : String :=
  let n := if v < 0 then ((v.tmod P) + P).tmod P else v
  "0x" ++ String.ofList (Nat.toDigits 16 n.toNat)

def bytesToBigIntBE (bytes : Bytes) : Int := (bytes.foldl (fun v b => v <<< 8 ||| b.toNat) 0 : Nat)

structure WitnessInputs where
  device_id : String
  session_id : String
  epoch_start_ts : String
  lat_e7 : String
  lon_e7 : String
  light_level : String
  tamper_flag : String
  payload_hash : String
  total_energy_mwh : String
  canonical_payload : List String
  signature : Bytes
  pubkey_x : Bytes
  pubkey_y : Bytes

def prepareWitnessInputs (perm : Poseidon.Permutation) (payload : CanonicalPayload) (signature pubkey : Bytes) :
    Except String WitnessInputs := do
  let n := signature.length
  revertIf (n ≠ 64) s!"signature must be 64 bytes (r || s), got {n}"
  let n := pubkey.length
  revertIf (n ≠ 64) s!"pubkey must be 64 bytes uncompressed (X || Y), got {n}"
  let n := payload.readings.length
  revertIf (n ≠ 100) s!"payload must have exactly 100 readings, got {n}"
  let payloadHashBytes ← Aggregator.computePayloadHash perm payload
  let canonicalBytes ← Aggregator.canonicalize payload
  let canonicalFields ← Aggregator.bytesToFieldElements canonicalBytes
  return {
    device_id := toFieldHex payload.device_id
    session_id := toFieldHex payload.session_id
    epoch_start_ts := toFieldHex payload.epoch_start_ts
    lat_e7 := toFieldHex payload.lat_e7
    lon_e7 := toFieldHex payload.lon_e7
    light_level := toFieldHex payload.light_level
    tamper_flag := toFieldHex payload.tamper_flag
    payload_hash := toFieldHex (bytesToBigIntBE payloadHashBytes)
    total_energy_mwh := toFieldHex (computeTotalEnergy payload)
    canonical_payload := canonicalFields.map fun w : Nat => toFieldHex w
    signature := signature
    pubkey_x := pubkey.take 32
    pubkey_y := (pubkey.drop 32).take 32 }

def fieldOfHex (s : String) : Field := (Hex.ofHex (s.toList.drop 2) : Nat)

def WitnessInputs.publicInputs (w : WitnessInputs) : List Field :=
  [w.device_id, w.session_id, w.epoch_start_ts, w.lat_e7, w.lon_e7, w.light_level, w.tamper_flag,
    w.payload_hash, w.total_energy_mwh].map fieldOfHex

def WitnessInputs.canonicalPayload (w : WitnessInputs) : List Field := w.canonical_payload.map fieldOfHex

theorem bytesToBigIntBE_eq (bytes : Bytes) : bytesToBigIntBE bytes = ofBE bytes := by
  have hstep (v : Nat) (b : UInt8) : v <<< 8 ||| b.toNat = v * 256 + b.toNat := by
    rw [← Nat.shiftLeft_add_eq_or_of_lt b.toNat_lt, Nat.shiftLeft_eq]
  rw [bytesToBigIntBE, ofBE]
  simp only [hstep]

theorem computeTotalEnergy_eq_sum (p : CanonicalPayload) :
    computeTotalEnergy p = (p.readings.map fun r => r.voltage_mv * r.current_ma).sum := by
  have h (rs : List Reading) (z : Int) :
      rs.foldl (fun total r => total + r.voltage_mv * r.current_ma) z =
        z + (rs.map fun r => r.voltage_mv * r.current_ma).sum := by
    induction rs generalizing z with
    | nil => simp
    | cons r rs ih => rw [List.foldl_cons, ih, List.map_cons, List.sum_cons, add_assoc]
  rw [computeTotalEnergy, h, zero_add]

theorem ofHex_drop_hex (n : Nat) : Hex.ofHex (("0x" ++ String.ofList (Nat.toDigits 16 n)).toList.drop 2) = n := by
  have hdrop : ("0x" ++ String.ofList (Nat.toDigits 16 n)).toList.drop 2 = Nat.toDigits 16 n := by
    simp only [String.toList_append, String.toList_ofList]
    rfl
  rw [hdrop, Hex.ofHex_toDigits]

theorem fieldOfHex_toFieldHex (v : Int) : fieldOfHex (toFieldHex v) = (v : Field) := by
  have hread (n : Int) : fieldOfHex ("0x" ++ String.ofList (Nat.toDigits 16 n.toNat)) = (n.toNat : Field) := by
    rw [fieldOfHex, ofHex_drop_hex]
  have hP : (0 : Int) < P := by decide
  rw [toFieldHex]
  split
  · next h =>
    have hneg : (v.tmod P + P).tmod P = v % P := by
      rw [Int.tmod_eq_emod_of_nonneg (by have := Int.lt_tmod_of_pos v hP; omega), Int.add_emod_right,
        Int.tmod_def, Int.sub_mul_emod_self_left]
    rw [hread, hneg]
    have hnn : 0 ≤ v % P := Int.emod_nonneg v (by omega)
    have hcast : (((v % P).toNat : Int) : Field) = (v : Field) := by
      rw [Int.toNat_of_nonneg hnn, ZMod.intCast_mod]
    exact_mod_cast hcast
  · next h =>
    rw [hread]
    have hcast : ((v.toNat : Int) : Field) = (v : Field) := by rw [Int.toNat_of_nonneg (by omega)]
    exact_mod_cast hcast

end Prover

/-! ### `chain/submit.ts` -/

namespace Chain

/-- A `uint64` argument: a value out of range has no ABI encoding, and building the call throws. -/
def abiUint64 (v : Int) : Option U64 := if IsU64 v then some (BitVec.ofInt 64 v) else none

def abiInt64 (v : Int) : Option I64 := if IsI64 v then some (BitVec.ofInt 64 v) else none

def abiBytes32 (bs : Bytes) : Option Bytes32 :=
  if bs.length = 32 then some (BitVec.ofNat 256 (ofBE bs)) else none

/-- The `pubInputs` struct of `V3ChainClient.submitProof`. -/
def pubInputs (payload : CanonicalPayload) (payloadHash : Bytes) : Option PublicInputs := do
  let deviceId ← abiUint64 payload.device_id
  let sessionId ← abiUint64 payload.session_id
  let epochStartTs ← abiUint64 payload.epoch_start_ts
  let lat_e7 ← abiInt64 payload.lat_e7
  let lon_e7 ← abiInt64 payload.lon_e7
  let lightLevel ← abiUint64 payload.light_level
  let tamperFlag ← abiUint64 payload.tamper_flag
  let payloadHash ← abiBytes32 payloadHash
  let totalEnergyMWh ← abiUint64 (Prover.computeTotalEnergy payload)
  return { deviceId, sessionId, epochStartTs, lat_e7, lon_e7, lightLevel, tamperFlag, payloadHash, totalEnergyMWh }

theorem abiUint64_eq_some {v : Int} {x : U64} :
    abiUint64 v = some x ↔ IsU64 v ∧ (x.toNat : ℤ) = v := by
  unfold abiUint64
  split
  · next h =>
    obtain ⟨h0, hlt⟩ := h
    have hv : ((BitVec.ofInt 64 v).toNat : ℤ) = v := by rw [BitVec.toNat_ofInt]; omega
    rw [Option.some.injEq]
    constructor
    · rintro rfl; exact ⟨⟨h0, hlt⟩, hv⟩
    · rintro ⟨-, hx⟩
      exact BitVec.eq_of_toNat_eq (by omega)
  · next h => exact ⟨fun h' => (by cases h'), fun h' => absurd h'.1 h⟩

theorem abiInt64_eq_some {v : Int} {x : I64} : abiInt64 v = some x ↔ IsI64 v ∧ x.toInt = v := by
  unfold abiInt64
  split
  · next h =>
    obtain ⟨hlo, hhi⟩ := h
    have hv : (BitVec.ofInt 64 v).toInt = v := by
      rw [BitVec.toInt_ofInt]
      exact Int.bmod_eq_of_le (by omega) (by omega)
    rw [Option.some.injEq]
    constructor
    · rintro rfl; exact ⟨⟨hlo, hhi⟩, hv⟩
    · rintro ⟨-, hx⟩
      exact BitVec.eq_of_toInt_eq (by omega)
  · next h => exact ⟨fun h' => (by cases h'), fun h' => absurd h'.1 h⟩

theorem abiBytes32_eq_some {bs : Bytes} {w : Bytes32} : abiBytes32 bs = some w ↔ bs = wordBytes w := by
  unfold abiBytes32
  split
  · next h =>
    have hlt : ofBE bs < 2 ^ 256 := by have := ofBE_lt bs; rwa [h] at this
    rw [Option.some.injEq]
    constructor
    · rintro rfl
      rw [wordBytes, BitVec.toNat_ofNat, Nat.mod_eq_of_lt hlt]
      have hround := toBE_ofBE bs
      rw [h] at hround
      exact hround.symm
    · intro hw
      refine BitVec.eq_of_toNat_eq ?_
      rw [BitVec.toNat_ofNat, Nat.mod_eq_of_lt hlt, hw]
      exact ofBE_toBE_of_lt w.isLt
  · next h =>
    refine ⟨fun h' => (by cases h'), fun hw => absurd ?_ h⟩
    rw [hw, length_wordBytes]

/-- The struct `pi` holds the values of the payload and of the hash. -/
structure Holds (p : CanonicalPayload) (hash : Bytes) (pi : PublicInputs) : Prop where
  deviceId : IsU64 p.device_id ∧ (pi.deviceId.toNat : ℤ) = p.device_id
  sessionId : IsU64 p.session_id ∧ (pi.sessionId.toNat : ℤ) = p.session_id
  epochStartTs : IsU64 p.epoch_start_ts ∧ (pi.epochStartTs.toNat : ℤ) = p.epoch_start_ts
  lat_e7 : IsI64 p.lat_e7 ∧ pi.lat_e7.toInt = p.lat_e7
  lon_e7 : IsI64 p.lon_e7 ∧ pi.lon_e7.toInt = p.lon_e7
  lightLevel : IsU64 p.light_level ∧ (pi.lightLevel.toNat : ℤ) = p.light_level
  tamperFlag : IsU64 p.tamper_flag ∧ (pi.tamperFlag.toNat : ℤ) = p.tamper_flag
  payloadHash : hash = wordBytes pi.payloadHash
  totalEnergyMWh : IsU64 (Prover.computeTotalEnergy p) ∧
    (pi.totalEnergyMWh.toNat : ℤ) = Prover.computeTotalEnergy p

theorem pubInputs_eq_some {p : CanonicalPayload} {hash : Bytes} {pi : PublicInputs} :
    pubInputs p hash = some pi ↔ Holds p hash pi := by
  unfold pubInputs
  simp only [Option.bind_eq_bind, Option.bind_eq_some_iff, abiUint64_eq_some, abiInt64_eq_some,
    abiBytes32_eq_some, Option.pure_def, Option.some.injEq]
  constructor
  · rintro ⟨_, h1, _, h2, _, h3, _, h4, _, h5, _, h6, _, h7, _, h8, _, h9, rfl⟩
    exact ⟨h1, h2, h3, h4, h5, h6, h7, h8, h9⟩
  · rintro ⟨h1, h2, h3, h4, h5, h6, h7, h8, h9⟩
    exact ⟨_, h1, _, h2, _, h3, _, h4, _, h5, _, h6, _, h7, _, h8, _, h9, rfl⟩

end Chain

/-! ### Agreement -/

namespace Encoders
open Prover Chain Server

/-- The inputs as the circuit recomputes them: the first seven elements, the hash, the energy sum. -/
def canonicalInputs (elements : List Nat) (hash : Bytes) : List Field :=
  (toFields elements).take 7 ++ [((ofBE hash : Nat) : Field), Circuit.totalEnergy (toFields elements)]

def chainInputs (pi : PublicInputs) : List Field := toFields ((V3.encodePublicInputs pi).map (·.toNat))

structure SameInputs (elements : List Nat) (hash : Bytes) (w : WitnessInputs) (pi : PublicInputs) : Prop where
  witness : w.publicInputs = canonicalInputs elements hash
  chain : chainInputs pi = canonicalInputs elements hash
  inRange : ∀ word ∈ V3.encodePublicInputs pi, word.toNat < P
  /-- the metadata asserts of `main.nr` -/
  asserts : w.canonicalPayload.take 7 = w.publicInputs.take 7
  proven : chainInputs pi = w.publicInputs

/-- The three encoders succeed and agree. -/
def Agree (perm : Poseidon.Permutation) (p : CanonicalPayload) (signature pubkey : Bytes) : Prop :=
  ∃ bytes elements hash w pi, Aggregator.canonicalize p = .ok bytes ∧
    Aggregator.bytesToFieldElements bytes = .ok elements ∧ Aggregator.computePayloadHash perm p = .ok hash ∧
    prepareWitnessInputs perm p signature pubkey = .ok w ∧ pubInputs p hash = some pi ∧
    SameInputs elements hash w pi

section
variable {perm : Poseidon.Permutation} {p : CanonicalPayload} {signature pubkey hash : Bytes} {pi : PublicInputs}

def values (perm : Poseidon.Permutation) (p : CanonicalPayload) : List Int :=
  p.metadata ++ [(Poseidon.poseidonSponge perm p.words : Int), computeTotalEnergy p]

theorem prepareWitnessInputs_spec (hs : signature.length = 64) (hp : pubkey.length = 64)
    (hr : p.readings.length = 100) :
    ∃ w, prepareWitnessInputs perm p signature pubkey = .ok w ∧
      w.publicInputs = intFields (values perm p) ∧ w.canonicalPayload = toFields p.words := by
  have hhash : bytesToBigIntBE (toBE 32 (Poseidon.poseidonSponge perm p.words)) =
      Poseidon.poseidonSponge perm p.words := by
    rw [bytesToBigIntBE_eq, ofBE_toBE_of_lt (Aggregator.lt_pow_of_lt_P (Poseidon.poseidonSponge_lt _))]
  unfold prepareWitnessInputs
  simp only [hs, hp, hr, revertIf_of_not, ne_eq, not_true_eq_false, not_false_eq_true, ok_bind,
    Aggregator.computePayloadHash_of_length hr, Aggregator.canonicalize_of_length hr,
    Aggregator.bytesToFieldElements_bytes hr]
  refine ⟨_, rfl, ?_, ?_⟩
  · simp only [WitnessInputs.publicInputs, List.map_cons, List.map_nil, fieldOfHex_toFieldHex, intFields, values,
      CanonicalPayload.metadata, List.cons_append, List.nil_append, hhash]
  · rw [WitnessInputs.canonicalPayload, List.map_map, toFields]
    refine List.map_congr_left ?_
    intro w _
    rw [Function.comp_apply, fieldOfHex_toFieldHex, Int.cast_natCast]

/-- A struct exists exactly when the energy sum is a `uint64`; everything else is in range. -/
theorem pubInputs_isSome (hv : Encodable p) (hh : hash.length = 32) :
    (∃ pi, pubInputs p hash = some pi) ↔ computeTotalEnergy p < 2 ^ 64 := by
  have hu {v : Int} (h : IsU64 v) : ∃ x : U64, IsU64 v ∧ (x.toNat : ℤ) = v :=
    ⟨BitVec.ofInt 64 v, abiUint64_eq_some.1 (if_pos h)⟩
  have hi {v : Int} (h : IsI64 v) : ∃ x : I64, IsI64 v ∧ x.toInt = v :=
    ⟨BitVec.ofInt 64 v, abiInt64_eq_some.1 (if_pos h)⟩
  have hnn : 0 ≤ computeTotalEnergy p := by
    rw [computeTotalEnergy_eq_sum]
    refine List.sum_nonneg ?_
    intro x hx
    obtain ⟨r, hr, rfl⟩ := List.mem_map.1 hx
    exact mul_nonneg (hv.reading r hr).1.1 (hv.reading r hr).2.1.1
  constructor
  · rintro ⟨pi, hpi⟩
    exact (pubInputs_eq_some.1 hpi).totalEnergyMWh.1.2
  · intro ht
    obtain ⟨d, hd⟩ := hu hv.device_id
    obtain ⟨s, hs⟩ := hu hv.session_id
    obtain ⟨e, he⟩ := hu hv.epoch_start_ts
    obtain ⟨la, hla⟩ := hi hv.lat_e7
    obtain ⟨lo, hlo⟩ := hi hv.lon_e7
    obtain ⟨l, hl⟩ := hu hv.light_level
    obtain ⟨tf, htf⟩ := hu hv.tamper_flag
    obtain ⟨t, htot⟩ := hu (⟨hnn, ht⟩ : IsU64 (computeTotalEnergy p))
    have hw := abiBytes32_eq_some.1 (if_pos hh : abiBytes32 hash = _)
    exact ⟨⟨d, s, e, la, lo, l, tf, _, t⟩, pubInputs_eq_some.2 ⟨hd, hs, he, hla, hlo, hl, htf, hw, htot⟩⟩

/-- A negative coordinate's word is above the modulus. -/
theorem nonneg_of_word_lt {x : I64} (h : (bytes32OfI64 x).toNat < P) : 0 ≤ x.toInt := by
  by_contra hneg
  have hw := toNat_bytes32OfI64_of_neg (by omega : x.toInt < 0)
  have hlo := BitVec.le_toInt x
  have hP : (P : ℤ) < 2 ^ 255 := by decide
  omega

theorem words_of_nonneg (h : Holds p hash pi) (hlat : 0 ≤ p.lat_e7) (hlon : 0 ≤ p.lon_e7) :
    ((V3.encodePublicInputs pi).map fun w => (w.toNat : ℤ)) =
      p.metadata ++ [(pi.payloadHash.toNat : ℤ), computeTotalEnergy p] := by
  simp only [V3.encodePublicInputs, List.map_cons, List.map_nil, toNat_bytes32OfU64,
    toNat_bytes32OfI64_of_nonneg (h.lat_e7.2 ▸ hlat), toNat_bytes32OfI64_of_nonneg (h.lon_e7.2 ▸ hlon),
    h.deviceId.2, h.sessionId.2, h.epochStartTs.2, h.lat_e7.2, h.lon_e7.2, h.lightLevel.2, h.tamperFlag.2,
    h.totalEnergyMWh.2, CanonicalPayload.metadata, List.cons_append, List.nil_append]

theorem canonicalInputs_of_nonneg (hv : Encodable p) (hlat : 0 ≤ p.lat_e7) (hlon : 0 ≤ p.lon_e7) :
    canonicalInputs p.words (toBE 32 (Poseidon.poseidonSponge perm p.words)) =
      intFields (values perm p) := by
  have hw {v : Int} (h0 : 0 ≤ v) (hlt : v < 2 ^ 64) : (wrap64 v : Field) = (v : Field) := by
    rw [← Int.cast_natCast, wrap64_of_nonneg h0 hlt]
  have hmeta : (toFields p.words).take 7 = intFields p.metadata := by
    have hl := hv.lat_e7.2
    have hl' := hv.lon_e7.2
    rw [toFields, ← List.map_take, CanonicalPayload.words, List.map_append,
      List.take_left' (by rw [List.length_map]; rfl)]
    simp only [CanonicalPayload.metadata, intFields, List.map_cons, List.map_nil, hw hv.device_id.1 hv.device_id.2,
      hw hv.session_id.1 hv.session_id.2, hw hv.epoch_start_ts.1 hv.epoch_start_ts.2, hw hlat (by omega),
      hw hlon (by omega), hw hv.light_level.1 hv.light_level.2, hw hv.tamper_flag.1 hv.tamper_flag.2]
  have henergy : (Circuit.energyWords p.readings : Field) = (computeTotalEnergy p : Field) := by
    rw [computeTotalEnergy_eq_sum, ← Circuit.energyWords_eq_sum fun r hr =>
      ⟨(hv.reading r hr).1, (hv.reading r hr).2.1⟩, Int.cast_natCast]
  rw [canonicalInputs, hmeta, Circuit.totalEnergy_words hv.readings, henergy,
    ofBE_toBE_of_lt (Aggregator.lt_pow_of_lt_P (Poseidon.poseidonSponge_lt _)), values, intFields, intFields, List.map_append]
  simp only [List.map_cons, List.map_nil, Int.cast_natCast]

end

/-- For a payload the encoders accept, they agree exactly when no coordinate is negative. -/
theorem agree_iff_of_encodable {perm : Poseidon.Permutation} {p : CanonicalPayload} {signature pubkey : Bytes}
    (hv : Encodable p) (hs : signature.length = 64) (hp : pubkey.length = 64)
    (ht : computeTotalEnergy p < 2 ^ 64) :
    Agree perm p signature pubkey ↔ 0 ≤ p.lat_e7 ∧ 0 ≤ p.lon_e7 := by
  constructor
  · rintro ⟨_, _, hash, _, pi, -, -, -, -, hpi, h⟩
    have hpi := pubInputs_eq_some.1 hpi
    rw [← hpi.lat_e7.2, ← hpi.lon_e7.2]
    exact ⟨nonneg_of_word_lt (h.inRange _ (by simp [V3.encodePublicInputs])),
      nonneg_of_word_lt (h.inRange _ (by simp [V3.encodePublicInputs]))⟩
  · rintro ⟨hlat, hlon⟩
    obtain ⟨w, hw, hpub, hcan⟩ := @prepareWitnessInputs_spec perm p signature pubkey hs hp hv.readings
    obtain ⟨pi, hpi⟩ := (pubInputs_isSome hv (length_toBE 32 (Poseidon.poseidonSponge perm p.words))).2 ht
    have hpi' := pubInputs_eq_some.1 hpi
    have hhash : pi.payloadHash.toNat = Poseidon.poseidonSponge perm p.words :=
      (wordBytes_eq_toBE (Aggregator.lt_pow_of_lt_P (Poseidon.poseidonSponge_lt _))).1 hpi'.payloadHash.symm
    have hwords := words_of_nonneg hpi' hlat hlon
    rw [hhash] at hwords
    have hchain : chainInputs pi = intFields (values perm p) := by
      rw [values, ← hwords, chainInputs, toFields, intFields, List.map_map, List.map_map]
      exact List.map_congr_left fun w _ => (Int.cast_natCast _).symm
    have hcanon := @canonicalInputs_of_nonneg perm p hv hlat hlon
    refine ⟨_, _, _, w, pi, Aggregator.canonicalize_of_length hv.readings,
      Aggregator.bytesToFieldElements_bytes hv.readings, Aggregator.computePayloadHash_of_length hv.readings,
      hw, hpi, ?_⟩
    refine ⟨hpub.trans hcanon.symm, hchain.trans hcanon.symm, ?_, ?_, hchain.trans hpub.symm⟩
    · intro word hword
      -- every word is one of the nine values, none of which reaches the modulus
      have hmem : (word.toNat : ℤ) ∈ values perm p := by
        rw [values, ← hwords]
        exact List.mem_map.2 ⟨word, hword, rfl⟩
      have hlt : ∀ v ∈ values perm p, v < P := by
        have h64 : (2 : ℤ) ^ 64 < P := by decide
        have hsp : Poseidon.poseidonSponge perm p.words < P := Poseidon.poseidonSponge_lt p.words
        have hl := hv.lat_e7.2
        have hl' := hv.lon_e7.2
        simp only [values, CanonicalPayload.metadata, List.cons_append, List.nil_append, List.forall_mem_cons,
          List.not_mem_nil, false_implies, implies_true, and_true]
        exact ⟨hv.device_id.2.trans h64, hv.session_id.2.trans h64, hv.epoch_start_ts.2.trans h64, by omega,
          by omega, hv.light_level.2.trans h64, hv.tamper_flag.2.trans h64, by omega, ht.trans h64⟩
      exact_mod_cast hlt _ hmem
    · rw [hcan, hpub, ← hcanon, canonicalInputs, List.take_left']
      rw [List.length_take, toFields, List.length_map, CanonicalPayload.length_words hv.readings]
      rfl

open Server.SampleRequest in
theorem energy_request (session lat : String) (r : ReadingRequest) :
    computeTotalEnergy (parsePayload (request session lat r)) = bigInt r.voltage_mv * bigInt r.current_ma := by
  have h0 : (parseReading ⟨"0", "0", "0"⟩).voltage_mv * (parseReading ⟨"0", "0", "0"⟩).current_ma = 0 := by decide
  rw [computeTotalEnergy_eq_sum, parsePayload, request, List.map_cons, List.map_cons, List.sum_cons,
    List.map_replicate, List.map_replicate, h0, List.sum_replicate, nsmul_zero, add_zero]
  rfl

/-- For an accepted request with a `uint64` energy sum the encoders agree exactly when neither
coordinate is negative. -/
theorem agree_iff {perm : Poseidon.Permutation} {req : SubmissionRequest} (h : submissionSchema req = true)
    (ht : computeTotalEnergy (parsePayload req) < 2 ^ 64) :
    Agree perm (parsePayload req) (hexToBytes req.signature) (hexToBytes req.public_key) ↔
      0 ≤ (parsePayload req).lat_e7 ∧ 0 ≤ (parsePayload req).lon_e7 := by
  obtain ⟨hs, hp⟩ := hex128_of_schema h
  exact agree_iff_of_encodable (parsePayload_validated h).encodable (length_hexToBytes hs) (length_hexToBytes hp) ht

open Server.SampleRequest in
theorem agree_iff_sample :
    Agree id (parsePayload (request "1" "12" ⟨"3", "4", "0"⟩)) (hexToBytes zeros128) (hexToBytes zeros128) :=
  (agree_iff (schema_request (by decide) (by decide) (by decide) : submissionSchema (request "1" "12" ⟨"3", "4", "0"⟩) = true)
    (by rw [energy_request]; decide)).2 ⟨by decide, by decide⟩

open Server.SampleRequest in
theorem southern_disagrees :
    submissionSchema (request "1" "-1" ⟨"3", "4", "0"⟩) = true ∧
    computeTotalEnergy (parsePayload (request "1" "-1" ⟨"3", "4", "0"⟩)) < 2 ^ 64 ∧
    ¬ Agree id (parsePayload (request "1" "-1" ⟨"3", "4", "0"⟩)) (hexToBytes zeros128) (hexToBytes zeros128) := by
  have h : submissionSchema (request "1" "-1" ⟨"3", "4", "0"⟩) = true :=
    schema_request (by decide) (by decide) (by decide)
  have ht : computeTotalEnergy (parsePayload (request "1" "-1" ⟨"3", "4", "0"⟩)) < 2 ^ 64 := by
    rw [energy_request]; decide
  have hlen : (hexToBytes zeros128).length = 64 := length_hexToBytes (hex128_of_schema h).1
  refine ⟨h, ht, ?_⟩
  intro ha
  have hlat := ((agree_iff_of_encodable (parsePayload_validated h).encodable hlen hlen ht).1 ha).1
  exact absurd hlat (by decide)

/-! ### The energy sum -/

theorem sum_le_of_forall_le {xs : List Int} {b : Int} (h : ∀ x ∈ xs, x ≤ b) : xs.sum ≤ xs.length * b := by
  have hle := List.sum_le_card_nsmul xs b h
  rwa [nsmul_eq_mul] at hle

/-- The energy sum of an accepted request stays below the modulus but not below `2^64`; the struct of
`submit.ts` exists exactly when it does. -/
theorem energy_range {req : SubmissionRequest} (h : submissionSchema req = true) :
    0 ≤ computeTotalEnergy (parsePayload req) ∧
    computeTotalEnergy (parsePayload req) ≤ 100 * (2 ^ 64 - 1) ^ 2 ∧
    computeTotalEnergy (parsePayload req) < P ∧
    (∀ hash : Bytes, hash.length = 32 →
      ((∃ pi, pubInputs (parsePayload req) hash = some pi) ↔ computeTotalEnergy (parsePayload req) < 2 ^ 64)) ∧
    ((∀ r ∈ (parsePayload req).readings, r.voltage_mv * r.current_ma ≤ (2 ^ 64 - 1) / 100) →
      computeTotalEnergy (parsePayload req) < 2 ^ 64) := by
  have hv := (parsePayload_validated h).encodable
  have hsum : (Circuit.energyWords (parsePayload req).readings : ℤ) = computeTotalEnergy (parsePayload req) := by
    rw [computeTotalEnergy_eq_sum, Circuit.energyWords_eq_sum fun r hr =>
      ⟨(hv.reading r hr).1, (hv.reading r hr).2.1⟩]
  have hle := Circuit.energyWords_le (parsePayload req).readings
  have hlt := Circuit.energyWords_lt_P hv.readings
  rw [hv.readings] at hle
  refine ⟨by omega, by omega, by omega, fun hash hh => pubInputs_isSome hv hh, fun hprod => ?_⟩
  have hbound : ∀ x ∈ (parsePayload req).readings.map (fun r => r.voltage_mv * r.current_ma),
      x ≤ (2 ^ 64 - 1) / 100 := by
    rintro x hx
    obtain ⟨r, hr, rfl⟩ := List.mem_map.1 hx
    exact hprod r hr
  have hs := sum_le_of_forall_le hbound
  rw [List.length_map, hv.readings, ← computeTotalEnergy_eq_sum] at hs
  omega

open Server.SampleRequest in
theorem energy_range_sample :
    submissionSchema (request "1" "12" ⟨"3", "4", "0"⟩) = true ∧
    computeTotalEnergy (parsePayload (request "1" "12" ⟨"3", "4", "0"⟩)) < P := by
  have h : submissionSchema (request "1" "12" ⟨"3", "4", "0"⟩) = true :=
    schema_request (by decide) (by decide) (by decide)
  exact ⟨h, (energy_range h).2.2.1⟩

open Server.SampleRequest in
/-- One reading of `2^32` millivolts and `2^32` milliamperes: accepted, and no struct. -/
theorem energy_exceeds_uint64 :
    submissionSchema (request "1" "12" ⟨"4294967296", "4294967296", "0"⟩) = true ∧
    computeTotalEnergy (parsePayload (request "1" "12" ⟨"4294967296", "4294967296", "0"⟩)) = 2 ^ 64 ∧
    ¬ ∃ pi, pubInputs (parsePayload (request "1" "12" ⟨"4294967296", "4294967296", "0"⟩))
      (List.replicate 32 0) = some pi := by
  have h : submissionSchema (request "1" "12" ⟨"4294967296", "4294967296", "0"⟩) = true :=
    schema_request (by decide) (by decide) (by decide)
  have ht : computeTotalEnergy (parsePayload (request "1" "12" ⟨"4294967296", "4294967296", "0"⟩)) = 2 ^ 64 := by
    rw [energy_request]; decide
  refine ⟨h, ht, ?_⟩
  intro hpi
  have hlt := (pubInputs_isSome (parsePayload_validated h).encodable List.length_replicate).1 hpi
  rw [ht] at hlt
  exact lt_irrefl _ hlt

end Encoders

end InfraVeritas
