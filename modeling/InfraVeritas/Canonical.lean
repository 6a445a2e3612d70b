import InfraVeritas.Poseidon
import InfraVeritas.Solidity

/-!
# The canonical payload

The payload of one epoch, its 2456-byte serialization on the aggregator (`verify/canonical.ts`) and
on the edge (`hal/canonical.py`), and the Poseidon hash of it. The aggregator's `DataView` writes
wrap modulo `2^64`; the edge's `struct.pack` raises instead. Where the edge accepts a payload both
write the same bytes, whose 8-byte words are `payloadWords`.
-/

namespace InfraVeritas
open BigEndian Checks

structure Reading where
  voltage_mv : Int
  current_ma : Int
  timestamp_ms : Int
deriving DecidableEq, Repr

structure CanonicalPayload where
  device_id : Int
  session_id : Int
  epoch_start_ts : Int
  lat_e7 : Int
  lon_e7 : Int
  light_level : Int
  tamper_flag : Int
  readings : List Reading
deriving DecidableEq, Repr

/-- The 64 bits of an integer, as a natural number. -/
def wrap64 (v : Int) : Nat := (v % 2 ^ 64).toNat

def Reading.ints (r : Reading) : List Int := [r.voltage_mv, r.current_ma, r.timestamp_ms]

namespace CanonicalPayload

def metadata (p : CanonicalPayload) : List Int :=
  [p.device_id, p.session_id, p.epoch_start_ts, p.lat_e7, p.lon_e7, p.light_level, p.tamper_flag]

def words (p : CanonicalPayload) : List Nat := (p.metadata ++ p.readings.flatMap Reading.ints).map wrap64

end CanonicalPayload

def READINGS_PER_PAYLOAD : Nat := 100
def READING_BYTES : Nat := 24
def METADATA_BYTES : Nat := 56
def EXPECTED_PAYLOAD_BYTES : Nat := METADATA_BYTES + READINGS_PER_PAYLOAD * READING_BYTES
def EXPECTED_FIELD_ELEMENTS : Nat := EXPECTED_PAYLOAD_BYTES / 8

/-! ### Aggregator -/

namespace Aggregator

/-- `DataView.setBigUint64`, big-endian. -/
def setBigUint64 (v : Int) : Bytes := toBE 8 (wrap64 v)

/-- `DataView.setBigInt64`, big-endian: the same bits. -/
def setBigInt64 (v : Int) : Bytes := toBE 8 (wrap64 v)

/-- `canonicalize`; a JavaScript `Error` is its message. -/
def canonicalize (payload : CanonicalPayload) : Except String Bytes := do
  let n := payload.readings.length
  revertIf (n ≠ READINGS_PER_PAYLOAD) s!"Expected {READINGS_PER_PAYLOAD} readings, got {n}"
  let buf := setBigUint64 payload.device_id ++ setBigUint64 payload.session_id ++
    setBigUint64 payload.epoch_start_ts ++ setBigInt64 payload.lat_e7 ++ setBigInt64 payload.lon_e7 ++
    setBigUint64 payload.light_level ++ setBigUint64 payload.tamper_flag
  let buf := payload.readings.foldl (fun buf r =>
    buf ++ setBigUint64 r.voltage_mv ++ setBigUint64 r.current_ma ++ setBigUint64 r.timestamp_ms) buf
  let offset := buf.length
  revertIf (offset ≠ EXPECTED_PAYLOAD_BYTES)
    s!"Canonical encoding wrong size: {offset} != {EXPECTED_PAYLOAD_BYTES}"
  return buf

def bytesToFieldElements (bytes : Bytes) : Except String (List Nat) := do
  let n := bytes.length
  revertIf (n % 8 ≠ 0) s!"Bytes length must be multiple of 8, got {n}"
  return wordsBE 8 bytes

/-- The loop of `bigintToBytesBE`, with `i` indices to go: the array and what is left of the value. -/
def writeBytesBE : Nat → Nat → Bytes → Bytes × Nat
  | 0, v, out => (out, v)
  | i + 1, v, out => writeBytesBE i (v >>> 8) (out.set i (UInt8.ofNat (v &&& 0xff)))

def bigintToBytesBE (value : Int) (byteLength : Nat) : Except String Bytes := do
  revertIf (value < 0) "bigintToBytesBE: negative values not supported"
  let (out, v) := writeBytesBE byteLength value.toNat (List.replicate byteLength 0)
  let hex := String.ofList (Nat.toDigits 16 value.toNat)
  revertIf (v ≠ 0) s!"bigintToBytesBE: value 0x{hex} overflows {byteLength} bytes"
  return out

def computePayloadHash (perm : Poseidon.Permutation) (payload : CanonicalPayload) : Except String Bytes := do
  let canonicalBytes ← canonicalize payload
  let fieldElements ← bytesToFieldElements canonicalBytes
  let n := fieldElements.length
  revertIf (n ≠ EXPECTED_FIELD_ELEMENTS) s!"Expected {EXPECTED_FIELD_ELEMENTS} field elements, got {n}"
  bigintToBytesBE (Poseidon.poseidonSponge perm fieldElements) 32

end Aggregator

/-! ### Edge -/

namespace Edge

inductive PyError
  | valueError (message : String)
  | structError
  | assertionError (message : String)
  | overflowError
deriving DecidableEq, Repr

/-- `struct.pack(">Q", v)`. -/
def packU64 (v : Int) : Except PyError Bytes :=
  if 0 ≤ v ∧ v < 2 ^ 64 then .ok (toBE 8 v.toNat) else .error .structError

/-- `struct.pack(">q", v)`. -/
def packI64 (v : Int) : Except PyError Bytes :=
  if -2 ^ 63 ≤ v ∧ v < 2 ^ 63 then .ok (toBE 8 (wrap64 v)) else .error .structError

def packReading (out : Bytes) (r : Reading) : Except PyError Bytes := do
  let voltage ← packU64 r.voltage_mv
  let current ← packU64 r.current_ma
  let timestamp ← packU64 r.timestamp_ms
  return out ++ voltage ++ current ++ timestamp

def canonicalize (payload : CanonicalPayload) : Except PyError Bytes := do
  let n := payload.readings.length
  revertIf (n ≠ READINGS_PER_PAYLOAD) (.valueError s!"Expected {READINGS_PER_PAYLOAD} readings, got {n}")
  let device_id ← packU64 payload.device_id
  let session_id ← packU64 payload.session_id
  let epoch_start_ts ← packU64 payload.epoch_start_ts
  let lat_e7 ← packI64 payload.lat_e7
  let lon_e7 ← packI64 payload.lon_e7
  let light_level ← packU64 payload.light_level
  let tamper_flag ← packU64 payload.tamper_flag
  let out ← payload.readings.foldlM packReading
    (device_id ++ session_id ++ epoch_start_ts ++ lat_e7 ++ lon_e7 ++ light_level ++ tamper_flag)
  let n := out.length
  revertIf (n ≠ EXPECTED_PAYLOAD_BYTES)
    (.assertionError s!"Canonical encoding wrong size: {n} != {EXPECTED_PAYLOAD_BYTES}")
  return out

/-- `int.to_bytes(32, "big")` of a non-negative integer. -/
def toBytes32 (v : Nat) : Except PyError Bytes := if v < 256 ^ 32 then .ok (toBE 32 v) else .error .overflowError

/-- The Python list comprehension over 8-byte slices is `wordsBE 8` on a length divisible by 8. -/
def computePayloadHash (perm : Poseidon.Permutation) (payload : CanonicalPayload) : Except PyError Bytes := do
  let canonical_bytes ← canonicalize payload
  toBytes32 (Poseidon.edgePoseidonSponge perm (wordsBE 8 canonical_bytes))

end Edge

/-! ### The common byte format -/

theorem wrap64_lt (v : Int) : wrap64 v < 2 ^ 64 := by unfold wrap64; omega

theorem wrap64_of_nonneg {v : Int} (h0 : 0 ≤ v) (h : v < 2 ^ 64) : (wrap64 v : Int) = v := by
  unfold wrap64; omega

theorem wrap64_of_neg {v : Int} (h0 : v < 0) (h : -2 ^ 63 ≤ v) : (wrap64 v : Int) = v + 2 ^ 64 := by
  unfold wrap64; omega

def encodeWords (vs : List Int) : Bytes := (vs.map wrap64).flatMap (toBE 8)

theorem encodeWords_append (vs ws : List Int) : encodeWords (vs ++ ws) = encodeWords vs ++ encodeWords ws := by
  simp [encodeWords]

theorem wordsBE_encodeWords (vs : List Int) : wordsBE 8 (encodeWords vs) = vs.map wrap64 := by
  refine wordsBE_flatMap_of_lt (by decide) ?_
  intro v hv
  obtain ⟨w, -, rfl⟩ := List.mem_map.1 hv
  exact wrap64_lt w

theorem length_encodeWords (vs : List Int) : (encodeWords vs).length = 8 * vs.length := by
  rw [encodeWords, length_flatMap_toBE, List.length_map]

theorem length_flatMap_ints (rs : List Reading) : (rs.flatMap Reading.ints).length = 3 * rs.length := by
  induction rs with
  | nil => rfl
  | cons r rs ih =>
    rw [List.flatMap_cons, List.length_append, ih, List.length_cons, Reading.ints]
    simp only [List.length_cons, List.length_nil]
    omega

namespace CanonicalPayload
variable {p : CanonicalPayload}

def bytes (p : CanonicalPayload) : Bytes := encodeWords (p.metadata ++ p.readings.flatMap Reading.ints)

theorem encodeWords_metadata (p : CanonicalPayload) :
    encodeWords p.metadata = toBE 8 (wrap64 p.device_id) ++ toBE 8 (wrap64 p.session_id) ++
      toBE 8 (wrap64 p.epoch_start_ts) ++ toBE 8 (wrap64 p.lat_e7) ++ toBE 8 (wrap64 p.lon_e7) ++
      toBE 8 (wrap64 p.light_level) ++ toBE 8 (wrap64 p.tamper_flag) := by
  simp only [encodeWords, metadata, List.map_cons, List.map_nil, List.flatMap_cons, List.flatMap_nil,
    List.append_assoc, List.append_nil]

theorem length_words (h : p.readings.length = 100) : p.words.length = 307 := by
  have hm : p.metadata.length = 7 := rfl
  rw [words, List.length_map, List.length_append, length_flatMap_ints, h, hm]

theorem length_bytes (h : p.readings.length = 100) : p.bytes.length = 2456 := by
  have hm : p.metadata.length = 7 := rfl
  rw [bytes, length_encodeWords, List.length_append, length_flatMap_ints, h, hm]

theorem wordsBE_bytes (p : CanonicalPayload) : wordsBE 8 p.bytes = p.words := wordsBE_encodeWords _

theorem words_lt {w : Nat} (h : w ∈ p.words) : w < 2 ^ 64 := by
  obtain ⟨v, -, rfl⟩ := List.mem_map.1 h
  exact wrap64_lt v

end CanonicalPayload

theorem foldl_append_eq {α : Type} (f : α → Bytes) (as : List α) (bs : Bytes) :
    as.foldl (fun bs a => bs ++ f a) bs = bs ++ as.flatMap f := by
  induction as generalizing bs with
  | nil => simp
  | cons a as ih => rw [List.foldl_cons, ih, List.flatMap_cons, List.append_assoc]

namespace Aggregator
variable {p : CanonicalPayload} {perm : Poseidon.Permutation}

theorem canonicalize_of_length (h : p.readings.length = 100) : canonicalize p = .ok p.bytes := by
  have hbytes : p.readings.foldl (fun buf r =>
      buf ++ setBigUint64 r.voltage_mv ++ setBigUint64 r.current_ma ++ setBigUint64 r.timestamp_ms)
      (setBigUint64 p.device_id ++ setBigUint64 p.session_id ++ setBigUint64 p.epoch_start_ts ++
        setBigInt64 p.lat_e7 ++ setBigInt64 p.lon_e7 ++ setBigUint64 p.light_level ++
        setBigUint64 p.tamper_flag) = p.bytes := by
    have hf : (fun (buf : Bytes) (r : Reading) =>
        buf ++ setBigUint64 r.voltage_mv ++ setBigUint64 r.current_ma ++ setBigUint64 r.timestamp_ms) =
        fun buf r => buf ++ encodeWords r.ints := by
      funext buf r
      simp only [encodeWords, Reading.ints, setBigUint64, List.map_cons, List.map_nil, List.flatMap_cons,
        List.flatMap_nil, List.append_assoc, List.append_nil]
    have hr : p.readings.flatMap (fun r => encodeWords r.ints) = encodeWords (p.readings.flatMap Reading.ints) := by
      simp only [encodeWords, List.map_flatMap, List.flatMap_assoc]
    rw [hf, foldl_append_eq, hr, CanonicalPayload.bytes, encodeWords_append, CanonicalPayload.encodeWords_metadata]
    simp only [setBigUint64, setBigInt64]
  unfold canonicalize
  simp only [hbytes, CanonicalPayload.length_bytes h, h, READINGS_PER_PAYLOAD, EXPECTED_PAYLOAD_BYTES,
    METADATA_BYTES, READING_BYTES]
  rfl

theorem bytesToFieldElements_bytes (h : p.readings.length = 100) :
    bytesToFieldElements p.bytes = .ok p.words := by
  unfold bytesToFieldElements
  simp only [CanonicalPayload.length_bytes h, CanonicalPayload.wordsBE_bytes]
  rfl

/-- After the loop the low bytes of the value are in place, and the rest of it is left. -/
theorem writeBytesBE_eq {n : Nat} {out : Bytes} (h : n ≤ out.length) (v : Nat) :
    writeBytesBE n v out = (toBE n v ++ out.drop n, v / 256 ^ n) := by
  induction n generalizing v out with
  | zero => rw [writeBytesBE, toBE, List.nil_append, List.drop_zero, pow_zero, Nat.div_one]
  | succ n ih =>
    have hlow : UInt8.ofNat (v &&& 0xff) = UInt8.ofNat v := by
      rw [show 0xff = 2 ^ 8 - 1 from rfl, Nat.and_two_pow_sub_one_eq_mod]
      exact UInt8.toNat_inj.1 (by rw [UInt8.toNat_ofNat', UInt8.toNat_ofNat', Nat.mod_mod])
    have hdrop (b : UInt8) : (out.set n b).drop n = b :: out.drop (n + 1) := by
      rw [List.drop_set, if_neg (Nat.lt_irrefl n), Nat.sub_self, ← List.getElem_cons_drop h, List.set_cons_zero]
    have hshift : v >>> 8 = v / 256 := Nat.shiftRight_eq_div_pow v 8
    rw [writeBytesBE, ih (by rw [List.length_set]; omega), hdrop, hlow, hshift, toBE, List.append_assoc,
      Nat.div_div_eq_div_mul, pow_succ', List.singleton_append]

theorem writeBytesBE_replicate (n v : Nat) :
    writeBytesBE n v (List.replicate n 0) = (toBE n v, v / 256 ^ n) := by
  have hlen : (List.replicate n (0 : UInt8)).length = n := List.length_replicate
  rw [writeBytesBE_eq hlen.ge, List.drop_of_length_le hlen.le, List.append_nil]

theorem bigintToBytesBE_of_lt {v n : Nat} (h : v < 256 ^ n) : bigintToBytesBE v n = .ok (toBE n v) := by
  have h0 : ¬ ((v : Int) < 0) := by omega
  have h1 : ¬ (v / 256 ^ n ≠ 0) := not_not.2 (Nat.div_eq_of_lt h)
  rw [bigintToBytesBE, revertIf_of_not h0]
  simp only [Int.toNat_natCast, writeBytesBE_replicate]
  rw [revertIf_of_not h1]
  rfl

theorem lt_pow_of_lt_P {v : Nat} (h : v < P) : v < 256 ^ 32 := h.trans (by decide)

theorem computePayloadHash_of_length (h : p.readings.length = 100) :
    computePayloadHash perm p = .ok (toBE 32 (Poseidon.poseidonSponge perm p.words)) := by
  have hlen : ¬ p.words.length ≠ EXPECTED_FIELD_ELEMENTS := not_not.2 (CanonicalPayload.length_words h)
  rw [computePayloadHash, canonicalize_of_length h, ok_bind, bytesToFieldElements_bytes h, ok_bind]
  dsimp only
  rw [revertIf_of_not hlen, ok_bind]
  exact bigintToBytesBE_of_lt (lt_pow_of_lt_P (Poseidon.poseidonSponge_lt _))

end Aggregator

/-! ### What the edge accepts -/

def IsU64 (v : Int) : Prop := 0 ≤ v ∧ v < 2 ^ 64
def IsI64 (v : Int) : Prop := -2 ^ 63 ≤ v ∧ v < 2 ^ 63

instance : DecidablePred IsU64 := fun _ => inferInstanceAs (Decidable (_ ∧ _))
instance : DecidablePred IsI64 := fun _ => inferInstanceAs (Decidable (_ ∧ _))

/-- The payloads the edge's `canonicalize` does not raise on. -/
structure Encodable (p : CanonicalPayload) : Prop where
  readings : p.readings.length = 100
  device_id : IsU64 p.device_id
  session_id : IsU64 p.session_id
  epoch_start_ts : IsU64 p.epoch_start_ts
  lat_e7 : IsI64 p.lat_e7
  lon_e7 : IsI64 p.lon_e7
  light_level : IsU64 p.light_level
  tamper_flag : IsU64 p.tamper_flag
  reading : ∀ r ∈ p.readings, IsU64 r.voltage_mv ∧ IsU64 r.current_ma ∧ IsU64 r.timestamp_ms

namespace Edge
variable {p : CanonicalPayload} {perm : Poseidon.Permutation}

theorem packU64_eq_ok {v : Int} {bs : Bytes} : packU64 v = .ok bs ↔ IsU64 v ∧ toBE 8 (wrap64 v) = bs := by
  unfold packU64 IsU64
  split
  · next h =>
    have hw : wrap64 v = v.toNat := by unfold wrap64; omega
    rw [hw, Except.ok.injEq]
    exact ⟨fun hb => ⟨h, hb⟩, fun hb => hb.2⟩
  · next h => exact ⟨fun hb => (by cases hb), fun hb => absurd hb.1 h⟩

theorem packI64_eq_ok {v : Int} {bs : Bytes} : packI64 v = .ok bs ↔ IsI64 v ∧ toBE 8 (wrap64 v) = bs := by
  unfold packI64 IsI64
  split
  · next h =>
    rw [Except.ok.injEq]
    exact ⟨fun hb => ⟨h, hb⟩, fun hb => hb.2⟩
  · next h => exact ⟨fun hb => (by cases hb), fun hb => absurd hb.1 h⟩

theorem foldlM_packReading_eq_ok {rs : List Reading} {out bs : Bytes} :
    rs.foldlM packReading out = .ok bs ↔
      (∀ r ∈ rs, IsU64 r.voltage_mv ∧ IsU64 r.current_ma ∧ IsU64 r.timestamp_ms) ∧
        out ++ encodeWords (rs.flatMap Reading.ints) = bs := by
  induction rs generalizing out with
  | nil => simp [pure_eq_ok, encodeWords]
  | cons r rs ih =>
    rw [List.foldlM_cons, bind_eq_ok]
    simp only [packReading, bind_eq_ok, packU64_eq_ok, pure_eq_ok, ih, List.forall_mem_cons, List.flatMap_cons,
      encodeWords_append]
    have hr : encodeWords r.ints =
        toBE 8 (wrap64 r.voltage_mv) ++ (toBE 8 (wrap64 r.current_ma) ++ toBE 8 (wrap64 r.timestamp_ms)) := by
      simp [encodeWords, Reading.ints]
    rw [hr]
    constructor
    · rintro ⟨_, ⟨_, ⟨hv, rfl⟩, _, ⟨hc, rfl⟩, _, ⟨ht, rfl⟩, rfl⟩, hrs, rfl⟩
      exact ⟨⟨⟨hv, hc, ht⟩, hrs⟩, by simp only [List.append_assoc]⟩
    · rintro ⟨⟨⟨hv, hc, ht⟩, hrs⟩, rfl⟩
      exact ⟨_, ⟨_, ⟨hv, rfl⟩, _, ⟨hc, rfl⟩, _, ⟨ht, rfl⟩, rfl⟩, hrs, by simp only [List.append_assoc]⟩

/-- The edge serializes exactly the encodable payloads, to the common bytes. -/
theorem canonicalize_eq_ok {bs : Bytes} : canonicalize p = .ok bs ↔ Encodable p ∧ p.bytes = bs := by
  have hbytes : toBE 8 (wrap64 p.device_id) ++ toBE 8 (wrap64 p.session_id) ++ toBE 8 (wrap64 p.epoch_start_ts) ++
      toBE 8 (wrap64 p.lat_e7) ++ toBE 8 (wrap64 p.lon_e7) ++ toBE 8 (wrap64 p.light_level) ++
      toBE 8 (wrap64 p.tamper_flag) ++ encodeWords (p.readings.flatMap Reading.ints) = p.bytes := by
    rw [CanonicalPayload.bytes, encodeWords_append, CanonicalPayload.encodeWords_metadata]
  unfold canonicalize
  simp only [bind_eq_ok, exists_punit, revertIf_eq_ok, packU64_eq_ok, packI64_eq_ok,
    foldlM_packReading_eq_ok, pure_eq_ok, not_not]
  constructor
  · rintro ⟨hn, _, ⟨h1, rfl⟩, _, ⟨h2, rfl⟩, _, ⟨h3, rfl⟩, _, ⟨h4, rfl⟩, _, ⟨h5, rfl⟩, _, ⟨h6, rfl⟩, _,
      ⟨h7, rfl⟩, _, ⟨hr, rfl⟩, -, rfl⟩
    exact ⟨⟨hn, h1, h2, h3, h4, h5, h6, h7, hr⟩, hbytes.symm⟩
  · rintro ⟨h, rfl⟩
    exact ⟨h.readings, _, ⟨h.device_id, rfl⟩, _, ⟨h.session_id, rfl⟩, _, ⟨h.epoch_start_ts, rfl⟩, _,
      ⟨h.lat_e7, rfl⟩, _, ⟨h.lon_e7, rfl⟩, _, ⟨h.light_level, rfl⟩, _, ⟨h.tamper_flag, rfl⟩, _,
      ⟨h.reading, hbytes⟩, CanonicalPayload.length_bytes h.readings, rfl⟩

theorem computePayloadHash_eq_ok {bs : Bytes} :
    computePayloadHash perm p = .ok bs ↔ Encodable p ∧ toBE 32 (Poseidon.poseidonSponge perm p.words) = bs := by
  have hlt : Poseidon.poseidonSponge perm p.words < 256 ^ 32 :=
    Aggregator.lt_pow_of_lt_P (Poseidon.poseidonSponge_lt _)
  unfold computePayloadHash
  simp only [bind_eq_ok, canonicalize_eq_ok]
  constructor
  · rintro ⟨_, ⟨h, rfl⟩, hb⟩
    rw [p.wordsBE_bytes, Poseidon.edgePoseidonSponge_eq, toBytes32, if_pos hlt, Except.ok.injEq] at hb
    exact ⟨h, hb⟩
  · rintro ⟨h, rfl⟩
    refine ⟨_, ⟨h, rfl⟩, ?_⟩
    rw [p.wordsBE_bytes, Poseidon.edgePoseidonSponge_eq, toBytes32, if_pos hlt]

/-- The aggregator hashes every payload the edge hashes, to the same 32 bytes. -/
theorem computePayloadHash_aggregator {bs : Bytes} (h : computePayloadHash perm p = .ok bs) :
    Aggregator.computePayloadHash perm p = .ok bs := by
  obtain ⟨he, rfl⟩ := computePayloadHash_eq_ok.1 h
  exact Aggregator.computePayloadHash_of_length he.readings

end Edge

end InfraVeritas
