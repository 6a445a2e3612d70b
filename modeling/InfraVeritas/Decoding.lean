import InfraVeritas.Canonical
import InfraVeritas.Lib.ByteView

/-!
# Decoding the canonical format

The canonical bytes are a fixed layout of 307 words, and a decoder recovers the payload from the bytes or from the
field elements: `decode_eq_some_iff` and `decodeElements_eq_some_iff`. `canonicalizeView` is the aggregator's
serialization as it is written, into a buffer with a moving offset.
-/

namespace InfraVeritas
open BigEndian Checks

/-! ### The serialization with its offsets -/

namespace Aggregator
open ByteView

def outOfBounds : String := "Offset is outside the bounds of the DataView"

def putReading (st : Bytes × Nat) (r : Reading) : Except String (Bytes × Nat) := do
  let st ← put outOfBounds st (setBigUint64 r.voltage_mv)
  let st ← put outOfBounds st (setBigUint64 r.current_ma)
  put outOfBounds st (setBigUint64 r.timestamp_ms)

/-- `canonicalize` over its `DataView`. -/
def canonicalizeView (payload : CanonicalPayload) : Except String Bytes := do
  let n := payload.readings.length
  revertIf (n ≠ READINGS_PER_PAYLOAD) s!"Expected {READINGS_PER_PAYLOAD} readings, got {n}"
  let st := (List.replicate EXPECTED_PAYLOAD_BYTES 0, 0)
  let st ← put outOfBounds st (setBigUint64 payload.device_id)
  let st ← put outOfBounds st (setBigUint64 payload.session_id)
  let st ← put outOfBounds st (setBigUint64 payload.epoch_start_ts)
  let st ← put outOfBounds st (setBigInt64 payload.lat_e7)
  let st ← put outOfBounds st (setBigInt64 payload.lon_e7)
  let st ← put outOfBounds st (setBigUint64 payload.light_level)
  let st ← put outOfBounds st (setBigUint64 payload.tamper_flag)
  let (buf, offset) ← payload.readings.foldlM putReading st
  revertIf (offset ≠ EXPECTED_PAYLOAD_BYTES)
    s!"Canonical encoding wrong size: {offset} != {EXPECTED_PAYLOAD_BYTES}"
  return buf

def chunks (p : CanonicalPayload) : List Bytes := (p.metadata ++ p.readings.flatMap Reading.ints).map setBigUint64

theorem flatten_chunks (p : CanonicalPayload) : (chunks p).flatten = p.bytes := by
  rw [CanonicalPayload.bytes, encodeWords, List.flatMap_map, chunks, List.flatMap_def]
  rfl

theorem foldlM_chunks (p : CanonicalPayload) (st : Bytes × Nat) :
    (chunks p).foldlM (put outOfBounds) st =
      (p.metadata.map setBigUint64).foldlM (put outOfBounds) st >>= p.readings.foldlM putReading := by
  have hreading : putReading = fun st r => (r.ints.map setBigUint64).foldlM (put outOfBounds) st := by
    funext st r
    simp only [putReading, Reading.ints, List.map_cons, List.map_nil, List.foldlM_cons, List.foldlM_nil, bind_pure]
  rw [chunks, List.map_append, List.map_flatMap, List.foldlM_append, hreading]
  exact congrArg _ (funext fun st => (foldlM_flatMap ..).symm)

theorem canonicalizeView_of_length {p : CanonicalPayload} (h : p.readings.length = 100) :
    canonicalizeView p = .ok p.bytes := by
  have hput := @foldlM_put_full String outOfBounds (chunks p) (List.replicate EXPECTED_PAYLOAD_BYTES 0)
    (by rw [flatten_chunks, CanonicalPayload.length_bytes h, List.length_replicate]; rfl)
  rw [foldlM_chunks, flatten_chunks, List.length_replicate, bind_eq_ok] at hput
  obtain ⟨st, hmeta, hloop⟩ := hput
  simp only [CanonicalPayload.metadata, List.map_cons, List.map_nil, List.foldlM_cons, List.foldlM_nil, bind_pure,
    bind_eq_ok] at hmeta
  obtain ⟨st₁, h₁, st₂, h₂, st₃, h₃, st₄, h₄, st₅, h₅, st₆, h₆, h₇⟩ := hmeta
  unfold canonicalizeView
  simp only [bind_eq_ok, exists_punit, revertIf_eq_ok, pure_eq_ok, not_not]
  exact ⟨h, st₁, h₁, st₂, h₂, st₃, h₃, st₄, h₄, st₅, h₅, st₆, h₆, st, h₇, _, hloop, rfl, rfl⟩

end Aggregator

/-! ### The decoder -/

def unwrap64 (w : Nat) : Int := if w < 2 ^ 63 then w else w - 2 ^ 64

def decodeReadings : List Nat → Option (List Reading)
  | [] => some []
  | voltage :: current :: timestamp :: ws => (decodeReadings ws).map (⟨voltage, current, timestamp⟩ :: ·)
  | _ => none

def decodeElements : List Nat → Option CanonicalPayload
  | device_id :: session_id :: epoch_start_ts :: lat_e7 :: lon_e7 :: light_level :: tamper_flag :: ws =>
    match decodeReadings ws with
    | some readings =>
      if readings.length = READINGS_PER_PAYLOAD then
        some ⟨device_id, session_id, epoch_start_ts, unwrap64 lat_e7, unwrap64 lon_e7, light_level, tamper_flag, readings⟩
      else none
    | none => none
  | _ => none

def decode (bs : Bytes) : Option CanonicalPayload :=
  if bs.length = EXPECTED_PAYLOAD_BYTES then decodeElements (wordsBE 8 bs) else none

variable {p : CanonicalPayload} {ws : List Nat} {rs : List Reading} {bs : Bytes}

theorem wrap64_natCast {w : Nat} (h : w < 2 ^ 64) : wrap64 w = w := by
  unfold wrap64
  omega

theorem isU64_natCast {w : Nat} (h : w < 2 ^ 64) : IsU64 w := ⟨Int.natCast_nonneg w, by omega⟩

theorem wrap64_unwrap64 {w : Nat} (h : w < 2 ^ 64) : wrap64 (unwrap64 w) = w := by
  unfold wrap64 unwrap64
  split <;> omega

theorem isI64_unwrap64 {w : Nat} (h : w < 2 ^ 64) : IsI64 (unwrap64 w) := by
  unfold IsI64 unwrap64
  split <;> omega

theorem unwrap64_wrap64 {v : Int} (h : IsI64 v) : unwrap64 (wrap64 v) = v := by
  obtain ⟨hlo, hhi⟩ := h
  unfold wrap64 unwrap64
  split <;> omega

theorem words_cons (r : Reading) (rs : List Reading) : ((r :: rs).flatMap Reading.ints).map wrap64 =
    wrap64 r.voltage_mv :: wrap64 r.current_ma :: wrap64 r.timestamp_ms :: (rs.flatMap Reading.ints).map wrap64 := rfl

theorem CanonicalPayload.words_eq (p : CanonicalPayload) : p.words =
    wrap64 p.device_id :: wrap64 p.session_id :: wrap64 p.epoch_start_ts :: wrap64 p.lat_e7 :: wrap64 p.lon_e7 ::
      wrap64 p.light_level :: wrap64 p.tamper_flag :: (p.readings.flatMap Reading.ints).map wrap64 := rfl

/-! #### Encoding, then decoding -/

theorem decodeReadings_words (h : ∀ r ∈ rs, IsU64 r.voltage_mv ∧ IsU64 r.current_ma ∧ IsU64 r.timestamp_ms) :
    decodeReadings ((rs.flatMap Reading.ints).map wrap64) = some rs := by
  induction rs with
  | nil => rfl
  | cons r rs ih =>
    obtain ⟨⟨hv, hc, ht⟩, hrs⟩ := List.forall_mem_cons.1 h
    rw [words_cons, decodeReadings, ih hrs, wrap64_of_nonneg hv.1 hv.2, wrap64_of_nonneg hc.1 hc.2, wrap64_of_nonneg ht.1 ht.2]
    rfl

theorem decodeElements_words (h : Encodable p) : decodeElements p.words = some p := by
  have hn : p.readings.length = READINGS_PER_PAYLOAD := h.readings
  rw [p.words_eq, decodeElements, decodeReadings_words h.reading]
  dsimp only
  rw [if_pos hn, wrap64_of_nonneg h.device_id.1 h.device_id.2, wrap64_of_nonneg h.session_id.1 h.session_id.2,
    wrap64_of_nonneg h.epoch_start_ts.1 h.epoch_start_ts.2, unwrap64_wrap64 h.lat_e7, unwrap64_wrap64 h.lon_e7,
    wrap64_of_nonneg h.light_level.1 h.light_level.2, wrap64_of_nonneg h.tamper_flag.1 h.tamper_flag.2]

/-! #### Decoding, then encoding -/

theorem words_of_decodeReadings (hw : ∀ w ∈ ws, w < 2 ^ 64) (h : decodeReadings ws = some rs) :
    (∀ r ∈ rs, IsU64 r.voltage_mv ∧ IsU64 r.current_ma ∧ IsU64 r.timestamp_ms) ∧
      (rs.flatMap Reading.ints).map wrap64 = ws := by
  induction ws using decodeReadings.induct generalizing rs with
  | case1 =>
    obtain rfl := Option.some.inj h
    exact ⟨fun r hr => absurd hr List.not_mem_nil, rfl⟩
  | case2 voltage current timestamp ws ih =>
    obtain ⟨rs', hrs', rfl⟩ := Option.map_eq_some_iff.1 h
    simp only [List.forall_mem_cons] at hw
    obtain ⟨hv, hc, ht, hws⟩ := hw
    obtain ⟨hu, hwords⟩ := ih hws hrs'
    refine ⟨List.forall_mem_cons.2 ⟨⟨isU64_natCast hv, isU64_natCast hc, isU64_natCast ht⟩, hu⟩, ?_⟩
    rw [words_cons, hwords, wrap64_natCast hv, wrap64_natCast hc, wrap64_natCast ht]
  | case3 ws h₁ h₂ =>
    rw [decodeReadings] at h
    · cases h
    · exact h₁
    · exact h₂

theorem words_of_decodeElements (hw : ∀ w ∈ ws, w < 2 ^ 64) (h : decodeElements ws = some p) :
    Encodable p ∧ p.words = ws := by
  unfold decodeElements at h
  split at h
  · next d s e lat lon l f ws' =>
    split at h
    · next rs hrs =>
      split at h
      · next hlen =>
        obtain rfl := Option.some.inj h
        simp only [List.forall_mem_cons] at hw
        obtain ⟨hd, hs, he, hlat, hlon, hl, hf, hws⟩ := hw
        obtain ⟨hu, hwords⟩ := words_of_decodeReadings hws hrs
        refine ⟨⟨hlen, isU64_natCast hd, isU64_natCast hs, isU64_natCast he, isI64_unwrap64 hlat, isI64_unwrap64 hlon,
          isU64_natCast hl, isU64_natCast hf, hu⟩, ?_⟩
        rw [CanonicalPayload.words_eq, hwords, wrap64_natCast hd, wrap64_natCast hs, wrap64_natCast he,
          wrap64_unwrap64 hlat, wrap64_unwrap64 hlon, wrap64_natCast hl, wrap64_natCast hf]
      · cases h
    · cases h
  · cases h

theorem decodeElements_eq_some_iff (hw : ∀ w ∈ ws, w < 2 ^ 64) :
    decodeElements ws = some p ↔ Encodable p ∧ p.words = ws :=
  ⟨words_of_decodeElements hw, fun ⟨he, h⟩ => h ▸ decodeElements_words he⟩

/-- The decoder accepts exactly the canonical bytes of the payloads that the edge can serialize. -/
theorem decode_eq_some_iff : decode bs = some p ↔ Edge.canonicalize p = .ok bs := by
  rw [Edge.canonicalize_eq_ok, decode]
  constructor
  · intro h
    split at h
    · next hlen =>
      obtain ⟨he, hwords⟩ := (decodeElements_eq_some_iff fun w => wordsBE_lt).1 h
      refine ⟨he, ?_⟩
      rw [CanonicalPayload.bytes, encodeWords, ← CanonicalPayload.words, hwords]
      exact flatMap_toBE_wordsBE (n := 307) (by decide) hlen
    · cases h
  · rintro ⟨he, rfl⟩
    have hlen : p.bytes.length = EXPECTED_PAYLOAD_BYTES := CanonicalPayload.length_bytes he.readings
    rw [if_pos hlen, CanonicalPayload.wordsBE_bytes, decodeElements_words he]

theorem decodeReadings_of_length {n : Nat} (h : ws.length = 3 * n) : ∃ rs, decodeReadings ws = some rs ∧ rs.length = n := by
  induction n generalizing ws with
  | zero =>
    obtain rfl := List.length_eq_zero_iff.1 h
    exact ⟨[], rfl, rfl⟩
  | succ n ih =>
    match ws with
    | voltage :: current :: timestamp :: ws =>
      obtain ⟨rs, hrs, hn⟩ := @ih ws (by simp only [List.length_cons] at h; omega)
      exact ⟨⟨voltage, current, timestamp⟩ :: rs, by rw [decodeReadings, hrs]; rfl, by rw [List.length_cons, hn]⟩
    | [] | [_] | [_, _] => simp only [List.length_cons, List.length_nil] at h; omega

theorem exists_decodeElements (h : ws.length = 307) : ∃ p, decodeElements ws = some p := by
  match ws with
  | d :: s :: e :: lat :: lon :: l :: f :: ws =>
    simp only [List.length_cons] at h
    obtain ⟨rs, hrs, hn⟩ := @decodeReadings_of_length ws 100 (by omega)
    have hn' : rs.length = READINGS_PER_PAYLOAD := hn
    rw [decodeElements, hrs]
    dsimp only
    rw [if_pos hn']
    exact ⟨_, rfl⟩
  | [] | [_] | [_, _] | [_, _, _] | [_, _, _, _] | [_, _, _, _, _] | [_, _, _, _, _, _] => cases h

/-- Every 2456-byte string is the canonical form of a payload. -/
theorem exists_decode (h : bs.length = 2456) : ∃ p, decode bs = some p := by
  have hlen : bs.length = EXPECTED_PAYLOAD_BYTES := h
  rw [decode, if_pos hlen]
  exact exists_decodeElements (by rw [length_wordsBE, h])

/-! ### The format in both languages -/

/-- The list comprehension of the edge's `compute_payload_hash`: `range(0, len, 8)` and its slices. -/
def Edge.fieldElements (canonical_bytes : Bytes) : List Nat :=
  (List.range ((canonical_bytes.length + 7) / 8)).map fun i => ofBE ((canonical_bytes.drop (8 * i)).take 8)

theorem Edge.fieldElements_bytes (h : p.readings.length = 100) : Edge.fieldElements p.bytes = p.words := by
  have hlen : (p.bytes.length + 7) / 8 = p.bytes.length / 8 := by rw [CanonicalPayload.length_bytes h]
  rw [Edge.fieldElements, hlen, ← CanonicalPayload.wordsBE_bytes, wordsBE]

/-- The fields of a payload, in order, as they stand among the field elements. -/
def CanonicalPayload.elements (p : CanonicalPayload) : List Int :=
  [p.device_id, p.session_id, p.epoch_start_ts, p.lat_e7 % 2 ^ 64, p.lon_e7 % 2 ^ 64, p.light_level, p.tamper_flag] ++
    p.readings.flatMap fun r => [r.voltage_mv, r.current_ma, r.timestamp_ms]

theorem natCast_wrap64 (v : Int) : (wrap64 v : Int) = v % 2 ^ 64 := by
  unfold wrap64
  omega

theorem map_words (h : Encodable p) : p.words.map (Nat.cast : Nat → Int) = p.elements := by
  have hreadings : ((p.readings.flatMap Reading.ints).map wrap64).map (Nat.cast : Nat → Int) =
      p.readings.flatMap fun r => [r.voltage_mv, r.current_ma, r.timestamp_ms] := by
    rw [List.map_map, List.map_flatMap]
    refine List.flatMap_congr ?_
    intro r hr
    obtain ⟨hv, hc, ht⟩ := h.reading r hr
    simp only [Reading.ints, List.map_cons, List.map_nil, Function.comp_apply, wrap64_of_nonneg hv.1 hv.2,
      wrap64_of_nonneg hc.1 hc.2, wrap64_of_nonneg ht.1 ht.2]
  rw [p.words_eq]
  simp only [List.map_cons, hreadings, CanonicalPayload.elements]
  rw [wrap64_of_nonneg h.device_id.1 h.device_id.2, wrap64_of_nonneg h.session_id.1 h.session_id.2,
    wrap64_of_nonneg h.epoch_start_ts.1 h.epoch_start_ts.2, natCast_wrap64, natCast_wrap64,
    wrap64_of_nonneg h.light_level.1 h.light_level.2, wrap64_of_nonneg h.tamper_flag.1 h.tamper_flag.2]
  rfl

/-- Both languages write the same 2456 bytes and cut them into the same 307 words below `2^64`, which are the fields
in order; the payload is decoded from either, so no other payload shares them. -/
theorem canonical_format (h : Encodable p) :
    ∃ bytes elements, Aggregator.canonicalizeView p = .ok bytes ∧ Aggregator.canonicalize p = .ok bytes ∧
      Edge.canonicalize p = .ok bytes ∧ bytes.length = 2456 ∧
      Aggregator.bytesToFieldElements bytes = .ok elements ∧ Edge.fieldElements bytes = elements ∧
      elements.length = 307 ∧ (∀ e ∈ elements, e < 2 ^ 64) ∧ elements.map (Nat.cast : Nat → Int) = p.elements ∧
      decode bytes = some p ∧ decodeElements elements = some p ∧
      ∀ p', Encodable p' → Edge.canonicalize p' = .ok bytes ∨ p'.words = elements → p' = p := by
  have hdecode : decode p.bytes = some p := decode_eq_some_iff.2 (Edge.canonicalize_eq_ok.2 ⟨h, rfl⟩)
  refine ⟨p.bytes, p.words, Aggregator.canonicalizeView_of_length h.readings, Aggregator.canonicalize_of_length h.readings,
    Edge.canonicalize_eq_ok.2 ⟨h, rfl⟩, CanonicalPayload.length_bytes h.readings,
    Aggregator.bytesToFieldElements_bytes h.readings, Edge.fieldElements_bytes h.readings,
    CanonicalPayload.length_words h.readings, fun e => CanonicalPayload.words_lt, map_words h, hdecode,
    decodeElements_words h, ?_⟩
  rintro p' hp' (hbytes | hwords)
  · rw [decode_eq_some_iff.2 hbytes, Option.some.injEq] at hdecode
    exact hdecode
  · have hwords' := decodeElements_words hp'
    rw [hwords, decodeElements_words h, Option.some.injEq] at hwords'
    exact hwords'.symm

namespace CanonicalPayload.SamplePayload

def southWest : CanonicalPayload :=
  ⟨7, 1, 100, -900000000, -1800000000, 2 ^ 64 - 1, 1, List.replicate 100 ⟨2 ^ 64 - 1, 0, 1⟩⟩

theorem encodable_southWest : Encodable southWest where
  readings := List.length_replicate ..
  device_id := by decide
  session_id := by decide
  epoch_start_ts := by decide
  lat_e7 := by decide
  lon_e7 := by decide
  light_level := by decide
  tamper_flag := by decide
  reading := by
    intro r hr
    rw [(List.mem_replicate.1 hr).2]
    decide

end CanonicalPayload.SamplePayload

open CanonicalPayload.SamplePayload in
theorem canonical_format_southWest :
    ∃ bytes, Aggregator.canonicalizeView southWest = .ok bytes ∧ bytes.length = 2456 ∧ decode bytes = some southWest := by
  obtain ⟨bytes, -, hview, -, -, hlen, -, -, -, -, -, hdecode, -⟩ := canonical_format encodable_southWest
  exact ⟨bytes, hview, hlen, hdecode⟩

end InfraVeritas
