import InfraVeritas.Api
import InfraVeritas.Decoding

/-!
# `AggregatorClient`

What `submit` of the edge's HTTP client posts: `_encode_request` writes every integer with `str` and every byte
string with `hex`. The server's schema accepts the body and reads back what was written.
-/

namespace InfraVeritas
open Checks

namespace Edge

/-- `str(v)` of an integer. -/
def str : Int → String
  | .ofNat n => String.ofList (Nat.toDigits 10 n)
  | .negSucc n => String.ofList ('-' :: Nat.toDigits 10 (n + 1))

/-- `bytes.hex()`. -/
def hex (bs : Bytes) : String := String.ofList (Hex.bytesToHex bs)

def encodeReading (r : Reading) : ReadingRequest := ⟨str r.voltage_mv, str r.current_ma, str r.timestamp_ms⟩

/-- `_encode_request`. -/
def encodeRequest (payload : CanonicalPayload) (signature public_key : Bytes) : Except PyError SubmissionRequest := do
  let n := signature.length
  revertIf (n ≠ 64) (.valueError s!"Expected 64-byte signature, got {n}")
  let n := public_key.length
  revertIf (n ≠ 64) (.valueError s!"Expected 64-byte public_key, got {n}")
  return {
    payload := {
      device_id := str payload.device_id
      session_id := str payload.session_id
      epoch_start_ts := str payload.epoch_start_ts
      lat_e7 := str payload.lat_e7
      lon_e7 := str payload.lon_e7
      light_level := str payload.light_level
      tamper_flag := str payload.tamper_flag
      readings := payload.readings.map encodeReading }
    signature := hex signature
    public_key := hex public_key }

structure Signer where
  sign : Bytes → Except PyError Bytes
  public_key : Bytes

/-- `submit` up to its POST. -/
def submitBody (perm : Poseidon.Permutation) (signer : Signer) (payload : CanonicalPayload) :
    Except PyError SubmissionRequest := do
  let payload_hash ← computePayloadHash perm payload
  let signature ← signer.sign payload_hash
  encodeRequest payload signature signer.public_key

end Edge

namespace Server
open Edge (str hex encodeReading encodeRequest)

/-! ### Integers -/

theorem isDigit_toDigits (n : Nat) : (Nat.toDigits 10 n).all Char.isDigit = true :=
  List.all_eq_true.2 fun _ hc => Nat.isDigit_of_mem_toDigits (by decide) (by decide) hc

theorem toDigits_ne_minus {n : Nat} {cs : List Char} (h : Nat.toDigits 10 n = '-' :: cs) : False := by
  have hd := isDigit_toDigits n
  rw [h, List.all_cons, Bool.and_eq_true] at hd
  exact absurd hd.1 (by decide)

@[simp] theorem bigInt_str (v : Int) : bigInt (str v) = v := by
  cases v with
  | ofNat n =>
    rw [str, bigInt, String.toList_ofList]
    split
    · next cs hcs => exact (toDigits_ne_minus hcs).elim
    · rw [Nat.ofDigitChars_ten_toDigits]
      rfl
  | negSucc n =>
    rw [str, bigInt, String.toList_ofList]
    show -(Nat.ofDigitChars 10 (Nat.toDigits 10 (n + 1)) 0 : Int) = _
    rw [Nat.ofDigitChars_ten_toDigits]
    rfl

theorem isDecimal_toDigits (n : Nat) : (!(Nat.toDigits 10 n).isEmpty && (Nat.toDigits 10 n).all Char.isDigit) = true := by
  rw [isDigit_toDigits, Bool.and_true, Bool.not_eq_true', List.isEmpty_eq_false_iff]
  exact Nat.toDigits_ne_nil

theorem isDecimal_str {v : Int} (h : 0 ≤ v) : isDecimal (str v) = true := by
  cases v with
  | ofNat n =>
    rw [str, isDecimal, String.toList_ofList]
    exact isDecimal_toDigits n
  | negSucc n => omega

theorem isSignedDecimal_str (v : Int) : isSignedDecimal (str v) = true := by
  cases v with
  | ofNat n =>
    rw [str, isSignedDecimal, String.toList_ofList]
    split
    · next cs hcs => exact (toDigits_ne_minus hcs).elim
    · exact isDecimal_toDigits n
  | negSucc n =>
    rw [str, isSignedDecimal, String.toList_ofList]
    exact isDecimal_toDigits (n + 1)

theorem u64String_str {v : Int} (h : IsU64 v) : u64String (str v) = true := by
  have hmax : U64_MAX = 2 ^ 64 - 1 := rfl
  rw [u64String, isDecimal_str h.1, bigInt_str, Bool.true_and, decide_eq_true_iff]
  have hlt := h.2
  omega

theorem i64String_str {v : Int} (h : IsI64 v) : i64String (str v) = true := by
  have hmin : I64_MIN = -2 ^ 63 := rfl
  have hmax : I64_MAX = 2 ^ 63 - 1 := rfl
  rw [i64String, isSignedDecimal_str, bigInt_str, Bool.true_and, decide_eq_true_iff]
  obtain ⟨hlo, hhi⟩ := h
  constructor <;> omega

theorem tamperFlagSchema_str {v : Int} (h : v = 0 ∨ v = 1) : tamperFlagSchema (str v) = true := by
  rcases h with rfl | rfl <;> decide

/-! ### Bytes -/

theorem hexToBytes_hex (bs : Bytes) : hexToBytes (hex bs) = bs := by
  rw [hexToBytes, hex, String.toList_ofList, Hex.hexToBytes_bytesToHex]

theorem hex128_hex {bs : Bytes} (h : bs.length = 64) : hex128 (hex bs) = true := by
  rw [hex128, hex, String.toList_ofList, Hex.length_bytesToHex, h, Hex.isHexDigit_bytesToHex]
  rfl

/-! ### The request -/

theorem exists_toNat {v : Int} (h : IsU64 v) : ∃ x : U64, (x.toNat : ℤ) = v := by
  refine ⟨BitVec.ofInt 64 v, ?_⟩
  rw [BitVec.toNat_ofInt]
  have h0 := h.1
  have hlt := h.2
  omega

variable {p : CanonicalPayload} {signature public_key : Bytes}

def wireRequest (p : CanonicalPayload) (signature public_key : Bytes) : SubmissionRequest :=
  ⟨⟨str p.device_id, str p.session_id, str p.epoch_start_ts, str p.lat_e7, str p.lon_e7, str p.light_level,
    str p.tamper_flag, p.readings.map encodeReading⟩, hex signature, hex public_key⟩

theorem encodeRequest_of_length (hs : signature.length = 64) (hk : public_key.length = 64) :
    encodeRequest p signature public_key = .ok (wireRequest p signature public_key) := by
  rw [encodeRequest]
  dsimp only
  rw [revertIf_of_not (not_not.2 hs), revertIf_of_not (not_not.2 hk)]
  rfl

theorem parseReading_encodeReading (r : Reading) : parseReading (encodeReading r) = r := by
  simp only [parseReading, encodeReading, bigInt_str]

theorem parsePayload_wireRequest : parsePayload (wireRequest p signature public_key) = p := by
  have hid : parseReading ∘ encodeReading = id := funext parseReading_encodeReading
  simp only [parsePayload, wireRequest, bigInt_str, List.map_map, hid, List.map_id]

theorem readingSchema_encodeReading {r : Reading} (h : IsU64 r.voltage_mv ∧ IsU64 r.current_ma ∧ IsU64 r.timestamp_ms) :
    readingSchema (encodeReading r) = true := by
  rw [readingSchema, encodeReading, u64String_str h.1, u64String_str h.2.1, u64String_str h.2.2]
  rfl

theorem payloadSchema_wireRequest (h : Validated p) : payloadSchema (wireRequest p signature public_key).payload = true := by
  have hlat : latE7Schema (str p.lat_e7) = true := by
    rw [latE7Schema, i64String_str h.encodable.lat_e7, bigInt_str, Bool.true_and, decide_eq_true_iff]
    exact h.lat_e7
  have hlon : lonE7Schema (str p.lon_e7) = true := by
    rw [lonE7Schema, i64String_str h.encodable.lon_e7, bigInt_str, Bool.true_and, decide_eq_true_iff]
    exact h.lon_e7
  have hall : (p.readings.map encodeReading).all readingSchema = true := by
    rw [List.all_map, List.all_eq_true]
    exact fun r hr => readingSchema_encodeReading (h.encodable.reading r hr)
  have hn : (p.readings.map encodeReading).length = 100 := by
    rw [List.length_map, h.encodable.readings]
  simp only [payloadSchema, wireRequest, u64String_str h.encodable.device_id, u64String_str h.encodable.session_id,
    u64String_str h.encodable.epoch_start_ts, hlat, hlon, u64String_str h.encodable.light_level,
    tamperFlagSchema_str h.tamper_flag, hall, hn, Bool.and_self, decide_true]

theorem submissionSchema_wireRequest (h : Validated p) (hs : signature.length = 64) (hk : public_key.length = 64) :
    submissionSchema (wireRequest p signature public_key) = true := by
  rw [submissionSchema, payloadSchema_wireRequest h, wireRequest, hex128_hex hs, hex128_hex hk]
  rfl

/-- The signature a request carries is over the hash that the server computes. -/
theorem signed_of_submitBody {perm : Poseidon.Permutation} {signer : Edge.Signer} {req : SubmissionRequest}
    (h : Edge.submitBody perm signer p = .ok req) : ∃ hash signature, Aggregator.computePayloadHash perm (parsePayload req) =
      .ok hash ∧ signer.sign hash = .ok signature ∧ hexToBytes req.signature = signature ∧
        hexToBytes req.public_key = signer.public_key := by
  simp only [Edge.submitBody, bind_eq_ok] at h
  obtain ⟨hash, hp, signature, hs, h⟩ := h
  have hlen : signature.length = 64 ∧ signer.public_key.length = 64 := by
    simp only [encodeRequest, bind_eq_ok, exists_punit, revertIf_eq_ok, not_not] at h
    exact ⟨h.1, h.2.1⟩
  rw [encodeRequest_of_length hlen.1 hlen.2, Except.ok.injEq] at h
  subst h
  refine ⟨hash, signature, ?_, hs, hexToBytes_hex _, hexToBytes_hex _⟩
  rw [parsePayload_wireRequest]
  exact Edge.computePayloadHash_aggregator hp

theorem ofList_0x (cs : List Char) : String.ofList ('0' :: 'x' :: cs) = "0x" ++ String.ofList cs := by
  rw [← String.toList_inj, String.toList_append, String.toList_ofList, String.toList_ofList, String.toList_ofList]
  rfl

theorem computeSessionKey_eq_hex {keccak : Bytes → Bytes32} (d n : U64) :
    computeSessionKey keccak d.toNat n.toNat = "0x" ++ hex (wordBytes (keccak (encodePackedU64 d n))) := by
  rw [computeSessionKey_toNat, V3.sessionKey, hex, ofList_0x]

/-- A payload that the edge serializes, with coordinates on the globe and a flag of 0 or 1, signed and sent: the
server accepts the request, reads back the payload, the signature and the key, computes the bytes and the hash that
the edge signed, and names the job by V3's session key. -/
theorem wire_roundTrip {bytes : Bytes} (hc : Edge.canonicalize p = .ok bytes)
    (hlat : -900000000 ≤ p.lat_e7 ∧ p.lat_e7 ≤ 900000000) (hlon : -1800000000 ≤ p.lon_e7 ∧ p.lon_e7 ≤ 1800000000)
    (ht : p.tamper_flag = 0 ∨ p.tamper_flag = 1) (hs : signature.length = 64) (hk : public_key.length = 64) :
    ∃ req, encodeRequest p signature public_key = .ok req ∧ submissionSchema req = true ∧ parsePayload req = p ∧
      hexToBytes req.signature = signature ∧ hexToBytes req.public_key = public_key ∧
      Aggregator.canonicalize (parsePayload req) = .ok bytes ∧
      (∀ perm, ∃ hash, Edge.computePayloadHash perm p = .ok hash ∧
        Aggregator.computePayloadHash perm (parsePayload req) = .ok hash) ∧
      ∃ d n : U64, (d.toNat : ℤ) = p.device_id ∧ (n.toNat : ℤ) = p.session_id ∧
        ∀ keccak, (submissionJob keccak req).sessionKey = "0x" ++ hex (wordBytes (keccak (encodePackedU64 d n))) := by
  obtain ⟨he, rfl⟩ := Edge.canonicalize_eq_ok.1 hc
  have hparse : parsePayload (wireRequest p signature public_key) = p := parsePayload_wireRequest
  refine ⟨wireRequest p signature public_key, encodeRequest_of_length hs hk,
    submissionSchema_wireRequest ⟨he, hlat, hlon, ht⟩ hs hk, hparse, hexToBytes_hex _, hexToBytes_hex _, ?_, ?_, ?_⟩
  · rw [hparse]
    exact Aggregator.canonicalize_of_length he.readings
  · intro perm
    rw [hparse]
    exact ⟨_, Edge.computePayloadHash_eq_ok.2 ⟨he, rfl⟩, Aggregator.computePayloadHash_of_length he.readings⟩
  · obtain ⟨d, hd⟩ := exists_toNat he.device_id
    obtain ⟨n, hn⟩ := exists_toNat he.session_id
    refine ⟨d, n, hd, hn, ?_⟩
    intro keccak
    show computeSessionKey keccak (parsePayload _).device_id (parsePayload _).session_id = _
    rw [hparse, ← hd, ← hn]
    exact computeSessionKey_eq_hex d n

open CanonicalPayload.SamplePayload in
theorem wire_roundTrip_southWest :
    ∃ req, encodeRequest southWest (List.replicate 64 0xa0) (List.replicate 64 0x0f) = .ok req ∧
      submissionSchema req = true ∧ parsePayload req = southWest := by
  have hc : Edge.canonicalize southWest = .ok southWest.bytes := Edge.canonicalize_eq_ok.2 ⟨encodable_southWest, rfl⟩
  obtain ⟨req, hreq, hschema, hparse, -⟩ := wire_roundTrip hc (by decide) (by decide) (by decide)
    (List.length_replicate ..) (List.length_replicate ..)
  exact ⟨req, hreq, hschema, hparse⟩

end Server
end InfraVeritas
