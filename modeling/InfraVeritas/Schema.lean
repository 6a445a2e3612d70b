import InfraVeritas.Canonical
import InfraVeritas.Lib.Hex

/-!
# The request schema of `POST /submissions`

`submissionSchema` of `api/server.ts` as a decidable predicate on the string fields of a request, and
`parsePayload`. A body that is not an object of this shape never gets as far; the issue texts are not
modelled. A failed check does not stop the next one, so the bounds of a latitude are tried on any string, and
where `BigInt` throws there, `safeParse` throws.
-/

namespace InfraVeritas

structure ReadingRequest where
  voltage_mv : String
  current_ma : String
  timestamp_ms : String
deriving DecidableEq, Repr

structure PayloadRequest where
  device_id : String
  session_id : String
  epoch_start_ts : String
  lat_e7 : String
  lon_e7 : String
  light_level : String
  tamper_flag : String
  readings : List ReadingRequest
deriving DecidableEq, Repr

structure SubmissionRequest where
  payload : PayloadRequest
  signature : String
  public_key : String
deriving DecidableEq, Repr

namespace Server

def U64_MAX : Int := 0xFFFFFFFFFFFFFFFF
def I64_MIN : Int := -2 ^ 63
def I64_MAX : Int := 2 ^ 63 - 1
def LAT_MAX_E7 : Int := 900000000
def LON_MAX_E7 : Int := 1800000000

/-- `^\\d+$`. -/
def isDecimal (s : String) : Bool := !s.toList.isEmpty && s.toList.all Char.isDigit

/-- `^-?\\d+$`. -/
def isSignedDecimal (s : String) : Bool :=
  match s.toList with
  | '-' :: cs => !cs.isEmpty && cs.all Char.isDigit
  | cs => !cs.isEmpty && cs.all Char.isDigit

/-- `BigInt(s)` of a string of decimal digits with an optional minus sign. -/
def bigInt (s : String) : Int :=
  match s.toList with
  | '-' :: cs => -(Nat.ofDigitChars 10 cs 0 : Int)
  | cs => Nat.ofDigitChars 10 cs 0

def u64String (s : String) : Bool := isDecimal s && decide (bigInt s ≤ U64_MAX)

def i64String (s : String) : Bool := isSignedDecimal s && decide (bigInt s ≥ I64_MIN ∧ bigInt s ≤ I64_MAX)

def latE7Schema (s : String) : Bool := i64String s && decide (bigInt s ≥ -LAT_MAX_E7 ∧ bigInt s ≤ LAT_MAX_E7)

def lonE7Schema (s : String) : Bool := i64String s && decide (bigInt s ≥ -LON_MAX_E7 ∧ bigInt s ≤ LON_MAX_E7)

def tamperFlagSchema (s : String) : Bool := u64String s && decide (s = "0" ∨ s = "1")

/-- `^[0-9a-f]{128}$`. -/
def hex128 (s : String) : Bool := decide (s.toList.length = 128) && s.toList.all Hex.isHexDigit

def readingSchema (r : ReadingRequest) : Bool :=
  u64String r.voltage_mv && u64String r.current_ma && u64String r.timestamp_ms

def payloadSchema (p : PayloadRequest) : Bool :=
  u64String p.device_id && u64String p.session_id && u64String p.epoch_start_ts && latE7Schema p.lat_e7 &&
    lonE7Schema p.lon_e7 && u64String p.light_level && tamperFlagSchema p.tamper_flag &&
    p.readings.all readingSchema && decide (p.readings.length = 100)

def submissionSchema (req : SubmissionRequest) : Bool :=
  payloadSchema req.payload && hex128 req.signature && hex128 req.public_key

/-- The blanks that `BigInt` skips around a number. -/
def isStrWhiteSpace (c : Char) : Bool :=
  decide (c.toNat ∈ [0x09, 0x0a, 0x0b, 0x0c, 0x0d, 0x20, 0xa0, 0x1680, 0x2028, 0x2029, 0x202f, 0x205f, 0x3000, 0xfeff]) ||
    decide (0x2000 ≤ c.toNat ∧ c.toNat ≤ 0x200a)

def isDigits (isDigit : Char → Bool) (cs : List Char) : Bool := !cs.isEmpty && cs.all isDigit

def isHexDigit (c : Char) : Bool := c.isDigit || ('a' ≤ c && c ≤ 'f') || ('A' ≤ c && c ≤ 'F')

def trimStart (cs : List Char) : List Char := cs.dropWhile isStrWhiteSpace

def isIntegerLiteral (cs : List Char) : Bool :=
  match cs with
  | [] => true
  | '0' :: 'x' :: cs | '0' :: 'X' :: cs => isDigits isHexDigit cs
  | '0' :: 'o' :: cs | '0' :: 'O' :: cs => isDigits (fun c => '0' ≤ c && c ≤ '7') cs
  | '0' :: 'b' :: cs | '0' :: 'B' :: cs => isDigits (fun c => c = '0' || c = '1') cs
  | '-' :: cs | '+' :: cs => isDigits Char.isDigit cs
  | cs => isDigits Char.isDigit cs

/-- `BigInt(s)` does not throw. -/
def isStringIntegerLiteral (s : String) : Bool := isIntegerLiteral (trimStart (trimStart s.toList).reverse).reverse

/-- Whether the parse succeeds, or the message of the `SyntaxError` that it throws. -/
def safeParse (req : SubmissionRequest) : Except String Bool :=
  match [req.payload.lat_e7, req.payload.lon_e7].find? fun s => !isStringIntegerLiteral s with
  | some s => .error s!"Cannot convert {s} to a BigInt"
  | none => .ok (submissionSchema req)

def parseReading (r : ReadingRequest) : Reading :=
  ⟨bigInt r.voltage_mv, bigInt r.current_ma, bigInt r.timestamp_ms⟩

def parsePayload (req : SubmissionRequest) : CanonicalPayload :=
  let p := req.payload
  { device_id := bigInt p.device_id
    session_id := bigInt p.session_id
    epoch_start_ts := bigInt p.epoch_start_ts
    lat_e7 := bigInt p.lat_e7
    lon_e7 := bigInt p.lon_e7
    light_level := bigInt p.light_level
    tamper_flag := bigInt p.tamper_flag
    readings := p.readings.map parseReading }

def hexToBytes (hex : String) : Bytes := Hex.hexToBytes hex.toList

structure Validated (p : CanonicalPayload) : Prop where
  encodable : Encodable p
  lat_e7 : -LAT_MAX_E7 ≤ p.lat_e7 ∧ p.lat_e7 ≤ LAT_MAX_E7
  lon_e7 : -LON_MAX_E7 ≤ p.lon_e7 ∧ p.lon_e7 ≤ LON_MAX_E7
  tamper_flag : p.tamper_flag = 0 ∨ p.tamper_flag = 1

theorem bigInt_of_isDecimal {s : String} (h : isDecimal s = true) : 0 ≤ bigInt s := by
  unfold bigInt
  split
  · next cs hs =>
    rw [isDecimal, hs] at h
    exact absurd h (by simp [Char.isDigit])
  · exact Int.natCast_nonneg _

theorem isStrWhiteSpace_of_isDigit {c : Char} (h : c.isDigit = true) : isStrWhiteSpace c = false := by
  have hc : 48 ≤ c.toNat ∧ c.toNat ≤ 57 := by
    simpa [Char.isDigit, UInt32.le_iff_toNat_le] using h
  simp only [isStrWhiteSpace, Bool.or_eq_false_iff, decide_eq_false_iff_not, List.mem_cons, List.not_mem_nil, or_false]
  omega

theorem trimStart_of_all {cs : List Char} (h : ∀ c ∈ cs, isStrWhiteSpace c = false) : trimStart cs = cs := by
  cases cs with
  | nil => rfl
  | cons c cs => exact List.dropWhile_cons_of_neg (by simp [h c List.mem_cons_self])

theorem trim_of_all {cs : List Char} (h : ∀ c ∈ cs, isStrWhiteSpace c = false) :
    (trimStart (trimStart cs).reverse).reverse = cs := by
  rw [trimStart_of_all h, trimStart_of_all fun c hc => h c (List.mem_reverse.1 hc), List.reverse_reverse]

/-- No sign and no letter of a prefix is a digit. -/
theorem isIntegerLiteral_of_isDigits {cs : List Char} (h : isDigits Char.isDigit cs = true) : isIntegerLiteral cs = true := by
  unfold isIntegerLiteral
  split
  · rfl
  all_goals first | exact h | simp [isDigits, Char.isDigit] at h

theorem isStringIntegerLiteral_of_isSignedDecimal {s : String} (h : isSignedDecimal s = true) :
    isStringIntegerLiteral s = true := by
  have hblank {cs : List Char} (hcs : isDigits Char.isDigit cs = true) : ∀ c ∈ cs, isStrWhiteSpace c = false := by
    rw [isDigits, Bool.and_eq_true, List.all_eq_true] at hcs
    exact fun c hc => isStrWhiteSpace_of_isDigit (hcs.2 c hc)
  unfold isSignedDecimal at h
  split at h
  · next cs hs =>
    rw [isStringIntegerLiteral, hs, trim_of_all (List.forall_mem_cons.2 ⟨by decide, hblank h⟩)]
    exact h
  · rw [isStringIntegerLiteral, trim_of_all (hblank h)]
    exact isIntegerLiteral_of_isDigits h

theorem safeParse_cases (req : SubmissionRequest) :
    (∃ message, safeParse req = .error message) ∨ safeParse req = .ok (submissionSchema req) := by
  rw [safeParse]
  split
  · exact .inl ⟨_, rfl⟩
  · exact .inr rfl

theorem safeParse_of_schema {req : SubmissionRequest} (h : submissionSchema req = true) : safeParse req = .ok true := by
  have hschema := h
  simp only [submissionSchema, payloadSchema, Bool.and_eq_true] at h
  obtain ⟨⟨⟨⟨⟨⟨⟨⟨⟨⟨-, -⟩, -⟩, hlat⟩, hlon⟩, -⟩, -⟩, -⟩, -⟩, -⟩, -⟩ := h
  rw [latE7Schema, i64String, Bool.and_eq_true, Bool.and_eq_true] at hlat
  rw [lonE7Schema, i64String, Bool.and_eq_true, Bool.and_eq_true] at hlon
  have hnone : [req.payload.lat_e7, req.payload.lon_e7].find? (fun s => !isStringIntegerLiteral s) = none := by
    simp [isStringIntegerLiteral_of_isSignedDecimal hlat.1.1, isStringIntegerLiteral_of_isSignedDecimal hlon.1.1]
  rw [safeParse, hnone, hschema]

theorem isU64_of_u64String {s : String} (h : u64String s = true) : IsU64 (bigInt s) := by
  rw [u64String, Bool.and_eq_true, decide_eq_true_iff] at h
  refine ⟨bigInt_of_isDecimal h.1, ?_⟩
  have hmax : U64_MAX = 2 ^ 64 - 1 := rfl
  have hle := h.2
  omega

theorem isI64_of_i64String {s : String} (h : i64String s = true) : IsI64 (bigInt s) := by
  rw [i64String, Bool.and_eq_true, decide_eq_true_iff] at h
  have hmin : I64_MIN = -2 ^ 63 := rfl
  have hmax : I64_MAX = 2 ^ 63 - 1 := rfl
  obtain ⟨-, hlo, hhi⟩ := h
  exact ⟨by omega, by omega⟩

/-- Every accepted request carries a payload the edge could have serialized. -/
theorem parsePayload_validated {req : SubmissionRequest} (h : submissionSchema req = true) :
    Validated (parsePayload req) := by
  simp only [submissionSchema, payloadSchema, Bool.and_eq_true, decide_eq_true_iff, List.all_eq_true] at h
  obtain ⟨⟨⟨⟨⟨⟨⟨⟨⟨⟨hd, hs⟩, he⟩, hlat⟩, hlon⟩, hl⟩, ht⟩, hr⟩, hn⟩, -⟩, -⟩ := h
  rw [latE7Schema, Bool.and_eq_true, decide_eq_true_iff] at hlat
  rw [lonE7Schema, Bool.and_eq_true, decide_eq_true_iff] at hlon
  rw [tamperFlagSchema, Bool.and_eq_true, decide_eq_true_iff] at ht
  refine ⟨⟨?_, isU64_of_u64String hd, isU64_of_u64String hs, isU64_of_u64String he, isI64_of_i64String hlat.1,
    isI64_of_i64String hlon.1, isU64_of_u64String hl, isU64_of_u64String ht.1, ?_⟩, hlat.2, hlon.2, ?_⟩
  · show (req.payload.readings.map parseReading).length = 100
    rw [List.length_map, hn]
  · intro r hr'
    obtain ⟨q, hq, rfl⟩ := List.mem_map.1 hr'
    have hq' := hr q hq
    simp only [readingSchema, Bool.and_eq_true] at hq'
    obtain ⟨⟨hv, hc⟩, ht'⟩ := hq'
    exact ⟨isU64_of_u64String hv, isU64_of_u64String hc, isU64_of_u64String ht'⟩
  · show bigInt req.payload.tamper_flag = 0 ∨ bigInt req.payload.tamper_flag = 1
    rcases ht.2 with h0 | h1
    · rw [h0]; exact .inl (by decide)
    · rw [h1]; exact .inr (by decide)

theorem length_hexToBytes {s : String} (h : hex128 s = true) : (hexToBytes s).length = 64 := by
  rw [hex128, Bool.and_eq_true, decide_eq_true_iff] at h
  rw [hexToBytes, Hex.length_hexToBytes, h.1]

theorem hex128_of_schema {req : SubmissionRequest} (h : submissionSchema req = true) :
    hex128 req.signature = true ∧ hex128 req.public_key = true := by
  simp only [submissionSchema, Bool.and_eq_true] at h
  exact ⟨h.1.2, h.2⟩

/-! ### Sample requests -/

namespace SampleRequest

def zeros128 : String := String.ofList (List.replicate 128 '0')

theorem hex128_replicate {c : Char} (h : Hex.isHexDigit c = true) : hex128 (String.ofList (List.replicate 128 c)) = true := by
  rw [hex128, String.toList_ofList, List.length_replicate, List.all_replicate, h]
  rfl

theorem hexToBytes_replicate {c : Char} {b : UInt8} (h : UInt8.ofNat (16 * Hex.hexValue c + Hex.hexValue c) = b) :
    hexToBytes (String.ofList (List.replicate 128 c)) = List.replicate 64 b := by
  rw [hexToBytes, String.toList_ofList, ← h]
  exact Hex.hexToBytes_replicate c 64

theorem hexToBytes_zeros128 : hexToBytes zeros128 = List.replicate 64 0 := by
  have hzero : UInt8.ofNat (16 * Hex.hexValue '0' + Hex.hexValue '0') = 0 := by decide
  exact hexToBytes_replicate hzero

def request (session lat : String) (r : ReadingRequest) : SubmissionRequest :=
  ⟨⟨"7", session, "100", lat, "0", "0", "0", r :: List.replicate 99 ⟨"0", "0", "0"⟩⟩, zeros128, zeros128⟩

theorem schema_request {session lat : String} {r : ReadingRequest} (hs : u64String session = true)
    (hlat : latE7Schema lat = true) (hr : readingSchema r = true) :
    submissionSchema (request session lat r) = true := by
  have h0 : readingSchema ⟨"0", "0", "0"⟩ = true := by decide
  have hz : hex128 zeros128 = true := hex128_replicate (by decide)
  have hall : (request session lat r).payload.readings.all readingSchema = true := by
    rw [request, List.all_cons, hr, Bool.true_and, List.all_eq_true]
    intro q hq
    rw [(List.mem_replicate.1 hq).2, h0]
  have hn : (request session lat r).payload.readings.length = 100 := by
    rw [request, List.length_cons, List.length_replicate]
  have hd : u64String "7" = true ∧ u64String "100" = true ∧ lonE7Schema "0" = true ∧ u64String "0" = true ∧
      tamperFlagSchema "0" = true := by decide
  simp only [submissionSchema, payloadSchema, hall, hn, Bool.and_eq_true, decide_true, and_true]
  exact ⟨⟨⟨⟨⟨⟨⟨⟨hd.1, hs⟩, hd.2.1⟩, hlat⟩, hd.2.2.1⟩, hd.2.2.2.1⟩, hd.2.2.2.2⟩, hz⟩, hz⟩

end SampleRequest

end Server
end InfraVeritas
