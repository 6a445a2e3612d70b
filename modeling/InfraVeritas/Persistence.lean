import InfraVeritas.EdgeClient

/-!
# Validation and its history table

The worker's best-effort step after a submission: statistics over `device_readings_history`, anomaly flags and
the new row. The API lets `uint64` through and the table's columns are `BIGINT`; between them stand the decimal
strings of the query parameters. The weather providers and the aggregates of the database are parameters, and
the connection and the columns of other types are taken not to fail.
-/

namespace InfraVeritas
open Checks

namespace Validation
open Server Edge

/-! ### `BIGINT` -/

/-- A value of a `BIGINT` column. -/
abbrev BigInt64 := {v : Int // IsI64 v}

inductive DbError
  | invalidTextRepresentation (text : String)
  | numericValueOutOfRange (text : String)
deriving DecidableEq, Repr

/-- `BIGINT` input. Of the spellings it takes, only decimal ones are sent. -/
def int8in (text : String) : Except DbError BigInt64 :=
  if isSignedDecimal text then
    if h : IsI64 (bigInt text) then .ok ⟨bigInt text, h⟩ else .error (.numericValueOutOfRange text)
  else .error (.invalidTextRepresentation text)

/-- `toString()` of a `bigint`. -/
def decimal (v : Int) : String := str v

/-! ### Weather and anomalies -/

inductive EnsembleStatus
  | ok
  | degraded
  | divergent
  | unavailable
deriving DecidableEq, Repr

structure ProviderResult where
  provider : String
  point : Option (Float × Float)
  error : Option (String × String)

structure EnsembleResult where
  ghi : Float
  providersResponded : Nat
  stdDev : Option Float
  relativeDivergence : Option Float
  perProvider : List ProviderResult
  status : EnsembleStatus

structure DriftSummary where
  drift : Bool
  magnitude : Float

inductive AnomalyFlag
  | energy_inconsistent_with_weather
  | energy_zscore_high
  | divergent_weather_sources
  | weather_unavailable
  | drift_detected
  | tamper_flag_set
deriving DecidableEq, Repr

structure AnomalyResult where
  flags : List AnomalyFlag
  reviewRequired : Bool

def HIGH_SEVERITY : List AnomalyFlag := [.energy_inconsistent_with_weather, .tamper_flag_set]
def NIGHT_GHI_THRESHOLD : Float := 10
def NIGHT_ENERGY_THRESHOLD : Int := 100
def ZSCORE_OUTLIER_THRESHOLD : Float := 3

def evaluateAnomaly (tamper_flag total_energy_mwh : Int) (ensemble : EnsembleResult) (zscore : Option Float)
    (drift : DriftSummary) : AnomalyResult :=
  let tampered : List AnomalyFlag := if tamper_flag ≠ 0 then [.tamper_flag_set] else []
  let weather : List AnomalyFlag := match ensemble.status with
    | .divergent => [.divergent_weather_sources]
    | .unavailable => [.weather_unavailable]
    | .ok | .degraded =>
      if ensemble.ghi < NIGHT_GHI_THRESHOLD ∧ total_energy_mwh > NIGHT_ENERGY_THRESHOLD then
        [.energy_inconsistent_with_weather]
      else []
  let outlier : List AnomalyFlag := match zscore with
    | some z => if z.abs > ZSCORE_OUTLIER_THRESHOLD then [.energy_zscore_high] else []
    | none => []
  let drifted : List AnomalyFlag := if drift.drift then [.drift_detected] else []
  let flags : List AnomalyFlag := tampered ++ weather ++ outlier ++ drifted
  ⟨flags, flags.any (· ∈ HIGH_SEVERITY)⟩

/-! ### `device_readings_history` -/

structure HistoryRow where
  submitted_at : Nat
  device_id : BigInt64
  session_id : BigInt64
  lat_e7 : BigInt64
  lon_e7 : BigInt64
  epoch_start_ts : BigInt64
  total_energy_mwh : BigInt64
  ensemble_ghi : Float
  ensemble_status : EnsembleStatus
  ensemble_std_dev : Option Float
  ensemble_relative_div : Option Float
  providers_responded : Nat
  provider_details : String
  energy_zscore : Option Float
  anomaly_flag : List AnomalyFlag
  session_key : Option Bytes
  tx_hash : Option Bytes
  submitted_to_chain : Bool

abbrev History := List HistoryRow

/-- The parameters `$1` to `$18` of the `INSERT`. -/
structure InsertParams where
  submitted_at : Nat
  device_id : String
  session_id : String
  lat_e7 : String
  lon_e7 : String
  epoch_start_ts : String
  total_energy_mwh : String
  ensemble_ghi : Float
  ensemble_status : EnsembleStatus
  ensemble_std_dev : Option Float
  ensemble_relative_div : Option Float
  providers_responded : Nat
  provider_details : String
  energy_zscore : Option Float
  anomaly_flag : List AnomalyFlag
  session_key : Option Bytes
  tx_hash : Option Bytes
  submitted_to_chain : Bool

def insertRow (history : History) (p : InsertParams) : Except DbError History := do
  let device_id ← int8in p.device_id
  let session_id ← int8in p.session_id
  let lat_e7 ← int8in p.lat_e7
  let lon_e7 ← int8in p.lon_e7
  let epoch_start_ts ← int8in p.epoch_start_ts
  let total_energy_mwh ← int8in p.total_energy_mwh
  return history ++ [⟨p.submitted_at, device_id, session_id, lat_e7, lon_e7, epoch_start_ts, total_energy_mwh,
    p.ensemble_ghi, p.ensemble_status, p.ensemble_std_dev, p.ensemble_relative_div, p.providers_responded,
    p.provider_details, p.energy_zscore, p.anomaly_flag, p.session_key, p.tx_hash, p.submitted_to_chain⟩]

/-- `AVG(..)::float`, `STDDEV(..)::float`, `JSON.stringify` of the providers' results, and the ensemble. -/
structure Externals where
  avg : List Int → Option Float
  stddev : List Int → Option Float
  stringify : List ProviderResult → String
  fetch : Float → Float → Float → EnsembleResult

structure PersistInput where
  submittedAt : Nat
  deviceId : Int
  sessionId : Int
  latE7 : Int
  lonE7 : Int
  epochStartTs : Int
  totalEnergyMwh : Int
  ensemble : EnsembleResult
  energyZscore : Option Float
  anomaly : AnomalyResult
  sessionKey : Option Bytes
  txHash : Option Bytes

variable (ext : Externals)

def persistParams (input : PersistInput) : InsertParams where
  submitted_at := input.submittedAt
  device_id := decimal input.deviceId
  session_id := decimal input.sessionId
  lat_e7 := decimal input.latE7
  lon_e7 := decimal input.lonE7
  epoch_start_ts := decimal input.epochStartTs
  total_energy_mwh := decimal input.totalEnergyMwh
  ensemble_ghi := input.ensemble.ghi
  ensemble_status := input.ensemble.status
  ensemble_std_dev := input.ensemble.stdDev
  ensemble_relative_div := input.ensemble.relativeDivergence
  providers_responded := input.ensemble.providersResponded
  provider_details := ext.stringify input.ensemble.perProvider
  energy_zscore := input.energyZscore
  anomaly_flag := input.anomaly.flags
  session_key := input.sessionKey
  tx_hash := input.txHash
  submitted_to_chain := input.txHash.isSome

def persist (history : History) (input : PersistInput) : Except DbError History :=
  insertRow history (persistParams ext input)

/-! ### Statistics -/

def DEFAULT_WINDOW_S : Int := 7 * 24 * 3600
def MIN_SAMPLES : Nat := 10
def DRIFT_THRESHOLD_STD : Float := 2
def DAY_MS : Int := 24 * 3600 * 1000

def energies (rows : History) : List Int := rows.map (·.total_energy_mwh.val)

/-- Over the default window. Times are in milliseconds. -/
def computeEnergyZScore (history : History) (now : Nat) (deviceId currentEnergyMwh : Int) :
    Except DbError (Option Float) := do
  let windowStart : Int := now / 1000 - DEFAULT_WINDOW_S
  let device ← int8in (decimal deviceId)
  let rows := history.filter fun r => r.device_id = device ∧ (r.submitted_at : Int) ≥ windowStart * 1000 ∧
    r.ensemble_status ∈ [.ok, .degraded]
  match ext.avg (energies rows), ext.stddev (energies rows) with
  | some mean, some std =>
    if rows.length < MIN_SAMPLES ∨ std == 0 then return none
    else return some ((Float.ofInt currentEnergyMwh - mean) / std)
  | _, _ => return none

def detectDrift (history : History) (now : Nat) (deviceId : Int) : Except DbError DriftSummary := do
  let device ← int8in (decimal deviceId)
  let rows := history.filter (·.device_id = device)
  let day : Int := now - DAY_MS
  let week : Int := now - 7 * DAY_MS
  let recent := rows.filter fun r => (r.submitted_at : Int) ≥ day
  let baseline := rows.filter fun r => (r.submitted_at : Int) ≥ week ∧ (r.submitted_at : Int) < day
  let spread := rows.filter fun r => (r.submitted_at : Int) ≥ week
  match ext.avg (energies recent), ext.avg (energies baseline), ext.stddev (energies spread) with
  | some recent_mean, some baseline_mean, some baseline_std =>
    if baseline_std == 0 then return ⟨false, 0⟩
    else
      let magnitude := (recent_mean - baseline_mean).abs / baseline_std
      return ⟨magnitude > DRIFT_THRESHOLD_STD, magnitude⟩
  | _, _, _ => return ⟨false, 0⟩

/-! ### The pipeline -/

/-- When the window of the z-score is computed, the database's `NOW()` and the new row's time. -/
structure Clock where
  now : Nat
  databaseNow : Nat
  submittedAt : Nat

structure Outcome where
  ensemble : EnsembleResult
  zscore : Option Float
  drift : DriftSummary
  anomaly : AnomalyResult

/-- `ValidationPipeline.process`; the ensemble does not throw. -/
def process (history : History) (clock : Clock) (payload : CanonicalPayload) (totalEnergyMwh : Int)
    (sessionKey txHash : Option Bytes) : Except DbError (Outcome × History) := do
  let lat := Float.ofInt payload.lat_e7 / 1e7
  let lng := Float.ofInt payload.lon_e7 / 1e7
  let ts := Float.ofInt payload.epoch_start_ts
  let ensemble := ext.fetch lat lng ts
  let zscore ← computeEnergyZScore ext history clock.now payload.device_id totalEnergyMwh
  let drift ← detectDrift ext history clock.databaseNow payload.device_id
  let anomaly := evaluateAnomaly payload.tamper_flag totalEnergyMwh ensemble zscore drift
  let history ← persist ext history ⟨clock.submittedAt, payload.device_id, payload.session_id, payload.lat_e7,
    payload.lon_e7, payload.epoch_start_ts, totalEnergyMwh, ensemble, zscore, anomaly, sessionKey, txHash⟩
  return (⟨ensemble, zscore, drift, anomaly⟩, history)

/-- The worker's step after the chain: it logs an error and goes on without an outcome. -/
def bestEffort (history : History) (clock : Clock) (payload : CanonicalPayload) (txHash : Option Bytes) :
    Option Outcome × History :=
  match process ext history clock payload (Prover.computeTotalEnergy payload) none txHash with
  | .ok (outcome, history) => (some outcome, history)
  | .error _ => (none, history)

/-! ### Range errors -/

variable {ext : Externals} {history history' : History} {clock : Clock} {payload : CanonicalPayload}
  {txHash : Option Bytes}

/-- Decimal text that a `BIGINT` column or comparison takes. -/
def IsBigInt (text : String) : Prop := isSignedDecimal text = true ∧ IsI64 (bigInt text)

theorem isBigInt_decimal {v : Int} : IsBigInt (decimal v) ↔ IsI64 v := by
  simp [IsBigInt, decimal, isSignedDecimal_str]

theorem int8in_decimal {v : Int} (h : IsI64 v) : int8in (decimal v) = .ok ⟨v, h⟩ := by
  simp [int8in, decimal, isSignedDecimal_str, h]

theorem int8in_decimal_eq_ok {v : Int} {b : BigInt64} : int8in (decimal v) = .ok b ↔ b.val = v := by
  refine ⟨?_, ?_⟩
  · intro h
    by_cases hv : IsI64 v
    · rw [int8in_decimal hv] at h
      cases h
      rfl
    · simp [int8in, decimal, isSignedDecimal_str, hv] at h
  · intro h
    subst h
    exact int8in_decimal b.property

/-! ### Integers in and out -/

/-- What the six `BIGINT` columns hold. -/
def HistoryRow.bigints (r : HistoryRow) : List Int :=
  [r.device_id, r.session_id, r.lat_e7, r.lon_e7, r.epoch_start_ts, r.total_energy_mwh]

/-- The six parameters for them. -/
def InsertParams.bigints (p : InsertParams) : List String :=
  [p.device_id, p.session_id, p.lat_e7, p.lon_e7, p.epoch_start_ts, p.total_energy_mwh]

def PersistInput.bigints (input : PersistInput) : List Int :=
  [input.deviceId, input.sessionId, input.latE7, input.lonE7, input.epochStartTs, input.totalEnergyMwh]

/-- The integers of a payload that the history records. -/
def recorded (p : CanonicalPayload) : List Int :=
  [p.device_id, p.session_id, p.lat_e7, p.lon_e7, p.epoch_start_ts, Prover.computeTotalEnergy p]

theorem bigints_persistParams (input : PersistInput) :
    (persistParams ext input).bigints = input.bigints.map decimal := rfl

theorem persist_eq_ok {input : PersistInput} (h : persist ext history input = .ok history') :
    ∃ row, history' = history ++ [row] ∧ row.bigints = input.bigints := by
  simp only [persist, insertRow, persistParams, bind_eq_ok, pure_eq_ok, int8in_decimal_eq_ok] at h
  obtain ⟨d, hd, n, hn, lat, hlat, lon, hlon, e, he, m, hm, rfl⟩ := h
  refine ⟨_, rfl, ?_⟩
  simp [HistoryRow.bigints, PersistInput.bigints, hd, hn, hlat, hlon, he, hm]

theorem persist_of_isI64 {input : PersistInput} (h : ∀ v ∈ input.bigints, IsI64 v) :
    ∃ history', persist ext history input = .ok history' := by
  simp only [PersistInput.bigints, List.forall_mem_cons] at h
  obtain ⟨hd, hn, hlat, hlon, he, hm, -⟩ := h
  simp only [persist, insertRow, persistParams, int8in_decimal hd, int8in_decimal hn, int8in_decimal hlat,
    int8in_decimal hlon, int8in_decimal he, int8in_decimal hm, ok_bind]
  exact ⟨_, rfl⟩

theorem isI64_of_bigints {row : HistoryRow} {vs : List Int} (h : row.bigints = vs) : ∀ v ∈ vs, IsI64 v := by
  subst h
  simp only [HistoryRow.bigints, List.forall_mem_cons]
  exact ⟨row.device_id.property, row.session_id.property, row.lat_e7.property, row.lon_e7.property,
    row.epoch_start_ts.property, row.total_energy_mwh.property, nofun⟩

theorem computeEnergyZScore_of_isI64 {now : Nat} {deviceId energy : Int} (h : IsI64 deviceId) :
    ∃ zscore, computeEnergyZScore ext history now deviceId energy = .ok zscore := by
  simp only [computeEnergyZScore, int8in_decimal h, ok_bind]
  repeat' split
  all_goals exact ⟨_, rfl⟩

theorem detectDrift_of_isI64 {now : Nat} {deviceId : Int} (h : IsI64 deviceId) :
    ∃ drift, detectDrift ext history now deviceId = .ok drift := by
  simp only [detectDrift, int8in_decimal h, ok_bind]
  repeat' split
  all_goals exact ⟨_, rfl⟩

/-! ### The step of the worker -/

theorem process_eq_ok {energy : Int} {sessionKey : Option Bytes} {outcome : Outcome}
    (h : process ext history clock payload energy sessionKey txHash = .ok (outcome, history')) :
    ∃ row, history' = history ++ [row] ∧ row.bigints =
      [payload.device_id, payload.session_id, payload.lat_e7, payload.lon_e7, payload.epoch_start_ts, energy] := by
  simp only [process, bind_eq_ok, pure_eq_ok, Prod.mk.injEq] at h
  obtain ⟨z, -, d, -, h', hp, -, rfl⟩ := h
  exact persist_eq_ok hp

theorem process_of_isI64 (h : ∀ v ∈ recorded payload, IsI64 v) : ∃ outcome history',
    process ext history clock payload (Prover.computeTotalEnergy payload) none txHash = .ok (outcome, history') := by
  have hdevice : IsI64 payload.device_id := h _ (by simp [recorded])
  obtain ⟨z, hz⟩ := @computeEnergyZScore_of_isI64 ext history clock.now _ (Prover.computeTotalEnergy payload) hdevice
  obtain ⟨d, hd⟩ := @detectDrift_of_isI64 ext history clock.databaseNow _ hdevice
  simp only [process, hz, hd, ok_bind]
  obtain ⟨history', hp⟩ := @persist_of_isI64 ext history ⟨clock.submittedAt, payload.device_id, payload.session_id,
    payload.lat_e7, payload.lon_e7, payload.epoch_start_ts, Prover.computeTotalEnergy payload, _, z, _, none, txHash⟩ h
  rw [hp]
  exact ⟨_, _, rfl⟩

/-- The history gains a row with the payload's integers, and the statistics answer. -/
structure Persisted (ext : Externals) (history : History) (clock : Clock) (payload : CanonicalPayload)
    (txHash : Option Bytes) : Prop where
  params : ∀ input : PersistInput, input.bigints = recorded payload → ∀ s ∈ (persistParams ext input).bigints, IsBigInt s
  device : IsBigInt (decimal payload.device_id)
  zscore : ∃ z, computeEnergyZScore ext history clock.now payload.device_id (Prover.computeTotalEnergy payload) = .ok z
  drift : ∃ d, detectDrift ext history clock.databaseNow payload.device_id = .ok d
  stored : ∃ outcome row, bestEffort ext history clock payload txHash = (some outcome, history ++ [row]) ∧
    row.bigints = recorded payload

theorem persisted_of_isI64 (h : ∀ v ∈ recorded payload, IsI64 v) : Persisted ext history clock payload txHash := by
  have hdevice : IsI64 payload.device_id := h _ (by simp [recorded])
  refine ⟨fun input hi s hs => ?_, isBigInt_decimal.2 hdevice, computeEnergyZScore_of_isI64 hdevice,
    detectDrift_of_isI64 hdevice, ?_⟩
  · rw [bigints_persistParams, hi, List.mem_map] at hs
    obtain ⟨v, hv, rfl⟩ := hs
    exact isBigInt_decimal.2 (h v hv)
  · obtain ⟨outcome, history', hp⟩ := process_of_isI64 h
    obtain ⟨row, rfl, hrow⟩ := process_eq_ok hp
    exact ⟨outcome, row, by rw [bestEffort, hp], hrow⟩

/-- Otherwise the step leaves no trace in the history. -/
theorem bestEffort_of_not_isI64 (h : ¬ ∀ v ∈ recorded payload, IsI64 v) :
    bestEffort ext history clock payload txHash = (none, history) := by
  rcases hp : process ext history clock payload (Prover.computeTotalEnergy payload) none txHash with err | ⟨o, history'⟩
  · rw [bestEffort, hp]
  · obtain ⟨row, -, hrow⟩ := process_eq_ok hp
    exact absurd (isI64_of_bigints hrow) h

/-! ### Accepted requests -/

/-- What the unsigned fields and the sum must not exceed. -/
structure Fits (p : CanonicalPayload) : Prop where
  device_id : p.device_id < 2 ^ 63
  session_id : p.session_id < 2 ^ 63
  epoch_start_ts : p.epoch_start_ts < 2 ^ 63
  energy : (p.readings.map fun r => r.voltage_mv * r.current_ma).sum < 2 ^ 63

theorem computeTotalEnergy_nonneg (h : Encodable payload) : 0 ≤ Prover.computeTotalEnergy payload := by
  rw [Prover.computeTotalEnergy_eq_sum]
  refine List.sum_nonneg ?_
  intro v hv
  obtain ⟨r, hr, rfl⟩ := List.mem_map.1 hv
  obtain ⟨hvoltage, hcurrent, -⟩ := h.reading r hr
  exact mul_nonneg hvoltage.1 hcurrent.1

/-- The coordinates are in range for every accepted request. -/
theorem isI64_recorded_iff (h : Encodable payload) : (∀ v ∈ recorded payload, IsI64 v) ↔ Fits payload := by
  have hsum := computeTotalEnergy_nonneg h
  have heq := Prover.computeTotalEnergy_eq_sum payload
  simp only [recorded, List.forall_mem_cons]
  constructor
  · rintro ⟨hd, hn, -, -, he, hm, -⟩
    exact ⟨hd.2, hn.2, he.2, heq ▸ hm.2⟩
  · intro hf
    have u64 {v : Int} (hv : IsU64 v) (hlt : v < 2 ^ 63) : IsI64 v := ⟨by have := hv.1; omega, hlt⟩
    have henergy : IsI64 (Prover.computeTotalEnergy payload) := ⟨by omega, heq ▸ hf.energy⟩
    exact ⟨u64 h.device_id hf.device_id, u64 h.session_id hf.session_id, h.lat_e7, h.lon_e7,
      u64 h.epoch_start_ts hf.epoch_start_ts, henergy, nofun⟩

theorem persisted_iff {req : SubmissionRequest} (h : submissionSchema req = true) (ext : Externals) (history : History)
    (clock : Clock) (txHash : Option Bytes) :
    (Persisted ext history clock (parsePayload req) txHash ↔ Fits (parsePayload req)) ∧
    (¬ Fits (parsePayload req) → bestEffort ext history clock (parsePayload req) txHash = (none, history)) := by
  have hiff := isI64_recorded_iff (parsePayload_validated h).encodable
  refine ⟨⟨?_, fun hf => persisted_of_isI64 (hiff.2 hf)⟩, ?_⟩
  · intro hp
    obtain ⟨-, row, -, hrow⟩ := hp.stored
    exact hiff.1 (isI64_of_bigints hrow)
  · intro hf
    exact bestEffort_of_not_isI64 fun hall => hf (hiff.1 hall)

namespace SampleStore
open Server.SampleRequest

/-- An empty history, no weather. -/
def offline : Externals := ⟨fun _ => none, fun _ => none, fun _ => "[]", fun _ _ _ => ⟨0, 0, none, none, [], .unavailable⟩⟩

def instant : Clock := ⟨1700000000000, 1700000000000, 1700000000500⟩

def ordinary : SubmissionRequest := request "1" "484517000" ⟨"18000", "250", "1700000000000"⟩

/-- Its session id is `2^63`. -/
def halfway : SubmissionRequest := request "9223372036854775808" "484517000" ⟨"18000", "250", "1700000000000"⟩

theorem schema_ordinary : submissionSchema ordinary = true :=
  schema_request (by decide +kernel) (by decide +kernel) (by decide +kernel)

theorem schema_halfway : submissionSchema halfway = true :=
  schema_request (by decide +kernel) (by decide +kernel) (by decide +kernel)

theorem fits_ordinary : Fits (parsePayload ordinary) := by
  constructor <;> decide +kernel

end SampleStore

open SampleStore in
theorem persisted_iff_sample :
    submissionSchema ordinary = true ∧ Persisted offline [] instant (parsePayload ordinary) none :=
  ⟨schema_ordinary, (persisted_iff schema_ordinary offline [] instant none).1.2 fits_ordinary⟩

open SampleStore in
/-- The request is accepted and its row is lost. -/
theorem persisted_fails :
    submissionSchema halfway = true ∧ bestEffort offline [] instant (parsePayload halfway) none = (none, []) ∧
    ¬ Persisted offline [] instant (parsePayload halfway) none := by
  have hsession : (parsePayload halfway).session_id = 2 ^ 63 := by decide +kernel
  have hlost : bestEffort offline [] instant (parsePayload halfway) none = (none, []) := by
    refine bestEffort_of_not_isI64 ?_
    intro h
    have hn := h (parsePayload halfway).session_id (by simp [recorded])
    rw [hsession] at hn
    exact absurd hn.2 (by decide)
  refine ⟨schema_halfway, hlost, ?_⟩
  intro h
  obtain ⟨outcome, row, he, -⟩ := h.stored
  rw [hlost] at he
  cases he

end Validation
end InfraVeritas
