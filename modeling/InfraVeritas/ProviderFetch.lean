import InfraVeritas.ClosestPoint
import InfraVeritas.Lib.Routines

/-!
# The requests of the weather providers

`fetch` of the three providers is one function but for the name, the request and the reading of the body
(`Service`). It is a task that awaits the fetcher, the delay before the retry and the body, and that assigns `healthy`;
calls on one provider interleave at these awaits. `Settled` says once how a call can end when it runs alone, and the
pool of tasks carries that over to any interleaving.
-/

namespace InfraVeritas
open Routines Routines.Routine

namespace Weather

/-- A double as a number; `none` for `NaN` and the infinities. -/
class JsDouble (V : Type) extends JsNumber V where
  value : V → Option ℚ

/-- What is thrown or rejected with. -/
inductive Failure
  | providerError (err : ProviderError)
  /-- any other `Error`, by its name and its message -/
  | error (name message : String)
  /-- any other value, by `String(err)` -/
  | other (text : String)
  /-- no timeout, and reading it as a string throws -/
  | unreadable (thrown : Failure)
deriving DecidableEq

/-- `err instanceof Error ? err.message : String(err)` -/
def Failure.text : Failure → Except Failure String
  | .providerError err => .ok err.message
  | .error _ message => .ok message
  | .other text => .ok text
  | .unreadable thrown => .error thrown

def typeError (message : String) : Failure := .error "TypeError" message

structure Response where
  status : Nat

def Response.ok (r : Response) : Bool := 200 ≤ r.status && r.status ≤ 299

inductive Op
  | get (url : Url)
  | sleep (ms : Nat)
  /-- `response.json()` -/
  | json
deriving DecidableEq

/-- Whatever the body's promise rejects with is not looked at. -/
abbrev Answer (Body : Type) : Op → Type
  | .get _ => Except Failure Response
  | .sleep _ => Unit
  | .json => Except Unit Body

abbrev Fetch (Body α : Type) := Routine Op (Answer Body) Bool Failure α

def fetcher {Body : Type} (url : Url) : Fetch Body (Except Failure Response) := Routine.perform (Op.get url)
def sleep {Body : Type} (ms : Nat) : Fetch Body Unit := Routine.perform (Op.sleep ms)
def readJson {Body : Type} : Fetch Body (Except Unit Body) := Routine.perform Op.json

/-- `application/x-www-form-urlencoded` -/
def formEncode (s : String) : String :=
  String.join <| s.toUTF8.toList.map fun b =>
    let c := Char.ofNat b.toNat
    if c.isAlphanum || c ∈ ['*', '-', '.', '_'] then c.toString
    else if c = ' ' then "+"
    else "%" ++ ((String.ofList (Nat.toDigits 16 (b.toNat / 16))) ++ String.ofList (Nat.toDigits 16 (b.toNat % 16))).toUpper

def Url.text (url : Url) : String :=
  url.base ++ "?" ++ "&".intercalate (url.params.map fun p => formEncode p.1 ++ "=" ++ formEncode p.2)

def RETRY_DELAY_MS : Nat := 500

/-- What the three providers do not share. `nowMs` is `Date.now()`. -/
structure Service (V Body : Type) where
  name : String
  buildUrl : (nowMs : Int) → V → V → ℚ → Except Failure Url
  read : Body → ℚ → Except Failure (IrradiancePoint (Option Int) V)

namespace Service
variable {V Body : Type} [JsDouble V] (p : Service V Body) (timeoutMs : V)

def inRange (v : V) (lo hi : ℚ) : Bool :=
  match JsDouble.value v with
  | none => false
  | some q => lo ≤ q && q ≤ hi

/-- A timestamp that passes is the number it stands for. -/
def validateInputs (lat lng timestamp : V) : Except ProviderError ℚ :=
  let latText := JsNumber.text lat
  let lngText := JsNumber.text lng
  let timestampText := JsNumber.text timestamp
  if inRange lat (-90) 90 then
    if inRange lng (-180) 180 then
      match JsDouble.value timestamp with
      | some t =>
        if 0 < t then .ok t else .error (providerError p.name .malformed s!"invalid timestamp: {timestampText}")
      | none => .error (providerError p.name .malformed s!"invalid timestamp: {timestampText}")
    else .error (providerError p.name .malformed s!"invalid lng: {lngText}")
  else .error (providerError p.name .malformed s!"invalid lat: {latText}")

/-- What `fetch` does before its first await. -/
def prepare (nowMs : Int) (lat lng timestamp : V) : Except Failure (ℚ × Url) := do
  let t ← (p.validateInputs lat lng timestamp).mapError .providerError
  let url ← p.buildUrl nowMs lat lng t
  return (t, url)

def fetchWithTimeout (url : Url) : Fetch Body Response := do
  try
    match ← fetcher url with
    | .ok response => pure response
    | .error err => throw err
  catch err =>
    match err with
    | .error name _ =>
      if name = "AbortError" ∨ name = "TimeoutError" then
        let ms := JsNumber.text timeoutMs
        throw (.providerError (providerError p.name .network s!"timeout after {ms}ms"))
      else throw err
    | _ => throw err

/-- The handler of `fetchWithRetry`: connection refused, DNS and the like. -/
def wrap {α : Type} (err : Failure) : Fetch Body α := do
  match err with
  | .providerError _ => throw err
  | _ =>
    Routine.set false
    match err.text with
    | .ok text => throw (.providerError (providerError p.name .network text))
    | .error thrown => throw thrown

def fetchWithRetry (url : Url) : Fetch Body Response := do
  try
    let response ← p.fetchWithTimeout timeoutMs url
    if 500 ≤ response.status ∧ response.status < 600 then
      sleep RETRY_DELAY_MS
      p.fetchWithTimeout timeoutMs url
    else pure response
  catch err => p.wrap err

/-- `fetch` from the response on. -/
def handleResponse (t : ℚ) (url : Url) (response : Response) : Fetch Body (IrradiancePoint (Option Int) V) := do
  let urlText := url.text
  if response.status = 429 then
    Routine.set false
    throw (.providerError (providerError p.name .rateLimit s!"HTTP 429 from {urlText}"))
  else if response.status = 404 then
    throw (.providerError (providerError p.name .notFound s!"HTTP 404 from {urlText}"))
  else if response.ok = false then
    let status := response.status
    Routine.set false
    throw (.providerError (providerError p.name .network s!"HTTP {status} from {urlText}"))
  else
    match ← readJson with
    | .error _ => throw (.providerError (providerError p.name .malformed "JSON parse failed"))
    | .ok body =>
      match p.read body t with
      | .error err => throw err
      | .ok point =>
        Routine.set true
        pure point

def fetch (nowMs : Int) (lat lng timestamp : V) : Fetch Body (IrradiancePoint (Option Int) V) :=
  match p.prepare nowMs lat lng timestamp with
  | .error err => throw err
  | .ok (t, url) => do
    let response ← p.fetchWithRetry timeoutMs url
    p.handleResponse t url response

end Service

/-! ### The three services -/

section Services
variable {V : Type} [JsDouble V] (other : String → Option Int) (round : ℚ → ℚ)

/-- The parsed body, by what the code reads of it: `null`, a value whose fields are as declared or missing, or one in which
reading on throws. -/
inductive JsonBody (R : Type)
  | null
  | record (body : R)
  | illShaped (thrown : Failure)

/-- `field` is the first that is read. -/
def JsonBody.fields {R : Type} (field : String) : JsonBody R → Except Failure R
  | .null => .error (typeError s!"Cannot read properties of null (reading '{field}')")
  | .record body => .ok body
  | .illShaped thrown => .error thrown

structure OpenMeteoResponse (V : Type) where
  hourly : Option (OpenMeteoHourly V)
  reason : Option String
  error : Option Bool

namespace OpenMeteo

def FORECAST_HORIZON_S : ℚ := 14 * 24 * 3600

def read (body : JsonBody (OpenMeteoResponse V)) (timestamp : ℚ) : Except Failure (IrradiancePoint (Option Int) V) := do
  let body ← body.fields "error"
  Except.mapError .providerError <|
    match body.error, body.hourly with
    | some true, _ | _, none => .error (providerError name .malformed (body.reason.getD "missing hourly data in response"))
    | _, some hourly => findClosestPoint other round hourly timestamp

def service : Service V (JsonBody (OpenMeteoResponse V)) where
  name := name
  buildUrl nowMs lat lng timestamp :=
    let nowS : Int := nowMs / 1000
    let ageS := round (nowS - timestamp)
    let useArchive := decide (ageS > FORECAST_HORIZON_S)
    (buildUrl useArchive lat lng timestamp).mapError (.error "RangeError")
  read := read other round

end OpenMeteo

/-- `properties.parameter.ALLSKY_SFC_SW_DWN` and `errors`. -/
structure NASAPowerResponse (V : Type) where
  series : Option (Series V)
  errors : Option (List String)

namespace NASAPower

def read (body : JsonBody (NASAPowerResponse V)) (timestamp : ℚ) : Except Failure (IrradiancePoint (Option Int) V) := do
  let body ← body.fields "errors"
  let errors := body.errors.getD []
  Except.mapError .providerError <|
    if errors ≠ [] then
      let text := "; ".intercalate errors
      .error (providerError name .malformed s!"API errors: {text}")
    else
      match body.series with
      | none => .error (providerError name .malformed "missing ALLSKY_SFC_SW_DWN parameter in response")
      | some series =>
        if series.entries = [] then .error (providerError name .malformed "missing ALLSKY_SFC_SW_DWN parameter in response")
        else findClosestPoint round series timestamp

def service : Service V (JsonBody (NASAPowerResponse V)) where
  name := name
  buildUrl _ lat lng timestamp := .ok (buildUrl lat lng timestamp)
  read := read round

end NASAPower

/-- `outputs.hourly` and `message`. -/
structure PVGISResponse (V : Type) where
  hourly : Option (List (PVGISHourlyEntry V))
  message : Option String

namespace PVGIS

def read (body : JsonBody (PVGISResponse V)) (timestamp : ℚ) : Except Failure (IrradiancePoint (Option Int) V) := do
  let body ← body.fields "outputs"
  Except.mapError .providerError <|
    match body.hourly with
    | none | some [] => .error (providerError name .malformed (body.message.getD "missing outputs.hourly array"))
    | some hourly => findClosestPoint round hourly timestamp

def service : Service V (JsonBody (PVGISResponse V)) where
  name := name
  buildUrl _ lat lng timestamp := .ok (buildUrl lat lng timestamp)
  read := read round

end PVGIS
end Services

/-! ### One call -/

namespace Service
variable {V Body : Type} [JsDouble V] {p : Service V Body} {timeoutMs : V} {nowMs : Int} {lat lng timestamp : V}
  {t : ℚ} {url : Url} {r : Except Failure (IrradiancePoint (Option Int) V)}

/-- A timeout, as `fetchWithTimeout` sees it. -/
def IsAbort : Failure → Prop
  | .error name _ => name = "AbortError" ∨ name = "TimeoutError"
  | _ => False

instance : DecidablePred IsAbort
  | .error .. => inferInstanceAs (Decidable (_ ∨ _))
  | .providerError _ => .isFalse id
  | .other _ => .isFalse id
  | .unreadable _ => .isFalse id

/-- What is thrown in place of an error that is no `ProviderError`. -/
def reported (p : Service V Body) (err : Failure) : Failure :=
  match err.text with
  | .ok text => .providerError (providerError p.name .network text)
  | .error thrown => thrown

/-- What `fetchWithRetry` throws for a rejection of the fetcher. -/
def failed (p : Service V Body) (timeoutMs : V) (err : Failure) : Failure :=
  if IsAbort err then
    let ms := JsNumber.text timeoutMs
    .providerError (providerError p.name .network s!"timeout after {ms}ms")
  else
    match err with
    | .providerError _ => err
    | _ => p.reported err

/-- What it assigns to `healthy` then: a timeout and a `ProviderError` pass through unmarked. -/
def marks (err : Failure) : List Bool :=
  if IsAbort err then []
  else
    match err with
    | .providerError _ => []
    | _ => [false]

/-- What a response whose status is not a success is answered with. -/
def refusal (p : Service V Body) (url : Url) (response : Response) : Failure :=
  let urlText := url.text
  if response.status = 429 then .providerError (providerError p.name .rateLimit s!"HTTP 429 from {urlText}")
  else if response.status = 404 then .providerError (providerError p.name .notFound s!"HTTP 404 from {urlText}")
  else
    let status := response.status
    .providerError (providerError p.name .network s!"HTTP {status} from {urlText}")

abbrev Exchange (Body : Type) := Σ op, Answer Body op

/-- How a call goes on from its last response. -/
inductive Concludes (p : Service V Body) (t : ℚ) (url : Url) (response : Response) :
    List (Exchange Body) → Except Failure (IrradiancePoint (Option Int) V) → List Bool → Prop
  | refused (h : response.ok = false) :
      Concludes p t url response [] (.error (p.refusal url response)) (if response.status = 404 then [] else [false])
  | unparsed (h : response.ok = true) (e : Unit) :
      Concludes p t url response [⟨.json, .error e⟩]
        (.error (.providerError (providerError p.name .malformed "JSON parse failed"))) []
  | malformed (h : response.ok = true) {body : Body} {err : Failure} (hr : p.read body t = .error err) :
      Concludes p t url response [⟨.json, .ok body⟩] (.error err) []
  | resolved (h : response.ok = true) {body : Body} {point : IrradiancePoint (Option Int) V}
      (hr : p.read body t = .ok point) : Concludes p t url response [⟨.json, .ok body⟩] (.ok point) [true]

def Is5xx (response : Response) : Prop := 500 ≤ response.status ∧ response.status < 600

instance : DecidablePred Is5xx := fun _ => inferInstanceAs (Decidable (_ ∧ _))

/-- The ways in which a call with valid inputs can end: the answers it got, its result, what it assigned to `healthy`. -/
inductive Settled (p : Service V Body) (timeoutMs : V) (t : ℚ) (url : Url) :
    List (Exchange Body) → Except Failure (IrradiancePoint (Option Int) V) → List Bool → Prop
  | failed (err : Failure) : Settled p timeoutMs t url [⟨.get url, .error err⟩] (.error (p.failed timeoutMs err)) (marks err)
  | first {response : Response} (h : ¬ Is5xx response) {as r ws} (hc : Concludes p t url response as r ws) :
      Settled p timeoutMs t url (⟨.get url, .ok response⟩ :: as) r ws
  | retryFailed {response : Response} (h : Is5xx response) (u : Unit) (err : Failure) :
      Settled p timeoutMs t url [⟨.get url, .ok response⟩, ⟨.sleep RETRY_DELAY_MS, u⟩, ⟨.get url, .error err⟩]
        (.error (p.failed timeoutMs err)) (marks err)
  | retried {response response' : Response} (h : Is5xx response) (u : Unit) {as r ws}
      (hc : Concludes p t url response' as r ws) :
      Settled p timeoutMs t url (⟨.get url, .ok response⟩ :: ⟨.sleep RETRY_DELAY_MS, u⟩ :: ⟨.get url, .ok response'⟩ :: as) r ws

/-- A rejection of the fetcher, after both handlers. -/
def fail {α : Type} (p : Service V Body) (timeoutMs : V) (err : Failure) : Fetch Body α :=
  (marks err).foldr .assign (.done (.error (p.failed timeoutMs err)))

variable {as : List (Exchange Body)} {ws : List Bool}

/-- The answers of the fetcher, in order: one for each request that was sent. -/
def gets (as : List (Exchange Body)) : List (Except Failure Response) :=
  as.filterMap fun | ⟨.get _, a⟩ => some a | _ => none

def retries : List (Except Failure Response) → Bool
  | .ok response :: _ => Is5xx response
  | _ => false

/-- What a call that ended with the answers `as` has done; the last answer of the fetcher decides. -/
structure Policy (p : Service V Body) (timeoutMs : V) (t : ℚ) (url : Url) (as : List (Exchange Body))
    (r : Except Failure (IrradiancePoint (Option Int) V)) (ws : List Bool) : Prop where
  /-- one retry after a 5xx, none after anything else, a timeout included -/
  requests : (gets as).length = if retries (gets as) then 2 else 1
  urls : ∀ x ∈ as, ∀ url', x.1 = .get url' → url' = url
  rejected : ∀ err, (gets as).getLast? = some (.error err) → r = .error (p.failed timeoutMs err) ∧ ws = marks err
  refused : ∀ response, (gets as).getLast? = some (.ok response) → response.ok = false →
    r = .error (p.refusal url response) ∧ ws = if response.status = 404 then [] else [false]
  resolved : ∀ point, r = .ok point ↔ ∃ response body, (gets as).getLast? = some (.ok response) ∧ response.ok = true ∧
    (⟨.json, .ok body⟩ : Exchange Body) ∈ as ∧ p.read body t = .ok point
  healthy : ws = [true] ↔ ∃ point, r = .ok point
  unhealthy : ws = [false] ↔
    (∃ response, (gets as).getLast? = some (.ok response) ∧ response.ok = false ∧ response.status ≠ 404) ∨
      ∃ err, (gets as).getLast? = some (.error err) ∧ ¬ IsAbort err ∧ ∀ e, err ≠ .providerError e
  atMostOne : ws = [] ∨ ws = [true] ∨ ws = [false]

omit [JsDouble V] in
theorem Concludes.gets_eq_nil {response : Response} (h : Concludes p t url response as r ws) : gets as = [] := by
  cases h <;> rfl

/-- The last answer of the fetcher, and how the call goes on from it. -/
theorem Settled.last (h : Settled p timeoutMs t url as r ws) :
    (∃ err, (gets as).getLast? = some (.error err) ∧ (r = .error (p.failed timeoutMs err) ∧ ws = marks err) ∧
        ∀ body, (⟨.json, .ok body⟩ : Exchange Body) ∉ as) ∨
      ∃ response as', (gets as).getLast? = some (.ok response) ∧ Concludes p t url response as' r ws ∧
        ∀ body, (⟨.json, .ok body⟩ : Exchange Body) ∈ as ↔ (⟨.json, .ok body⟩ : Exchange Body) ∈ as' := by
  cases h with
  | failed err => exact .inl ⟨err, rfl, ⟨rfl, rfl⟩, by simp⟩
  | retryFailed h5 u err => exact .inl ⟨err, rfl, ⟨rfl, rfl⟩, by simp⟩
  | @first response h5 as r ws hc =>
    refine .inr ⟨response, as, ?_, hc, by simp⟩
    show (_ :: gets as).getLast? = _
    rw [hc.gets_eq_nil]
    rfl
  | @retried response response' h5 u as r ws hc =>
    refine .inr ⟨response', as, ?_, hc, by simp⟩
    show (_ :: _ :: gets as).getLast? = _
    rw [hc.gets_eq_nil]
    rfl

theorem Settled.requests (h : Settled p timeoutMs t url as r ws) :
    (gets as).length = if retries (gets as) then 2 else 1 := by
  cases h with
  | failed err => rfl
  | retryFailed h5 u err => exact (if_pos (decide_eq_true h5)).symm
  | @first response h5 as r ws hc =>
    show (_ :: gets as).length = if retries (_ :: gets as) then 2 else 1
    rw [hc.gets_eq_nil, retries, if_neg (by simpa using h5)]
    rfl
  | @retried response response' h5 u as r ws hc =>
    show (_ :: _ :: gets as).length = if retries (_ :: _ :: gets as) then 2 else 1
    rw [hc.gets_eq_nil, retries, if_pos (decide_eq_true h5)]
    rfl

omit [JsDouble V] in
theorem Concludes.eq_json {response : Response} (h : Concludes p t url response as r ws) : ∀ x ∈ as, x.1 = .json := by
  cases h <;> simp

theorem Settled.urls (h : Settled p timeoutMs t url as r ws) : ∀ x ∈ as, ∀ url', x.1 = .get url' → url' = url := by
  intro x hx url' hurl
  cases h with
  | failed | retryFailed =>
    simp only [List.mem_cons, List.not_mem_nil, or_false] at hx
    rcases hx with rfl | rfl | rfl <;> simp_all
  | first h5 hc =>
    rcases List.mem_cons.1 hx with rfl | hx
    · exact (Op.get.inj hurl).symm
    · simp [hc.eq_json x hx] at hurl
  | retried h5 u hc =>
    simp only [List.mem_cons] at hx
    rcases hx with rfl | rfl | rfl | hx
    · exact (Op.get.inj hurl).symm
    · cases hurl
    · exact (Op.get.inj hurl).symm
    · simp [hc.eq_json x hx] at hurl

structure Args (V : Type) where
  nowMs : Int
  lat : V
  lng : V
  timestamp : V

/-- What happens to a provider: a call, or the answer that call number `i` waits for. -/
inductive Happening (V Body : Type)
  | fetch (x : Args V)
  | answer (i : Nat) (a : Exchange Body)

def calls : List (Happening V Body) → List (Args V) := List.filterMap fun | .fetch x => some x | .answer .. => none

def Happening.event (p : Service V Body) (timeoutMs : V) :
    Happening V Body → Event Op (Answer Body) Bool Failure (IrradiancePoint (Option Int) V)
  | .fetch x => .spawn (p.fetch timeoutMs x.nowMs x.lat x.lng x.timestamp)
  | .answer i a => .answer i a

/-- A provider from its construction on, with `healthy` as the shared variable. -/
def run (p : Service V Body) (timeoutMs : V) (hs : List (Happening V Body)) :
    Option (Pool Op (Answer Body) Bool Failure (IrradiancePoint (Option Int) V)) :=
  Pool.run true (hs.map (Happening.event p timeoutMs))

/-- What a call that ended has done: nothing but throw when its inputs are invalid, and otherwise `Policy`. -/
def Outcome (p : Service V Body) (timeoutMs : V) (x : Args V) (as : List (Exchange Body))
    (r : Except Failure (IrradiancePoint (Option Int) V)) (ws : List Bool) : Prop :=
  match p.prepare x.nowMs x.lat x.lng x.timestamp with
  | .error err => as = [] ∧ r = .error err ∧ ws = []
  | .ok (t, url) => Policy p timeoutMs t url as r ws

end Service

namespace SampleCalls

instance : JsDouble Int where
  value v := some v

def pvgis : Service Int (JsonBody (PVGISResponse Int)) := PVGIS.service id

def url : Url :=
  ⟨"https://re.jrc.ec.europa.eu/api/v5_2/seriescalc",
    [("lat", "0"), ("lon", "0"), ("startyear", "1970"), ("endyear", "1970"), ("outputformat", "json")]⟩

def midnight : JsonBody (PVGISResponse Int) := .record ⟨some [⟨"19700101:0000", some 7, none, none⟩], none⟩

/-- Call 0 gets a 503 and, on its retry, times out; call 1 resolves; call 2 is rejected with an object without a string; the
body of call 3 is `null`. -/
def interleaved : List (Service.Happening Int (JsonBody (PVGISResponse Int))) :=
  [.fetch ⟨0, 0, 0, 1⟩, .fetch ⟨0, 0, 0, 1⟩, .answer 0 ⟨.get url, .ok ⟨503⟩⟩, .fetch ⟨0, 0, 0, 1⟩, .fetch ⟨0, 0, 0, 1⟩,
    .answer 1 ⟨.get url, .ok ⟨200⟩⟩, .answer 1 ⟨.json, .ok midnight⟩, .answer 0 ⟨.sleep 500, ()⟩,
    .answer 2 ⟨.get url, .error (.unreadable (typeError "Cannot convert object to primitive value"))⟩,
    .answer 3 ⟨.get url, .ok ⟨200⟩⟩, .answer 3 ⟨.json, .ok .null⟩,
    .answer 0 ⟨.get url, .error (.error "AbortError" "aborted")⟩]

end SampleCalls

end Weather
end InfraVeritas
