import InfraVeritas.Drain
import InfraVeritas.Persistence

/-!
# `EnsembleProvider`

The outcomes of the weather providers, what `fetch` makes of each, and the classification of the points that
came back. The numbers are those of any type with JavaScript's operations on them; a value that a provider
throws is known by how it reads as a string, and reading it may throw in turn.
-/

namespace InfraVeritas
open Validation

namespace Weather

inductive ProviderErrorCode
  | network
  | rateLimit
  | malformed
  | notFound
deriving DecidableEq, Repr

def ProviderErrorCode.text : ProviderErrorCode → String
  | .network => "network"
  | .rateLimit => "rate-limit"
  | .malformed => "malformed"
  | .notFound => "not-found"

structure ProviderError where
  provider : String
  code : ProviderErrorCode
  message : String
deriving DecidableEq, Repr

/-- The constructor of `ProviderError`. -/
def providerError (provider : String) (code : ProviderErrorCode) (message : String) : ProviderError :=
  ⟨provider, code, s!"{provider}: {code.text}: {message}"⟩

inductive Source
  | openMeteo
  | nasaPower
  | pvgis
deriving DecidableEq, Repr

structure IrradiancePoint (T V : Type) where
  timestamp : T
  ghi : V
  dni : Option V
  dhi : Option V
  cloudCover : Option V
  source : Source
deriving DecidableEq, Repr

structure ProviderResult (T V : Type) where
  provider : String
  point : Option (IrradiancePoint T V)
  error : Option ProviderError
deriving DecidableEq, Repr

structure EnsembleResult (T V : Type) where
  ghi : V
  providersResponded : Nat
  stdDev : Option V
  relativeDivergence : Option V
  perProvider : List (ProviderResult T V)
  status : EnsembleStatus
deriving DecidableEq, Repr

/-- What a provider's `fetch` throws or rejects with. -/
inductive Rejection
  | providerError (err : ProviderError)
  /-- any other `Error`, by its message -/
  | error (message : Except Thrown String)
  /-- any other value, by `String(reason)` -/
  | other (text : Except Thrown String)

inductive FetchCall (T V : Type)
  | resolves (point : IrradiancePoint T V)
  | rejects (reason : Rejection)
  | throws (reason : Rejection)

structure Provider (T V : Type) where
  name : String
  call : FetchCall T V

structure EnsembleOptions (V : Type) where
  divergenceThreshold : Option V
  nightStdThreshold : Option V

structure EnsembleProvider (T V : Type) where
  providers : List (Provider T V)
  divergenceThreshold : V
  nightStdThreshold : V
  providers_ne : providers ≠ []

/-! ### The numbers -/

section Numbers
variable {T V : Type} [Zero V] [Add V] [Sub V] [Mul V] [Div V] [NatCast V] [LE V] [DecidableLE V] [BEq V]

def DEFAULT_DIVERGENCE_THRESHOLD : V := ((30 : Nat) : V) / ((100 : Nat) : V)
def DEFAULT_NIGHT_STD_THRESHOLD : V := ((50 : Nat) : V)

instance natCastFloat : NatCast Float := ⟨Float.ofNat⟩

/-- The constructor of `EnsembleProvider`. -/
def ensembleProvider (providers : List (Provider T V)) (opts : EnsembleOptions V) : Except String (EnsembleProvider T V) :=
  if h : providers = [] then .error "EnsembleProvider requires at least one provider"
  else .ok ⟨providers, opts.divergenceThreshold.getD DEFAULT_DIVERGENCE_THRESHOLD,
    opts.nightStdThreshold.getD DEFAULT_NIGHT_STD_THRESHOLD, h⟩

def computeMedian (sortedAsc : List V) : V :=
  let n := sortedAsc.length
  if n = 0 then 0
  else if n % 2 = 1 then sortedAsc.getD ((n - 1) / 2) 0
  else (sortedAsc.getD (n / 2 - 1) 0 + sortedAsc.getD (n / 2) 0) / ((2 : Nat) : V)

def computeStdDev (sqrt : V → V) (values : List V) : V :=
  if values.length < 2 then 0
  else
    let mean : V := values.foldl (fun s x => s + x) (0 : V) / (values.length : V)
    let variance : V := values.foldl (fun s x => s + (x - mean) * (x - mean)) (0 : V) / (values.length : V)
    sqrt variance

def sortAsc (values : List V) : List V := values.mergeSort fun a b => a ≤ b

namespace EnsembleProvider

def classify (e : EnsembleProvider T V) (sqrt : V → V) (validPoints : List (IrradiancePoint T V))
    (perProvider : List (ProviderResult T V)) : EnsembleResult T V :=
  match validPoints with
  | [] => ⟨0, 0, none, none, perProvider, .unavailable⟩
  | [single] => ⟨single.ghi, 1, none, none, perProvider, .degraded⟩
  | _ =>
    let ghis := sortAsc (validPoints.map (·.ghi))
    let median := computeMedian ghis
    let stdDev := computeStdDev sqrt ghis
    if median == 0 then
      ⟨median, validPoints.length, some stdDev, none, perProvider,
        if stdDev ≥ e.nightStdThreshold then .divergent else .ok⟩
    else
      let relativeDivergence := stdDev / median
      ⟨median, validPoints.length, some stdDev, some relativeDivergence, perProvider,
        if relativeDivergence ≥ e.divergenceThreshold then .divergent else .ok⟩

/-- A rejection as a `ProviderError`. -/
def normalize (fallbackName : String) : Rejection → Except Thrown ProviderError
  | .providerError err => .ok err
  | .error message => message.map (providerError fallbackName .network)
  | .other text => text.map (providerError fallbackName .network)

/-- One entry of `perProvider`. A synchronous throw is a rejection of the `async` callback around it. -/
def settled (p : Provider T V) : Except Thrown (ProviderResult T V) :=
  match p.call with
  | .resolves point => .ok ⟨p.name, some point, none⟩
  | .rejects reason => (normalize p.name reason).map fun err => ⟨p.name, none, some err⟩
  | .throws reason => (normalize p.name reason).map fun err => ⟨p.name, none, some err⟩

def fetch (e : EnsembleProvider T V) (sqrt : V → V) : Except Thrown (EnsembleResult T V) := do
  let perProvider ← e.providers.mapM settled
  return e.classify sqrt (perProvider.filterMap (·.point)) perProvider

end EnsembleProvider
end Numbers

/-! ### What each provider comes to -/

/-- Reading what was thrown as a string does not throw. -/
def Rejection.Readable : Rejection → Prop
  | .providerError _ => True
  | .error message => ∃ text, message = .ok text
  | .other text => ∃ s, text = .ok s

def FetchCall.point {T V : Type} : FetchCall T V → Option (IrradiancePoint T V)
  | .resolves point => some point
  | .rejects _ => none
  | .throws _ => none

/-- The points that come back, in the order of the providers. -/
def EnsembleProvider.points {T V : Type} (e : EnsembleProvider T V) : List (IrradiancePoint T V) :=
  e.providers.filterMap (·.call.point)

def FetchCall.Readable {T V : Type} : FetchCall T V → Prop
  | .resolves _ => True
  | .rejects reason => reason.Readable
  | .throws reason => reason.Readable

/-- The entry carries what the provider came to: its point, or a `ProviderError`. -/
def Answers {T V : Type} (p : Provider T V) (entry : ProviderResult T V) : Prop :=
  entry.provider = p.name ∧
    match p.call with
    | .resolves point => entry.point = some point ∧ entry.error = none
    | .rejects _ => entry.point = none ∧ entry.error.isSome = true
    | .throws _ => entry.point = none ∧ entry.error.isSome = true

/-- The result accounts for the providers, one by one and in number. -/
structure Accounts {T V : Type} (e : EnsembleProvider T V) (r : EnsembleResult T V) : Prop where
  length : r.perProvider.length = e.providers.length
  answers : List.Forall₂ Answers e.providers r.perProvider
  exclusive : ∀ entry ∈ r.perProvider, entry.point.isSome = !entry.error.isSome
  responded : r.providersResponded = r.perProvider.countP (·.point.isSome)
  unavailable : r.status = .unavailable ↔ r.providersResponded = 0
  degraded : r.status = .degraded ↔ r.providersResponded = 1
  classified : r.status = .ok ∨ r.status = .divergent ↔ 2 ≤ r.providersResponded
  stdDev : r.stdDev.isSome = true ↔ 2 ≤ r.providersResponded

namespace EnsembleProvider
variable {T V : Type}

theorem normalize_eq_ok (name : String) {reason : Rejection} :
    (∃ err, normalize name reason = .ok err) ↔ reason.Readable := by
  cases reason with
  | providerError err => exact ⟨fun _ => trivial, fun _ => ⟨err, rfl⟩⟩
  | error message =>
    rcases message with thrown | text
    · exact ⟨fun ⟨err, h⟩ => (by cases h), fun ⟨s, h⟩ => (by cases h)⟩
    · exact ⟨fun _ => ⟨text, rfl⟩, fun _ => ⟨_, rfl⟩⟩
  | other text =>
    rcases text with thrown | text
    · exact ⟨fun ⟨err, h⟩ => (by cases h), fun ⟨s, h⟩ => (by cases h)⟩
    · exact ⟨fun _ => ⟨text, rfl⟩, fun _ => ⟨_, rfl⟩⟩

theorem map_normalize_eq_ok {p : Provider T V} {reason : Rejection} :
    (∃ entry : ProviderResult T V,
      (normalize p.name reason).map (fun err => (⟨p.name, none, some err⟩ : ProviderResult T V)) = .ok entry) ↔
      reason.Readable := by
  rw [← normalize_eq_ok p.name]
  rcases normalize p.name reason with thrown | err
  · exact ⟨fun ⟨_, h⟩ => (by cases h), fun ⟨_, h⟩ => (by cases h)⟩
  · exact ⟨fun _ => ⟨err, rfl⟩, fun _ => ⟨_, rfl⟩⟩

theorem settled_eq_ok {p : Provider T V} : (∃ entry, settled p = .ok entry) ↔ p.call.Readable := by
  obtain ⟨name, call⟩ := p
  cases call with
  | resolves point => exact ⟨fun _ => trivial, fun _ => ⟨_, rfl⟩⟩
  | rejects reason => exact map_normalize_eq_ok (p := ⟨name, .rejects reason⟩)
  | throws reason => exact map_normalize_eq_ok (p := ⟨name, .throws reason⟩)

theorem answers_of_settled {p : Provider T V} {entry : ProviderResult T V} (h : settled p = .ok entry) :
    Answers p entry := by
  obtain ⟨name, call⟩ := p
  have hmap (reason : Rejection) (h : (normalize name reason).map (fun err => (⟨name, none, some err⟩ : ProviderResult T V)) =
      .ok entry) : entry.provider = name ∧ entry.point = none ∧ entry.error.isSome = true := by
    rcases hn : normalize name reason with thrown | err
    · rw [hn] at h; cases h
    · rw [hn] at h; cases h; exact ⟨rfl, rfl, rfl⟩
  cases call with
  | resolves point => cases h; exact ⟨rfl, rfl, rfl⟩
  | rejects reason => exact hmap reason h
  | throws reason => exact hmap reason h

theorem Answers.exclusive {p : Provider T V} {entry : ProviderResult T V} (h : Answers p entry) :
    entry.point.isSome = !entry.error.isSome := by
  obtain ⟨name, call⟩ := p
  cases call with
  | resolves point => simp [h.2.1, h.2.2]
  | rejects reason => simp [h.2.1, h.2.2]
  | throws reason => simp [h.2.1, h.2.2]

theorem Answers.point {p : Provider T V} {entry : ProviderResult T V} (h : Answers p entry) :
    entry.point = p.call.point := by
  obtain ⟨name, call⟩ := p
  cases call with
  | resolves point => exact h.2.1
  | rejects reason => exact h.2.1
  | throws reason => exact h.2.1

theorem filterMap_point_of_answers {providers : List (Provider T V)} {entries : List (ProviderResult T V)}
    (h : List.Forall₂ Answers providers entries) :
    entries.filterMap (·.point) = providers.filterMap (·.call.point) := by
  induction h with
  | nil => rfl
  | cons hp _ ih => rw [List.filterMap_cons, List.filterMap_cons, ih, Answers.point hp]

theorem mapM_settled_eq_ok {providers : List (Provider T V)} :
    (∃ entries, providers.mapM settled = .ok entries) ↔ ∀ p ∈ providers, p.call.Readable := by
  induction providers with
  | nil => exact ⟨fun _ p hp => (by cases hp), fun _ => ⟨[], rfl⟩⟩
  | cons p providers ih =>
    rw [List.forall_mem_cons, ← settled_eq_ok, ← ih]
    constructor
    · rintro ⟨entries, h⟩
      rw [List.mapM_cons] at h
      obtain ⟨entry, hp, h⟩ := Checks.bind_eq_ok.1 h
      obtain ⟨rest, hrest, -⟩ := Checks.bind_eq_ok.1 h
      exact ⟨⟨entry, hp⟩, rest, hrest⟩
    · rintro ⟨⟨entry, hp⟩, rest, hrest⟩
      refine ⟨entry :: rest, ?_⟩
      rw [List.mapM_cons, hp, hrest]
      rfl

theorem answers_of_mapM {providers : List (Provider T V)} {entries : List (ProviderResult T V)}
    (h : providers.mapM settled = .ok entries) : List.Forall₂ Answers providers entries := by
  induction providers generalizing entries with
  | nil => cases h; exact .nil
  | cons p providers ih =>
    rw [List.mapM_cons] at h
    obtain ⟨entry, hp, h⟩ := Checks.bind_eq_ok.1 h
    obtain ⟨rest, hrest, h⟩ := Checks.bind_eq_ok.1 h
    cases h
    exact .cons (answers_of_settled hp) (ih hrest)

section Classify
variable [Zero V] [Div V] [LE V] [DecidableLE V] [BEq V]

/-- The status of two points or more, by their median and deviation. -/
def spreadStatus (e : EnsembleProvider T V) (median stdDev : V) : EnsembleStatus :=
  if median == 0 then if stdDev ≥ e.nightStdThreshold then .divergent else .ok
  else if stdDev / median ≥ e.divergenceThreshold then .divergent else .ok

theorem spreadStatus_cases (e : EnsembleProvider T V) (median stdDev : V) :
    e.spreadStatus median stdDev = .ok ∨ e.spreadStatus median stdDev = .divergent := by
  rw [spreadStatus]
  split <;> split <;> simp

variable [Add V] [Sub V] [Mul V] [NatCast V] {e : EnsembleProvider T V} {sqrt : V → V}
  {validPoints : List (IrradiancePoint T V)} {perProvider : List (ProviderResult T V)}

theorem classify_of_two_le (h : 2 ≤ validPoints.length) :
    e.classify sqrt validPoints perProvider =
      let ghis := sortAsc (validPoints.map (·.ghi))
      ⟨computeMedian ghis, validPoints.length, some (computeStdDev sqrt ghis),
        if computeMedian ghis == 0 then none else some (computeStdDev sqrt ghis / computeMedian ghis), perProvider,
        e.spreadStatus (computeMedian ghis) (computeStdDev sqrt ghis)⟩ := by
  rcases validPoints with _ | ⟨a, _ | ⟨b, rest⟩⟩
  · simp at h
  · simp at h
  · dsimp only [classify, spreadStatus]
    split
    · rfl
    · rfl

theorem classify_perProvider : (e.classify sqrt validPoints perProvider).perProvider = perProvider := by
  rcases validPoints with _ | ⟨a, _ | ⟨b, rest⟩⟩
  · rfl
  · rfl
  · rw [classify_of_two_le (by simp)]

theorem classify_providersResponded :
    (e.classify sqrt validPoints perProvider).providersResponded = validPoints.length := by
  rcases validPoints with _ | ⟨a, _ | ⟨b, rest⟩⟩
  · rfl
  · rfl
  · rw [classify_of_two_le (by simp)]

/-- The status and the deviation by the number of points. -/
theorem classify_count (e : EnsembleProvider T V) (sqrt : V → V) (validPoints : List (IrradiancePoint T V))
    (perProvider : List (ProviderResult T V)) :
    let r := e.classify sqrt validPoints perProvider
    (r.status = .unavailable ↔ r.providersResponded = 0) ∧ (r.status = .degraded ↔ r.providersResponded = 1) ∧
      (r.status = .ok ∨ r.status = .divergent ↔ 2 ≤ r.providersResponded) ∧
      (r.stdDev.isSome = true ↔ 2 ≤ r.providersResponded) := by
  rcases validPoints with _ | ⟨a, _ | ⟨b, rest⟩⟩
  · simp [classify]
  · simp [classify]
  · rw [classify_of_two_le (by simp)]
    rcases spreadStatus_cases e (computeMedian (sortAsc ((a :: b :: rest).map (·.ghi))))
      (computeStdDev sqrt (sortAsc ((a :: b :: rest).map (·.ghi)))) with hs | hs
    · dsimp only
      rw [hs]
      simp
    · dsimp only
      rw [hs]
      simp

theorem accounts_of_answers (h : List.Forall₂ Answers e.providers perProvider) :
    Accounts e (e.classify sqrt (perProvider.filterMap (·.point)) perProvider) := by
  have hcount : (perProvider.filterMap (·.point)).length = perProvider.countP (·.point.isSome) :=
    List.length_filterMap_eq_countP
  obtain ⟨hu, hd, hc, hs⟩ := classify_count e sqrt (perProvider.filterMap (·.point)) perProvider
  refine ⟨?_, ?_, ?_, ?_, hu, hd, hc, hs⟩
  · rw [classify_perProvider, h.length_eq]
  · rwa [classify_perProvider]
  · rw [classify_perProvider]
    intro entry hentry
    obtain ⟨i, hi, rfl⟩ := List.getElem_of_mem hentry
    exact Answers.exclusive ((List.forall₂_iff_get.1 h).2 i (h.length_eq ▸ hi) hi)
  · rw [classify_perProvider, classify_providersResponded, hcount]

/-- A fetch that resolves classifies the points. -/
theorem fetch_eq_ok {r : EnsembleResult T V} (h : e.fetch sqrt = .ok r) :
    ∃ entries, List.Forall₂ Answers e.providers entries ∧ r = e.classify sqrt e.points entries := by
  obtain ⟨entries, hentries, h⟩ := Checks.bind_eq_ok.1 h
  have ha := answers_of_mapM hentries
  cases h
  exact ⟨entries, ha, by rw [filterMap_point_of_answers ha, points]⟩

theorem fetch_resolves_iff (e : EnsembleProvider T V) (sqrt : V → V) :
    (∃ r, e.fetch sqrt = .ok r) ↔ ∀ p ∈ e.providers, p.call.Readable := by
  rw [← mapM_settled_eq_ok]
  constructor
  · rintro ⟨r, h⟩
    obtain ⟨entries, hentries, -⟩ := Checks.bind_eq_ok.1 h
    exact ⟨entries, hentries⟩
  · rintro ⟨entries, h⟩
    refine ⟨e.classify sqrt (entries.filterMap (·.point)) entries, ?_⟩
    rw [fetch, h]
    rfl

theorem accounts_of_fetch {r : EnsembleResult T V} (h : e.fetch sqrt = .ok r) : Accounts e r := by
  obtain ⟨entries, ha, rfl⟩ := fetch_eq_ok h
  rw [points, ← filterMap_point_of_answers ha]
  exact accounts_of_answers ha

/-- A fetch accounts for its providers exactly when everything they throw can be read. -/
theorem fetch_accounts_iff (e : EnsembleProvider T V) (sqrt : V → V) :
    (∃ r, e.fetch sqrt = .ok r ∧ Accounts e r) ↔ ∀ p ∈ e.providers, p.call.Readable := by
  rw [← fetch_resolves_iff e sqrt]
  exact ⟨fun ⟨r, h, _⟩ => ⟨r, h⟩, fun ⟨r, h⟩ => ⟨r, h, accounts_of_fetch h⟩⟩

/-- `Object.create(null)`. -/
def bareObject : Rejection := .other (.error (.error (.other "Cannot convert object to primitive value")))

/-- An object without a prototype has no string: one provider that rejects with it fails the call. -/
theorem fetch_fails_unreadable :
    ¬ ∀ e : EnsembleProvider Int Float, ∃ r, e.fetch Float.sqrt = .ok r ∧ Accounts e r := by
  intro h
  obtain ⟨r, h, -⟩ := h ⟨[⟨"open-meteo", .rejects bareObject⟩], 0.3, 50, List.cons_ne_nil _ _⟩
  cases h

end Classify

end EnsembleProvider
end Weather
end InfraVeritas
