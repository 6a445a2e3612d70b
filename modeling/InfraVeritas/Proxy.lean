import InfraVeritas.V3Admin

/-!
# The proxy of `EnergyProofRegistryV3`

Every external function that the ERC-1967 proxy delegates to V3, the views and the UUPS upgrade included. An
upgrade installs an implementation with the code of this version and may call it with the rest of its data, as
the same sender; what other code would do to the storage is not modelled.
-/

namespace InfraVeritas
open Checks

namespace V3

/-- The `view` and `pure` functions: they write no storage and emit nothing. -/
inductive View
  | DEFAULT_ADMIN_ROLE
  | OPERATOR_ROLE
  | PAUSER_ROLE
  | UPGRADER_ROLE
  | MAX_GAP_SECONDS
  | MAX_EPOCH_FUTURE_DRIFT
  | UPGRADE_INTERFACE_VERSION
  | deviceRegistry
  | p256Verifier
  | honkVerifier
  | lastSubmissionTimestamp (deviceId : Bytes32)
  | usedSessionKeys (sessionKey : Bytes32)
  | domainSeparator
  | eip712Digest (pubInputs : PublicInputs)
  | hasRole (role : Bytes32) (account : Address)
  | getRoleAdmin (role : Bytes32)
  | supportsInterface (interfaceId : BitVec 32)
  | paused
  | proxiableUUID

/-- What the calldata of a message asks for. -/
inductive External
  | call (c : Call)
  | view (v : View)
  | upgradeToAndCall (newImplementation : Address) (data : Option External)
  /-- An unknown selector, or arguments that do not decode. -/
  | malformed

inductive ProxyError
  | v3 (e : V3Error)
  /-- A revert without data. -/
  | reverted
  | uupsUnauthorizedCallContext
  | uupsUnsupportedProxiableUUID (slot : Bytes32)
  | erc1967InvalidImplementation (implementation : Address)
  | erc1967NonPayable

/-- `upgrades` are the `Upgraded` events, oldest first. -/
@[ext]
structure ProxyState where
  storage : V3State
  implementation : Address
  upgrades : List Address

/-- What the other accounts answer: `proxiableUUID()`, when it does not revert, and whether there is code. -/
structure Accounts where
  proxiableUUID : Address → Option Bytes32
  hasCode : Address → Bool

def IMPLEMENTATION_SLOT : Bytes32 := 0x360894a13ba1a3210667c828492db98dca3e2076cc3735a920a3ca505d382bbc

/-- `_upgradeToAndCallUUPS` up to its call. -/
def setImplementation (accounts : Accounts) (p : ProxyState) (newImplementation : Address) :
    Except ProxyError ProxyState :=
  match accounts.proxiableUUID newImplementation with
  | none => .error (.erc1967InvalidImplementation newImplementation)
  | some slot => do
    revertIf (slot ≠ IMPLEMENTATION_SLOT) (.uupsUnsupportedProxiableUUID slot)
    revertIf (¬ accounts.hasCode newImplementation) (.erc1967InvalidImplementation newImplementation)
    return { p with implementation := newImplementation, upgrades := p.upgrades ++ [newImplementation] }

/-- The delegated call; `value` is the ether sent along. Only `upgradeToAndCall` is payable. -/
def dispatch (keccak : Bytes → Bytes32) (accounts : Accounts) (env : Env) (value : Nat) :
    ProxyState → External → Except ProxyError ProxyState
  | p, .call c => do
    revertIf (value ≠ 0) .reverted
    let s ← (call keccak env p.storage c).mapError .v3
    return { p with storage := s }
  | _, .view .proxiableUUID => do
    revertIf (value ≠ 0) .reverted
    throw .uupsUnauthorizedCallContext
  | p, .view _ => do
    revertIf (value ≠ 0) .reverted
    return p
  | p, .upgradeToAndCall newImplementation data => do
    (AccessControl.checkRole p.storage.roles (UPGRADER_ROLE keccak) env.sender).mapError (.v3 ∘ .oz)
    let p ← setImplementation accounts p newImplementation
    match data with
    | none => do
      revertIf (value ≠ 0) .erc1967NonPayable
      return p
    | some e => dispatch keccak accounts env value p e
  | _, .malformed => .error .reverted

structure Message where
  env : Env
  accounts : Accounts
  value : Nat
  external : External

/-- A message to the proxy: a revert undoes everything. -/
def deliver (keccak : Bytes → Bytes32) (p : ProxyState) (m : Message) : ProxyState :=
  match dispatch keccak m.accounts m.env m.value p m.external with
  | .ok p' => p'
  | .error _ => p

/-! ### What a message can do -/

variable {keccak : Bytes → Bytes32} {accounts : Accounts} {env : Env} {value : Nat} {p p' : ProxyState}

/-- The storage is as before or as one call of V3 by the sender leaves it; a new implementation takes the role. -/
structure Delegated (keccak : Bytes → Bytes32) (env : Env) (p p' : ProxyState) : Prop where
  storage : p'.storage = p.storage ∨ ∃ c, call keccak env p.storage c = .ok p'.storage
  upgrade : p'.implementation = p.implementation ∧ p'.upgrades = p.upgrades ∨
    AccessControl.hasRole p.storage.roles (UPGRADER_ROLE keccak) env.sender = true

theorem Delegated.refl (p : ProxyState) : Delegated keccak env p p := ⟨.inl rfl, .inl ⟨rfl, rfl⟩⟩

theorem storage_setImplementation {a : Address} (h : setImplementation accounts p a = .ok p') :
    p'.storage = p.storage := by
  unfold setImplementation at h
  split at h
  · cases h
  · simp only [bind_eq_ok, exists_punit, revertIf_eq_ok, pure_eq_ok] at h
    obtain ⟨-, -, rfl⟩ := h
    rfl

/-- Induction on the message: the call of an upgrade is a message again. -/
theorem delegated_of_dispatch {e : External} (h : dispatch keccak accounts env value p e = .ok p') :
    Delegated keccak env p p' := by
  fun_induction dispatch keccak accounts env value p e with
  | case1 p c =>
    simp only [bind_eq_ok, exists_punit, mapError_eq_ok, pure_eq_ok] at h
    obtain ⟨-, s, hs, rfl⟩ := h
    exact ⟨.inr ⟨c, hs⟩, .inl ⟨rfl, rfl⟩⟩
  | case2 => simp [bind_eq_ok, throw, throwThe, MonadExceptOf.throw] at h
  | case3 p v =>
    simp only [bind_eq_ok, exists_punit, pure_eq_ok] at h
    rw [← h.2]
    exact .refl p
  | case4 p newImplementation data ih =>
    simp only [bind_eq_ok, exists_punit, mapError_eq_ok, AccessControl.checkRole_eq_ok] at h
    obtain ⟨hrole, p₁, hp, h⟩ := h
    have hs := storage_setImplementation hp
    cases data with
    | none =>
      simp only [bind_eq_ok, exists_punit, pure_eq_ok] at h
      rw [← h.2]
      exact ⟨.inl hs, .inr hrole⟩
    | some e =>
      have hd := (ih p₁ h).storage
      rw [hs] at hd
      exact ⟨hd, .inr hrole⟩
  | case5 => cases h

theorem deliver_delegated (p : ProxyState) (m : Message) : Delegated keccak m.env p (deliver keccak p m) := by
  rcases h : dispatch keccak m.accounts m.env m.value p m.external with e | p'
  · rw [deliver, h]
    exact .refl p
  · rw [deliver, h]
    exact delegated_of_dispatch h

/-- What the calls in the contexts `C` preserve, a run of messages in these contexts preserves. -/
theorem run_preserves {I : V3State → Prop} {C : Env → Prop}
    (hI : ∀ env s c s', C env → I s → call keccak env s c = .ok s' → I s') {msgs : List Message}
    (hm : ∀ m ∈ msgs, C m.env) (h : I p.storage) : I (Runs.run (deliver keccak) p msgs).storage := by
  refine Runs.run_inv_of_steps (I := fun p : ProxyState => I p.storage) h fun x hx hs => ?_
  rcases (@deliver_delegated keccak x.1 x.2).storage with he | ⟨c, hc⟩
  · rw [he]
    exact hs
  · exact hI x.2.env _ c _ (hm x.2 (Runs.input_mem _ hx)) hs hc

end V3
end InfraVeritas
