import InfraVeritas.Proxy

/-!
# The cached domain separator

`CacheInv` ties the two cache slots together: both are zero, or the separator is the one of the cached chain
id at the proxy's address. Both initialisers establish it and nothing else writes the slots, so
`domainSeparator` never answers for another chain.
-/

namespace InfraVeritas
open Checks

namespace V3
variable {keccak : Bytes → Bytes32} {env env' : Env} {self : Address} {s s' : V3State} {p : ProxyState}

/-- The separator depends on the chain id and the address only. -/
theorem buildDomainSeparator_congr (hc : env'.chainid = env.chainid) (hs : env'.self = env.self) :
    buildDomainSeparator keccak env' = buildDomainSeparator keccak env := by
  rw [buildDomainSeparator, buildDomainSeparator, hc, hs]

/-- The cache holds the separator of its chain. -/
def Cached (keccak : Bytes → Bytes32) (self : Address) (s : V3State) : Prop :=
  ∃ env : Env, env.self = self ∧ env.chainid = s.cachedChainId ∧ s.cachedDomainSeparator = buildDomainSeparator keccak env

def CacheInv (keccak : Bytes → Bytes32) (self : Address) (s : V3State) : Prop :=
  (s.cachedChainId = 0 ∧ s.cachedDomainSeparator = 0) ∨ Cached keccak self s

/-- `s'` has the cache slots of `s`. -/
structure SameCache (s s' : V3State) : Prop where
  chainId : s'.cachedChainId = s.cachedChainId
  domainSeparator : s'.cachedDomainSeparator = s.cachedDomainSeparator

/-- The slots after a call: untouched, or written together. -/
inductive Caches (keccak : Bytes → Bytes32) (env : Env) (s s' : V3State) : Prop
  | same (h : SameCache s s')
  | cached (hc : s'.cachedChainId = env.chainid) (hs : s'.cachedDomainSeparator = buildDomainSeparator keccak env)

theorem initializeProxy_caches {admin registry p256 honk : Address}
    (h : initializeProxy keccak env s admin registry p256 honk = .ok s') :
    s'.cachedChainId = env.chainid ∧ s'.cachedDomainSeparator = buildDomainSeparator keccak env := by
  obtain ⟨-, -, rfl⟩ := initializeProxy_eq_ok_iff.1 h
  exact ⟨rfl, rfl⟩

theorem call_caches {c : Call} (hc : call keccak env s c = .ok s') : Caches keccak env s s' := by
  cases c with
  | initializeProxy =>
    obtain ⟨hid, hsep⟩ := initializeProxy_caches hc
    exact .cached hid hsep
  | reinitializeEIP712 =>
    obtain ⟨-, -, rfl⟩ := reinitializeEIP712_eq_ok_iff.1 hc
    exact .cached rfl rfl
  | submitProof a =>
    obtain ⟨-, rfl⟩ := submitProof_eq_ok_iff.1 hc
    exact .same ⟨rfl, rfl⟩
  | pause =>
    obtain ⟨-, -, rfl⟩ := pause_eq_ok_iff.1 hc
    exact .same ⟨rfl, rfl⟩
  | unpause =>
    obtain ⟨-, -, rfl⟩ := unpause_eq_ok_iff.1 hc
    exact .same ⟨rfl, rfl⟩
  | setDeviceRegistry r =>
    obtain ⟨-, -, -, rfl⟩ := setDeviceRegistry_eq_ok_iff.1 hc
    exact .same ⟨rfl, rfl⟩
  | setP256Verifier v =>
    obtain ⟨-, -, -, rfl⟩ := setP256Verifier_eq_ok_iff.1 hc
    exact .same ⟨rfl, rfl⟩
  | setHonkVerifier v =>
    obtain ⟨-, -, -, rfl⟩ := setHonkVerifier_eq_ok_iff.1 hc
    exact .same ⟨rfl, rfl⟩
  | grantRole | revokeRole | renounceRole =>
    obtain ⟨_, _, -, rfl⟩ := setRoles_eq_ok_iff.1 hc
    exact .same ⟨rfl, rfl⟩

namespace Cached

theorem of_initializeProxy {admin registry p256 honk : Address} (henv : env.self = self)
    (h : initializeProxy keccak env s admin registry p256 honk = .ok s') : Cached keccak self s' := by
  obtain ⟨hid, hsep⟩ := initializeProxy_caches h
  exact ⟨env, henv, hid.symm, hsep⟩

theorem call (h : Cached keccak self s) (henv : env.self = self) {c : Call} (hc : V3.call keccak env s c = .ok s') :
    Cached keccak self s' := by
  cases call_caches hc with
  | same hs =>
    unfold Cached
    rw [hs.chainId, hs.domainSeparator]
    exact h
  | cached hid hsep => exact ⟨env, henv, hid.symm, hsep⟩

theorem run (h : Cached keccak self p.storage) {msgs : List Message} (henv : ∀ m ∈ msgs, m.env.self = self) :
    Cached keccak self (Runs.run (V3.deliver keccak) p msgs).storage :=
  run_preserves (fun _ _ _ _ he hs hc => hs.call he hc) henv h

theorem domainSeparator_eq (h : Cached keccak self s) (henv : env.self = self) :
    domainSeparator keccak env s = buildDomainSeparator keccak env := by
  unfold domainSeparator
  split
  · next heq =>
    obtain ⟨env', henv', hid', hsep⟩ := h
    rw [hsep]
    exact buildDomainSeparator_congr (hid'.trans heq.symm) (henv'.trans henv.symm)
  · rfl

end Cached

namespace CacheInv

theorem call (h : CacheInv keccak self s) (henv : env.self = self) {c : Call} (hc : V3.call keccak env s c = .ok s') :
    CacheInv keccak self s' := by
  rcases h with ⟨hid, hsep⟩ | h
  · cases call_caches hc with
    | same hs => exact .inl ⟨hs.chainId.trans hid, hs.domainSeparator.trans hsep⟩
    | cached hid hsep => exact .inr ⟨env, henv, hid.symm, hsep⟩
  · exact .inr (h.call henv hc)

theorem run (h : CacheInv keccak self p.storage) {msgs : List Message} (henv : ∀ m ∈ msgs, m.env.self = self) :
    CacheInv keccak self (Runs.run (V3.deliver keccak) p msgs).storage :=
  run_preserves (fun _ _ _ _ he hs hc => hs.call he hc) henv h

/-- The zero slots are never taken for a cached chain, whose id is not zero. -/
theorem domainSeparator_eq (h : CacheInv keccak self s) (henv : env.self = self) (hid : env.chainid ≠ 0) :
    domainSeparator keccak env s = buildDomainSeparator keccak env := by
  rcases h with ⟨hzero, -⟩ | h
  · rw [domainSeparator, if_neg (hzero ▸ hid)]
  · exact h.domainSeparator_eq henv

end CacheInv

/-- A proxy at `self` as this version finds it. -/
inductive Origin (keccak : Bytes → Bytes32) (self : Address) (s : V3State) : Prop
  | initialized {env : Env} {admin registry p256 honk : Address} (henv : env.self = self)
      (h : initializeProxy keccak env fresh admin registry p256 honk = .ok s)
  | upgraded (hid : s.cachedChainId = 0) (hsep : s.cachedDomainSeparator = 0)

theorem Origin.cacheInv (h : Origin keccak self s) : CacheInv keccak self s := by
  cases h with
  | initialized henv h => exact .inr (.of_initializeProxy henv h)
  | upgraded hid hsep => exact .inl ⟨hid, hsep⟩

theorem domainSeparator_fresh (h0 : Origin keccak self p.storage) {msgs : List Message}
    (hself : ∀ m ∈ msgs, m.env.self = self) {env : Env} (henv : env.self = self) (hid : env.chainid ≠ 0) :
    domainSeparator keccak env (Runs.run (deliver keccak) p msgs).storage = buildDomainSeparator keccak env :=
  (h0.cacheInv.run hself).domainSeparator_eq henv hid

namespace TestChain

/-- The proxy of an earlier version whose admin is account 1: no cached separator. -/
def upgraded : ProxyState :=
  ⟨{ deployed chainA with cachedChainId := 0, cachedDomainSeparator := 0 }, 6, [5, 6]⟩

def cacheMessage (env : Env) : Message := ⟨env, ⟨fun _ => none, fun _ => true⟩, 0, .call .reinitializeEIP712⟩

end TestChain

open TestChain in
/-- The separator is cached for chain 1; on chain 5 and back on chain 1 it is that of the current chain. -/
theorem domainSeparator_fresh_sample :
    Origin packKeccak 9 upgraded.storage ∧ (∀ m ∈ [cacheMessage chainA], m.env.self = 9) ∧
    (Runs.run (deliver packKeccak) upgraded [cacheMessage chainA]).storage.cachedChainId = 1 ∧
    domainSeparator packKeccak chainB (Runs.run (deliver packKeccak) upgraded [cacheMessage chainA]).storage =
      buildDomainSeparator packKeccak chainB ∧
    domainSeparator packKeccak chainA (Runs.run (deliver packKeccak) upgraded [cacheMessage chainA]).storage =
      buildDomainSeparator packKeccak chainA := by
  have h0 : Origin packKeccak 9 upgraded.storage := .upgraded rfl rfl
  have hself : ∀ m ∈ [cacheMessage chainA], m.env.self = 9 := by simp [cacheMessage, chainA, envAt]
  exact ⟨h0, hself, by decide +kernel, domainSeparator_fresh h0 hself rfl (by decide),
    domainSeparator_fresh h0 hself rfl (by decide)⟩

end V3
end InfraVeritas
