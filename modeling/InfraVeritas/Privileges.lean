import InfraVeritas.Lifecycle
import InfraVeritas.Proxy
import InfraVeritas.V3Log

/-!
# What callers without a role can do

Nothing: a call that succeeds without a role leaves the proxy and the registry as they were
(`V3.call_unprivileged`, `DeviceRegistry.call_unprivileged`), whatever its calldata. The rest is about the
calls that need one role: who can pause and unpause, and what the admin can store.
-/

namespace InfraVeritas
open Checks

/-- The account holds no role. -/
def NoRole (roles : Roles) (account : Address) : Prop := ∀ role, AccessControl.hasRole roles role account = false

namespace AccessControl
variable {roles roles' : Roles} {sender account : Address} {role : Bytes32} {es : List OZEvent}

theorem grantRole_of_noRole (h : NoRole roles sender) : grantRole roles sender role account ≠ .ok (roles', es) := by
  intro hc
  simp only [grantRole, bind_eq_ok, exists_punit, checkRole_eq_ok, h _] at hc
  exact Bool.false_ne_true hc.1

theorem revokeRole_of_noRole (h : NoRole roles sender) : revokeRole roles sender role account ≠ .ok (roles', es) := by
  intro hc
  simp only [revokeRole, bind_eq_ok, exists_punit, checkRole_eq_ok, h _] at hc
  exact Bool.false_ne_true hc.1

/-- Giving up a role that one does not hold is allowed and does nothing. -/
theorem renounceRole_of_noRole (h : NoRole roles sender) (hc : renounceRole roles sender role account = .ok (roles', es)) :
    roles' = roles ∧ es = [] := by
  simp only [renounceRole, bind_eq_ok, exists_punit, revertIf_eq_ok, not_not, pure_eq_ok] at hc
  obtain ⟨rfl, hr⟩ := hc
  rw [revokeRoleInternal, h role] at hr
  obtain ⟨hroles, hes⟩ := Prod.mk.inj hr
  exact ⟨hroles.symm, hes.symm⟩

end AccessControl

/-! ### V3 -/

namespace V3
variable {keccak : Bytes → Bytes32} {accounts : Accounts} {env : Env} {s s' : V3State} {p : ProxyState}

theorem emit_nil (s : V3State) : emit s [] = s := by
  simp [emit]

theorem call_unprivileged {c : Call} (hi : s.initializable.initialized ≠ 0) (hn : NoRole s.roles env.sender)
    (hc : call keccak env s c = .ok s') : s' = s := by
  have hno : ∀ role, ¬ AccessControl.hasRole s.roles role env.sender = true := fun role => by simp [hn role]
  cases c with
  | initializeProxy => exact absurd hc (initializeProxy_of_initialized hi)
  | reinitializeEIP712 => exact absurd (reinitializeEIP712_eq_ok_iff.1 hc).2.1 (hno _)
  | submitProof a => exact absurd (submitProof_eq_ok_iff.1 hc).1.operator (hno _)
  | pause => exact absurd (pause_eq_ok_iff.1 hc).1 (hno _)
  | unpause => exact absurd (unpause_eq_ok_iff.1 hc).1 (hno _)
  | setDeviceRegistry r => exact absurd (setDeviceRegistry_eq_ok_iff.1 hc).1 (hno _)
  | setP256Verifier v => exact absurd (setP256Verifier_eq_ok_iff.1 hc).1 (hno _)
  | setHonkVerifier v => exact absurd (setHonkVerifier_eq_ok_iff.1 hc).1 (hno _)
  | grantRole role account =>
    obtain ⟨roles, es, hr, -⟩ := setRoles_eq_ok_iff.1 hc
    exact absurd hr (AccessControl.grantRole_of_noRole hn)
  | revokeRole role account =>
    obtain ⟨roles, es, hr, -⟩ := setRoles_eq_ok_iff.1 hc
    exact absurd hr (AccessControl.revokeRole_of_noRole hn)
  | renounceRole role account =>
    obtain ⟨roles, es, hr, rfl⟩ := setRoles_eq_ok_iff.1 hc
    obtain ⟨rfl, rfl⟩ := AccessControl.renounceRole_of_noRole hn hr
    exact emit_nil s

theorem deliver_unprivileged {m : Message} (hi : p.storage.initializable.initialized ≠ 0)
    (hn : NoRole p.storage.roles m.env.sender) : deliver keccak p m = p := by
  have h := @deliver_delegated keccak p m
  have hs : (deliver keccak p m).storage = p.storage := by
    rcases h.storage with hs | ⟨c, hc⟩
    · exact hs
    · exact call_unprivileged hi hn hc
  obtain ⟨himpl, hup⟩ := h.upgrade.resolve_right (by simp [hn (UPGRADER_ROLE keccak)])
  exact ProxyState.ext hs himpl hup

/-! ### Pausing -/

theorem paused_of_call {c : Call} (hi : s.initializable.initialized ≠ 0) (hc : call keccak env s c = .ok s')
    (hp : s.paused = false) (hp' : s'.paused = true) :
    AccessControl.hasRole s.roles (PAUSER_ROLE keccak) env.sender = true := by
  have hsame : s'.paused ≠ s.paused := by simp [hp, hp']
  cases c with
  | initializeProxy => exact absurd hc (initializeProxy_of_initialized hi)
  | pause => exact (pause_eq_ok_iff.1 hc).1
  | unpause =>
    obtain ⟨-, -, rfl⟩ := unpause_eq_ok_iff.1 hc
    exact absurd hp' Bool.false_ne_true
  | reinitializeEIP712 =>
    obtain ⟨-, -, rfl⟩ := reinitializeEIP712_eq_ok_iff.1 hc
    exact absurd rfl hsame
  | submitProof a =>
    obtain ⟨-, rfl⟩ := submitProof_eq_ok_iff.1 hc
    exact absurd rfl hsame
  | setDeviceRegistry r =>
    obtain ⟨-, -, -, rfl⟩ := setDeviceRegistry_eq_ok_iff.1 hc
    exact absurd rfl hsame
  | setP256Verifier v =>
    obtain ⟨-, -, -, rfl⟩ := setP256Verifier_eq_ok_iff.1 hc
    exact absurd rfl hsame
  | setHonkVerifier v =>
    obtain ⟨-, -, -, rfl⟩ := setHonkVerifier_eq_ok_iff.1 hc
    exact absurd rfl hsame
  | grantRole | revokeRole | renounceRole =>
    obtain ⟨_, _, -, rfl⟩ := setRoles_eq_ok_iff.1 hc
    exact absurd rfl hsame

theorem unpaused_of_call {c : Call} (h : AdminInv s) (hc : call keccak env s c = .ok s') (hp : s.paused = true)
    (hp' : s'.paused = false) : IsAdmin s env.sender := by
  cases (h.call hc).roles with
  | same hr hs | setRole _ _ _ hs _ _ =>
    rw [hs, hp] at hp'
    cases hp'
  | pause hr hs =>
    rw [hs] at hp'
    cases hp'
  | unpause hr ha => exact ha

theorem same_of_paused {c : Call} (hc : call keccak env s c = .ok s') (hp : s.paused = true) : SameSubmissions s s' := by
  rcases call_cases hc with ⟨a, -, ha, -⟩ | ⟨-, hs⟩
  · have hnot := ha.notPaused
    rw [hp] at hnot
    cases hnot
  · exact hs

/-! ### The contracts of the proxy -/

/-- An initialised proxy with its three contracts. -/
structure Wired (s : V3State) : Prop where
  admin : AdminInv s
  deviceRegistry : s.deviceRegistry ≠ 0
  p256Verifier : s.p256Verifier ≠ 0
  honkVerifier : s.honkVerifier ≠ 0

namespace Wired

theorem deployed (h : Deployed keccak s) : Wired s := by
  have hadmin := AdminInv.deployed h
  obtain ⟨env, admin, registry, p256, honk, h⟩ := h
  obtain ⟨-, ⟨-, hr, hp, hh⟩, rfl⟩ := initializeProxy_eq_ok_iff.1 h
  exact ⟨hadmin, hr, hp, hh⟩

theorem call (h : Wired s) {c : Call} (hc : V3.call keccak env s c = .ok s') : Wired s' := by
  have hadmin : AdminInv s' := by
    have ha := h.admin.call hc
    exact ⟨ha.guard, ha.initialized, fun role => (ha.roles.roleAdmin role).trans (h.admin.roleAdmin role)⟩
  cases c with
  | initializeProxy => exact absurd hc (initializeProxy_of_initialized h.admin.initialized)
  | reinitializeEIP712 =>
    obtain ⟨-, -, rfl⟩ := reinitializeEIP712_eq_ok_iff.1 hc
    exact ⟨hadmin, h.deviceRegistry, h.p256Verifier, h.honkVerifier⟩
  | submitProof a =>
    obtain ⟨-, rfl⟩ := submitProof_eq_ok_iff.1 hc
    exact ⟨hadmin, h.deviceRegistry, h.p256Verifier, h.honkVerifier⟩
  | pause =>
    obtain ⟨-, -, rfl⟩ := pause_eq_ok_iff.1 hc
    exact ⟨hadmin, h.deviceRegistry, h.p256Verifier, h.honkVerifier⟩
  | unpause =>
    obtain ⟨-, -, rfl⟩ := unpause_eq_ok_iff.1 hc
    exact ⟨hadmin, h.deviceRegistry, h.p256Verifier, h.honkVerifier⟩
  | setDeviceRegistry r =>
    obtain ⟨-, hne, -, rfl⟩ := setDeviceRegistry_eq_ok_iff.1 hc
    exact ⟨hadmin, hne, h.p256Verifier, h.honkVerifier⟩
  | setP256Verifier v =>
    obtain ⟨-, hne, -, rfl⟩ := setP256Verifier_eq_ok_iff.1 hc
    exact ⟨hadmin, h.deviceRegistry, hne, h.honkVerifier⟩
  | setHonkVerifier v =>
    obtain ⟨-, hne, -, rfl⟩ := setHonkVerifier_eq_ok_iff.1 hc
    exact ⟨hadmin, h.deviceRegistry, h.p256Verifier, hne⟩
  | grantRole | revokeRole | renounceRole =>
    obtain ⟨_, _, -, rfl⟩ := setRoles_eq_ok_iff.1 hc
    exact ⟨hadmin, h.deviceRegistry, h.p256Verifier, h.honkVerifier⟩

theorem run (h : Wired p.storage) (msgs : List Message) : Wired (Runs.run (V3.deliver keccak) p msgs).storage :=
  run_preserves (C := fun _ => True) (fun _ _ _ _ _ hs hc => hs.call hc) (fun _ _ => trivial) h

end Wired

end V3

/-! ### The registry -/

namespace DeviceRegistry
variable {keccak : Bytes → Bytes32} {s s' : RegistryState}

theorem call_unprivileged {cx : Context} {c : Call} (hn : NoRole s.roles cx.sender) (hc : call keccak cx s c = .ok s') :
    s' = s := by
  have hno : ∀ role, ¬ AccessControl.hasRole s.roles role cx.sender = true := fun role => by simp [hn role]
  cases c with
  | registerDevice => exact absurd (registerDevice_eq_ok_iff.1 hc).1 (hno _)
  | revokeDevice => exact absurd (revokeDevice_eq_ok_iff.1 hc).1 (hno _)
  | reactivateDevice => exact absurd (reactivateDevice_eq_ok_iff.1 hc).1 (hno _)
  | suspendDevice => exact absurd (suspendDevice_eq_ok_iff.1 hc).1 (hno _)
  | grantRole role account =>
    obtain ⟨roles, es, hr, -⟩ := setRoles_eq_ok_iff.1 hc
    exact absurd hr (AccessControl.grantRole_of_noRole hn)
  | revokeRole role account =>
    obtain ⟨roles, es, hr, -⟩ := setRoles_eq_ok_iff.1 hc
    exact absurd hr (AccessControl.revokeRole_of_noRole hn)
  | renounceRole role account =>
    obtain ⟨roles, es, hr, rfl⟩ := setRoles_eq_ok_iff.1 hc
    obtain ⟨rfl, rfl⟩ := AccessControl.renounceRole_of_noRole hn hr
    simp [emit]

/-- The `view` functions of the registry. -/
inductive View
  | DEFAULT_ADMIN_ROLE
  | OPERATOR_ROLE
  | P256_PUBKEY_LENGTH
  | MIN_LAT_E7
  | MAX_LAT_E7
  | MIN_LON_E7
  | MAX_LON_E7
  | deviceCount
  | isAuthorized (publicKey : Bytes)
  | getDeviceInfo (publicKey : Bytes)
  | getDeviceStatus (publicKey : Bytes)
  | hasRole (role : Bytes32) (account : Address)
  | getRoleAdmin (role : Bytes32)
  | supportsInterface (interfaceId : BitVec 32)

/-- What the calldata of a message asks for. -/
inductive External
  | call (c : Call)
  | view (v : View)
  /-- An unknown selector, or arguments that do not decode. -/
  | malformed

structure Message where
  context : Context
  value : Nat
  external : External

/-- A message to the registry. No function is payable, and a revert undoes everything. -/
def deliver (keccak : Bytes → Bytes32) (s : RegistryState) (m : Message) : RegistryState :=
  if m.value ≠ 0 then s
  else
    match m.external with
    | .call c => exec keccak s ⟨m.context, c⟩
    | .view _ => s
    | .malformed => s

theorem deliver_unprivileged {m : Message} (hn : NoRole s.roles m.context.sender) : deliver keccak s m = s := by
  unfold deliver
  split
  · rfl
  split
  · next c _ =>
    rcases hc : DeviceRegistry.call keccak m.context s c with e | s'
    · rw [exec, hc]
    · rw [exec, hc]
      exact call_unprivileged hn hc
  · rfl
  · rfl

end DeviceRegistry

/-! ### Runs -/

open V3 in
theorem unprivileged_without_influence {keccak : Bytes → Bytes32} {p : ProxyState} (h0 : Deployed keccak p.storage)
    (msgs : List Message) :
    (∀ more : List Message,
      (∀ m ∈ more, NoRole (Runs.run (deliver keccak) p msgs).storage.roles m.env.sender) →
      Runs.run (deliver keccak) p (msgs ++ more) = Runs.run (deliver keccak) p msgs) ∧
    (∀ (r : RegistryState) (more : List DeviceRegistry.Message), (∀ m ∈ more, NoRole r.roles m.context.sender) →
      Runs.run (DeviceRegistry.deliver keccak) r more = r) ∧
    (∀ m : Message, (Runs.run (deliver keccak) p msgs).storage.paused = false →
      (Runs.run (deliver keccak) p (msgs ++ [m])).storage.paused = true →
      AccessControl.hasRole (Runs.run (deliver keccak) p msgs).storage.roles (PAUSER_ROLE keccak) m.env.sender = true) ∧
    (∀ m : Message, (Runs.run (deliver keccak) p msgs).storage.paused = true →
      (Runs.run (deliver keccak) p (msgs ++ [m])).storage.paused = false →
      AccessControl.hasRole (Runs.run (deliver keccak) p msgs).storage.roles AccessControl.DEFAULT_ADMIN_ROLE
        m.env.sender = true) ∧
    (∀ m : Message, (Runs.run (deliver keccak) p msgs).storage.paused = true →
      SameSubmissions (Runs.run (deliver keccak) p msgs).storage (Runs.run (deliver keccak) p (msgs ++ [m])).storage) ∧
    (Runs.run (deliver keccak) p msgs).storage.deviceRegistry ≠ 0 ∧
    (Runs.run (deliver keccak) p msgs).storage.p256Verifier ≠ 0 ∧
    (Runs.run (deliver keccak) p msgs).storage.honkVerifier ≠ 0 := by
  have hw := @Wired.run keccak p (.deployed h0) msgs
  refine ⟨fun more hmore => ?_, fun r more hmore => ?_, fun m hp hp' => ?_, fun m hp hp' => ?_, fun m hp => ?_,
    hw.deviceRegistry, hw.p256Verifier, hw.honkVerifier⟩
  · rw [Runs.run_append]
    exact Runs.run_eq_self fun m hm => deliver_unprivileged hw.admin.initialized (hmore m hm)
  · exact Runs.run_eq_self fun m hm => DeviceRegistry.deliver_unprivileged (hmore m hm)
  · rw [Runs.run_concat] at hp'
    rcases (@deliver_delegated keccak (Runs.run (deliver keccak) p msgs) m).storage with hs | ⟨c, hc⟩
    · rw [hs, hp] at hp'
      cases hp'
    · exact paused_of_call hw.admin.initialized hc hp hp'
  · rw [Runs.run_concat] at hp'
    rcases (@deliver_delegated keccak (Runs.run (deliver keccak) p msgs) m).storage with hs | ⟨c, hc⟩
    · rw [hs, hp] at hp'
      cases hp'
    · exact unpaused_of_call hw.admin hc hp hp'
  · rw [Runs.run_concat]
    rcases (@deliver_delegated keccak (Runs.run (deliver keccak) p msgs) m).storage with hs | ⟨c, hc⟩
    · rw [hs]
      exact .refl _
    · exact same_of_paused hc hp

namespace V3.TestChain

def proxy : ProxyState := ⟨deployed chainA, 5, [5]⟩

/-- A message of account 77, which holds no role. -/
def outsider (value : Nat) (e : External) : Message := ⟨{ chainA with sender := 77 }, ⟨fun _ => none, fun _ => true⟩, value, e⟩

def attempts : List Message :=
  [outsider 0 (.call (.initializeProxy 77 2 3 4)), outsider 0 (.call (.submitProof (submission 7 1 100))),
    outsider 0 (.upgradeToAndCall 6 (some (.call .pause))), outsider 0 (.call (.renounceRole 0 77)), outsider 1 .malformed]

theorem noRole_outsider : NoRole proxy.storage.roles 77 := by
  intro role
  show AccessControl.hasRole (AccessControl.grantRoleInternal (AccessControl.grantRoleInternal AccessControl.empty
    AccessControl.DEFAULT_ADMIN_ROLE 1 1).1 (UPGRADER_ROLE packKeccak) 1 1).1 role 77 = false
  rw [AccessControl.hasRole_grantRoleInternal, AccessControl.hasRole_grantRoleInternal]
  simp [AccessControl.hasRole, AccessControl.empty]

end V3.TestChain

open V3 V3.TestChain in
theorem unprivileged_without_influence_sample :
    Deployed packKeccak proxy.storage ∧ (∀ m ∈ attempts, NoRole proxy.storage.roles m.env.sender) ∧
    Runs.run (deliver packKeccak) proxy ([] ++ attempts) = proxy := by
  have h0 : Deployed packKeccak proxy.storage := deployed_deployed chainA
  have hno : ∀ m ∈ attempts, NoRole proxy.storage.roles m.env.sender := by
    intro m hm
    have hsender : m.env.sender = 77 := by
      simp only [attempts, List.mem_cons, List.not_mem_nil, or_false] at hm
      rcases hm with rfl | rfl | rfl | rfl | rfl <;> rfl
    rw [hsender]
    exact noRole_outsider
  exact ⟨h0, hno, (unprivileged_without_influence h0 []).1 attempts hno⟩

end InfraVeritas
