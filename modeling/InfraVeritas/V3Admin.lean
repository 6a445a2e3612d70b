import InfraVeritas.Deployments

/-!
# What a transaction does to the roles and the pause

`AdminInv` holds on every deployed proxy, and under it `Administers` lists what a call can do to the roles and
to the pause (`AdminInv.call`).
-/

namespace InfraVeritas
open Checks

namespace V3
variable {keccak : Bytes → Bytes32} {env : Env} {s s' : V3State}

/-! ### Roles and pause -/

/-- What no transaction changes on a deployed proxy. -/
structure AdminInv (s : V3State) : Prop where
  notEntered : s.reentrancyStatus = ReentrancyGuard.NOT_ENTERED
  initialized : s.initializable.initialized ≠ 0
  roleAdmin : ∀ role, AccessControl.getRoleAdmin s.roles role = AccessControl.DEFAULT_ADMIN_ROLE

/-- What a call does to the roles and the pause; `sender` is its caller. -/
inductive Administers (sender : Address) (s s' : V3State) : Prop
  | same (hr : s'.roles = s.roles) (hp : s'.paused = s.paused)
  | pause (hr : s'.roles = s.roles) (hp : s'.paused = true)
  | unpause (hr : s'.roles = s.roles) (ha : IsAdmin s sender)
  | setRole (role : Bytes32) (account : Address) (value : Bool) (hp : s'.paused = s.paused)
      (hr : s'.roles = AccessControl.setRole s.roles role account value) (ha : value = true → IsAdmin s sender)

namespace AdminInv

theorem deployed (h : Deployed keccak s) : AdminInv s := by
  obtain ⟨env, admin, registry, p256, honk, h⟩ := h
  obtain ⟨-, -, -, -, hg, -, hroles⟩ := initializeProxy_spec h
  obtain ⟨-, -, rfl⟩ := initializeProxy_eq_ok_iff.1 h
  exact ⟨hg, Nat.one_ne_zero, hroles⟩

end AdminInv

namespace Administers
variable {sender : Address}

theorem roleAdmin (h : Administers sender s s') (role : Bytes32) :
    AccessControl.getRoleAdmin s'.roles role = AccessControl.getRoleAdmin s.roles role := by
  cases h with
  | same hr | pause hr | unpause hr => rw [hr]
  | setRole role' account value _ hr => rw [hr, AccessControl.getRoleAdmin_setRole]

theorem grant {role : Bytes32} {account : Address} {roles : Roles} {es : List OZEvent}
    (hadmin : AccessControl.getRoleAdmin s.roles role = AccessControl.DEFAULT_ADMIN_ROLE)
    (h : AccessControl.grantRole s.roles sender role account = .ok (roles, es)) (hr : s'.roles = roles)
    (hp : s'.paused = s.paused) : Administers sender s s' := by
  unfold AccessControl.grantRole at h
  simp only [bind_eq_ok, exists_punit, AccessControl.checkRole_eq_ok, pure_eq_ok, hadmin] at h
  obtain ⟨ha, h⟩ := h
  unfold AccessControl.grantRoleInternal at h
  split at h
  · exact .same (hr.trans (Prod.mk.inj h).1.symm) hp
  · exact .setRole role account true hp (hr.trans (Prod.mk.inj h).1.symm) fun _ => ha

/-- A role may be taken away by its admin or given up: either way no one gains one. -/
theorem revoke {role : Bytes32} {account : Address} {roles : Roles} {es : List OZEvent}
    (h : AccessControl.revokeRoleInternal s.roles role account sender = (roles, es)) (hr : s'.roles = roles)
    (hp : s'.paused = s.paused) : Administers sender s s' := by
  unfold AccessControl.revokeRoleInternal at h
  split at h
  · exact .setRole role account false hp (hr.trans (Prod.mk.inj h).1.symm) fun hf => (by cases hf)
  · exact .same (hr.trans (Prod.mk.inj h).1.symm) hp

end Administers

structure Administered (sender : Address) (s s' : V3State) : Prop where
  roles : Administers sender s s'
  guard : s'.reentrancyStatus = ReentrancyGuard.NOT_ENTERED
  initialized : s'.initializable.initialized ≠ 0

namespace AdminInv

theorem administered_of_eq (h : AdminInv s) {sender : Address} (hr : Administers sender s s')
    (hg : s'.reentrancyStatus = s.reentrancyStatus) (hi : s'.initializable = s.initializable) :
    Administered sender s s' :=
  ⟨hr, hg.trans h.notEntered, hi ▸ h.initialized⟩

theorem setRoles (h : AdminInv s) {r : Except OZError (Roles × List OZEvent)} (hc : V3.setRoles s r = .ok s')
    (hr : ∀ roles es, r = .ok (roles, es) → s'.roles = roles → s'.paused = s.paused → Administers env.sender s s') :
    Administered env.sender s s' := by
  obtain ⟨roles, es, hok, rfl⟩ := setRoles_eq_ok_iff.1 hc
  exact h.administered_of_eq (hr roles es hok rfl rfl) rfl rfl

theorem call (h : AdminInv s) {c : Call} (hc : call keccak env s c = .ok s') : Administered env.sender s s' := by
  cases c with
  | submitProof a =>
    obtain ⟨-, rfl⟩ := submitProof_eq_ok_iff.1 hc
    exact ⟨.same rfl rfl, rfl, h.initialized⟩
  | initializeProxy admin registry p256 honk => exact absurd hc (initializeProxy_of_initialized h.initialized)
  | reinitializeEIP712 =>
    obtain ⟨-, -, rfl⟩ := reinitializeEIP712_eq_ok_iff.1 hc
    exact ⟨.same rfl rfl, h.notEntered, Nat.succ_ne_zero 1⟩
  | pause =>
    obtain ⟨-, -, rfl⟩ := pause_eq_ok_iff.1 hc
    exact h.administered_of_eq (.pause rfl rfl) rfl rfl
  | unpause =>
    obtain ⟨ha, -, rfl⟩ := unpause_eq_ok_iff.1 hc
    exact h.administered_of_eq (.unpause rfl ha) rfl rfl
  | setDeviceRegistry r =>
    obtain ⟨-, -, -, rfl⟩ := setDeviceRegistry_eq_ok_iff.1 hc
    exact h.administered_of_eq (.same rfl rfl) rfl rfl
  | setP256Verifier v =>
    obtain ⟨-, -, -, rfl⟩ := setP256Verifier_eq_ok_iff.1 hc
    exact h.administered_of_eq (.same rfl rfl) rfl rfl
  | setHonkVerifier v =>
    obtain ⟨-, -, -, rfl⟩ := setHonkVerifier_eq_ok_iff.1 hc
    exact h.administered_of_eq (.same rfl rfl) rfl rfl
  | grantRole role account => exact h.setRoles hc fun roles es hok => .grant (h.roleAdmin role) hok
  | revokeRole role account =>
    refine h.setRoles hc ?_
    intro roles es hok
    unfold AccessControl.revokeRole at hok
    simp only [bind_eq_ok, exists_punit, pure_eq_ok] at hok
    exact .revoke hok.2
  | renounceRole role account =>
    refine h.setRoles hc ?_
    intro roles es hok
    unfold AccessControl.renounceRole at hok
    simp only [bind_eq_ok, exists_punit, pure_eq_ok] at hok
    exact .revoke hok.2

theorem exec (h : AdminInv s) (t : Tx) : Administers t.env.sender s (exec keccak s t) ∧ AdminInv (exec keccak s t) := by
  rw [V3.exec]
  split
  · next s' hs =>
    have hc := h.call hs
    exact ⟨hc.roles, hc.guard, hc.initialized, fun role => (hc.roles.roleAdmin role).trans (h.roleAdmin role)⟩
  · exact ⟨.same rfl rfl, h⟩

theorem run (h : AdminInv s) (txs : List Tx) : AdminInv (Runs.run (V3.exec keccak) s txs) :=
  Runs.run_inv h (fun _ t hs => (hs.exec t).2) txs

end AdminInv

end V3
end InfraVeritas
