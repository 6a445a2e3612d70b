import InfraVeritas.Solidity
import Mathlib.Logic.Function.Basic

/-!
# OpenZeppelin base contracts

`AccessControl`, `Pausable`, `ReentrancyGuard` and `Initializable` as the two contracts use them:
their storage, the checks of their modifiers and the events they emit. Each function takes the
storage it touches and returns the new one.
-/

namespace InfraVeritas
open Checks

inductive OZError
  | accessControlUnauthorizedAccount (account : Address) (neededRole : Bytes32)
  | accessControlBadConfirmation
  | enforcedPause
  | expectedPause
  | reentrancyGuardReentrantCall
  | invalidInitialization
deriving DecidableEq, Repr

inductive OZEvent
  | roleGranted (role : Bytes32) (account sender : Address)
  | roleRevoked (role : Bytes32) (account sender : Address)
  | paused (account : Address)
  | unpaused (account : Address)
  | initialized (version : Nat)
deriving DecidableEq, Repr

/-! ### AccessControl -/

structure RoleData where
  hasRole : Address → Bool
  adminRole : Bytes32

abbrev Roles := Bytes32 → RoleData

namespace AccessControl

def DEFAULT_ADMIN_ROLE : Bytes32 := 0

def empty : Roles := fun _ => ⟨fun _ => false, DEFAULT_ADMIN_ROLE⟩

def hasRole (roles : Roles) (role : Bytes32) (account : Address) : Bool := (roles role).hasRole account

def getRoleAdmin (roles : Roles) (role : Bytes32) : Bytes32 := (roles role).adminRole

/-- The check of `onlyRole(role)` for the caller `account`. -/
def checkRole (roles : Roles) (role : Bytes32) (account : Address) : Except OZError PUnit :=
  revertIf (¬ hasRole roles role account) (.accessControlUnauthorizedAccount account role)

def setRole (roles : Roles) (role : Bytes32) (account : Address) (value : Bool) : Roles :=
  Function.update roles role
    { roles role with hasRole := Function.update (roles role).hasRole account value }

/-- `_grantRole`. -/
def grantRoleInternal (roles : Roles) (role : Bytes32) (account sender : Address) : Roles × List OZEvent :=
  if hasRole roles role account then (roles, [])
  else (setRole roles role account true, [.roleGranted role account sender])

/-- `_revokeRole`. -/
def revokeRoleInternal (roles : Roles) (role : Bytes32) (account sender : Address) : Roles × List OZEvent :=
  if hasRole roles role account then (setRole roles role account false, [.roleRevoked role account sender])
  else (roles, [])

def grantRole (roles : Roles) (sender : Address) (role : Bytes32) (account : Address) :
    Except OZError (Roles × List OZEvent) := do
  checkRole roles (getRoleAdmin roles role) sender
  return grantRoleInternal roles role account sender

def revokeRole (roles : Roles) (sender : Address) (role : Bytes32) (account : Address) :
    Except OZError (Roles × List OZEvent) := do
  checkRole roles (getRoleAdmin roles role) sender
  return revokeRoleInternal roles role account sender

def renounceRole (roles : Roles) (sender : Address) (role : Bytes32) (callerConfirmation : Address) :
    Except OZError (Roles × List OZEvent) := do
  revertIf (callerConfirmation ≠ sender) .accessControlBadConfirmation
  return revokeRoleInternal roles role callerConfirmation sender

theorem checkRole_eq_ok {roles : Roles} {role : Bytes32} {account : Address} {u : PUnit} :
    checkRole roles role account = .ok u ↔ hasRole roles role account = true := by
  simp [checkRole]

theorem hasRole_setRole (roles : Roles) (role role' : Bytes32) (account account' : Address) (v : Bool) :
    hasRole (setRole roles role account v) role' account' =
      if role' = role ∧ account' = account then v else hasRole roles role' account' := by
  by_cases hr : role' = role
  · subst hr
    by_cases ha : account' = account <;> simp [hasRole, setRole, ha]
  · simp [hasRole, setRole, hr]

@[simp] theorem getRoleAdmin_setRole (roles : Roles) (role role' : Bytes32) (account : Address) (v : Bool) :
    getRoleAdmin (setRole roles role account v) role' = getRoleAdmin roles role' := by
  by_cases hr : role' = role
  · subst hr; simp [getRoleAdmin, setRole]
  · simp [getRoleAdmin, setRole, hr]

theorem hasRole_grantRoleInternal (roles : Roles) (role role' : Bytes32) (account account' sender : Address) :
    hasRole (grantRoleInternal roles role account sender).1 role' account' =
      (decide (role' = role ∧ account' = account) || hasRole roles role' account') := by
  unfold grantRoleInternal
  split
  · by_cases h : role' = role ∧ account' = account
    · obtain ⟨rfl, rfl⟩ := h; simpa
    · simp [h]
  · rw [hasRole_setRole]; split <;> simp_all

theorem getRoleAdmin_grantRoleInternal (roles : Roles) (role role' : Bytes32) (account sender : Address) :
    getRoleAdmin (grantRoleInternal roles role account sender).1 role' = getRoleAdmin roles role' := by
  unfold grantRoleInternal
  split
  · rfl
  · exact getRoleAdmin_setRole ..

theorem grantRole_of_hasRole {roles : Roles} {sender : Address} {role : Bytes32} {account : Address}
    (h : hasRole roles (getRoleAdmin roles role) sender = true) :
    grantRole roles sender role account = .ok (grantRoleInternal roles role account sender) := by
  rw [grantRole, (checkRole_eq_ok (u := ⟨⟩)).2 h]
  rfl

end AccessControl

/-! ### Pausable -/

namespace Pausable

/-- The check of `whenNotPaused`. -/
def requireNotPaused (paused : Bool) : Except OZError PUnit := revertIf (paused = true) .enforcedPause

/-- The check of `whenPaused`. -/
def requirePaused (paused : Bool) : Except OZError PUnit := revertIf (paused = false) .expectedPause

/-- `_pause`. -/
def pause (paused : Bool) (sender : Address) : Except OZError (Bool × List OZEvent) := do
  requireNotPaused paused
  return (true, [.paused sender])

/-- `_unpause`. -/
def unpause (paused : Bool) (sender : Address) : Except OZError (Bool × List OZEvent) := do
  requirePaused paused
  return (false, [.unpaused sender])

end Pausable

/-! ### ReentrancyGuard -/

namespace ReentrancyGuard

def NOT_ENTERED : Nat := 1
def ENTERED : Nat := 2

/-- `_nonReentrantBefore`: the new guard status. -/
def nonReentrantBefore (status : Nat) : Except OZError Nat := do
  revertIf (status = ENTERED) .reentrancyGuardReentrantCall
  return ENTERED

/-- `_nonReentrantAfter`: the new guard status. -/
def nonReentrantAfter (_status : Nat) : Nat := NOT_ENTERED

end ReentrancyGuard

/-! ### Initializable -/

structure Initializable where
  initialized : Nat
  initializing : Bool
deriving DecidableEq, Repr

namespace Initializable

/-- The entry check of `initializer`. The `construction` disjunct of the source (version 1 and no
code yet) cannot hold: the proxy's constructor runs with version 0, every later call with its code
in place. -/
def beginInitializer (s : Initializable) : Except OZError Initializable := do
  let isTopLevelCall := !s.initializing
  let initialSetup := s.initialized = 0 ∧ isTopLevelCall
  revertIf (¬ initialSetup) .invalidInitialization
  return ⟨1, true⟩

/-- The exit of `initializer`. -/
def endInitializer (s : Initializable) : Initializable × List OZEvent :=
  ({ s with initializing := false }, [.initialized 1])

/-- The entry check of `reinitializer(version)`. -/
def beginReinitializer (s : Initializable) (version : Nat) : Except OZError Initializable := do
  revertIf (s.initializing = true ∨ s.initialized ≥ version) .invalidInitialization
  return ⟨version, true⟩

/-- The exit of `reinitializer(version)`. -/
def endReinitializer (s : Initializable) (version : Nat) : Initializable × List OZEvent :=
  ({ s with initializing := false }, [.initialized version])

end Initializable

end InfraVeritas
