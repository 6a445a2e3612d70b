import InfraVeritas.HonkVerifier
import InfraVeritas.Lib.Parametric
import InfraVeritas.Lib.PowMod
import Mathlib.FieldTheory.Finite.Basic
import Mathlib.Tactic.NormNum.Prime

/-!
# The scalar field of `HonkVerifier`

`Fr` wraps a `uint256`, and its operators reduce with `addmod` and `mulmod`. No value of the verifier exceeds the modulus,
but `neg` takes 0 to the modulus itself: a word that denotes zero and is not zero. `toField` is the field element that a
word denotes; the operators respect it, `==` only on reduced words, and `invert` fails on the word 0 only.
-/

namespace InfraVeritas
open BigEndian Checks Parametric

/-! ### The modulus is prime -/

section
open PowMod

theorem prime_405928799 : Nat.Prime 405928799 := by
  refine prime_of_isLucas 256 22 [2, 11, 3691, 4999] ?_ (by decide +kernel)
  simp only [List.forall_mem_cons]
  norm_num

theorem prime_1670836401704629 : Nat.Prime 1670836401704629 := by
  have h12048837557 : Nat.Prime 12048837557 := by
    refine prime_of_isLucas 256 2 [2, 7, 661, 93001] ?_ (by decide +kernel)
    simp only [List.forall_mem_cons]
    norm_num
  have h5156902474397 : Nat.Prime 5156902474397 := by
    refine prime_of_isLucas 256 2 [2, 107, 12048837557] ?_ (by decide +kernel)
    simp only [List.forall_mem_cons, h12048837557]
    norm_num
  refine prime_of_isLucas 256 2 [2, 3, 5156902474397] ?_ (by decide +kernel)
  simp only [List.forall_mem_cons, h5156902474397]
  norm_num

theorem prime_13818364434197438864469338081 : Nat.Prime 13818364434197438864469338081 := by
  have h639533339 : Nat.Prime 639533339 := by
    refine prime_of_isLucas 256 2 [2, 229, 853, 1637] ?_ (by decide +kernel)
    simp only [List.forall_mem_cons]
    norm_num
  have h65865678001877903 : Nat.Prime 65865678001877903 := by
    refine prime_of_isLucas 256 5 [2, 83, 379, 1637, 639533339] ?_ (by decide +kernel)
    simp only [List.forall_mem_cons, h639533339]
    norm_num
  refine prime_of_isLucas 256 3 [2, 5, 823, 1593227, 65865678001877903] ?_ (by decide +kernel)
  simp only [List.forall_mem_cons, h65865678001877903]
  norm_num

theorem prime_P : P.Prime := by
  refine prime_of_isLucas 256 5 [2, 3, 13, 29, 983, 11003, 237073, 405928799, 1670836401704629,
    13818364434197438864469338081] ?_ (by decide +kernel)
  simp only [List.forall_mem_cons, prime_405928799, prime_1670836401704629, prime_13818364434197438864469338081]
  norm_num

end

/-! ### `FrLib` -/

/-- `type Fr is uint256`. -/
structure Fr where
  unwrap : Nat
  le : unwrap ≤ P
deriving DecidableEq

namespace Fr

scoped instance : Fact P.Prime := ⟨prime_P⟩

theorem mod_le (n : Nat) : n % P ≤ P := (Nat.mod_lt _ (NeZero.pos P)).le

/-- `Fr.wrap` of a constant, all of which are below the modulus. -/
def wrap (n : Nat) : Fr := ⟨n % P, mod_le n⟩

instance : Inhabited Fr := ⟨wrap 0⟩
instance : NatCast Fr := ⟨wrap⟩
instance : Add Fr := ⟨fun a b => ⟨(a.unwrap + b.unwrap) % P, mod_le _⟩⟩
instance : Mul Fr := ⟨fun a b => ⟨a.unwrap * b.unwrap % P, mod_le _⟩⟩
instance : Sub Fr := ⟨fun a b => ⟨(a.unwrap + (P - b.unwrap)) % P, mod_le _⟩⟩

def equal (a b : Fr) : Bool := decide (a.unwrap = b.unwrap)

def sqr (a : Fr) : Fr := a * a

/-- Unlike `sub`, without a reduction. -/
def neg (a : Fr) : Fr := ⟨P - a.unwrap, Nat.sub_le ..⟩

/-- `from`, a keyword here -/
def ofUInt256 (value : Nat) : Except HonkError Fr :=
  if h : value < P then .ok ⟨value, h.le⟩ else .error .valueGeFieldOrder

def fromBytes32 (value : Bytes32) : Except HonkError Fr := ofUInt256 value.toNat

def toBytes32 (a : Fr) : Bytes32 := BitVec.ofNat 256 a.unwrap

/-- The precompile at address 5, which fails for want of gas only. -/
def modexp (base exponent : Nat) : Fr := ⟨PowMod.powMod P 256 base exponent % P, mod_le _⟩

def invert (value : Fr) : Except HonkError Fr := do
  revertIf (value.unwrap = 0) .invertOfZero
  return modexp value.unwrap (P - 2)

def pow (base : Fr) (v : Nat) : Except HonkError Fr := do
  revertIf (¬ (v > 0 ∧ v &&& (v - 1) = 0)) .notPowerOfTwo
  return modexp base.unwrap v

def div (numerator denominator : Fr) : Except HonkError Fr := do
  return numerator * (← denominator.invert)

/-! ### What a word denotes -/

def toField (a : Fr) : Field := a.unwrap

/-- The words that denote a field element in the only way that `==` sees. -/
def Reduced (a : Fr) : Prop := a.unwrap < P

variable {a b : Fr}

@[simp] theorem toField_wrap (n : Nat) : (wrap n).toField = n := ZMod.natCast_mod n P

@[simp] theorem toField_natCast (n : Nat) : (n : Fr).toField = n := toField_wrap n

@[simp] theorem toField_add (a b : Fr) : (a + b).toField = a.toField + b.toField :=
  (ZMod.natCast_mod _ P).trans (Nat.cast_add ..)

@[simp] theorem toField_mul (a b : Fr) : (a * b).toField = a.toField * b.toField :=
  (ZMod.natCast_mod _ P).trans (Nat.cast_mul ..)

@[simp] theorem toField_neg (a : Fr) : a.neg.toField = -a.toField := by
  show ((P - a.unwrap : Nat) : Field) = -(a.unwrap : Field)
  rw [Nat.cast_sub a.le, ZMod.natCast_self, zero_sub]

@[simp] theorem toField_sub (a b : Fr) : (a - b).toField = a.toField - b.toField := by
  show (((a.unwrap + (P - b.unwrap)) % P : Nat) : Field) = a.unwrap - b.unwrap
  rw [ZMod.natCast_mod, Nat.cast_add, Nat.cast_sub b.le, ZMod.natCast_self, zero_sub, sub_eq_add_neg]

@[simp] theorem toField_sqr (a : Fr) : a.sqr.toField = a.toField ^ 2 := by rw [sqr, toField_mul, sq]

theorem respects_toField : Respects fun (a : Fr) (x : Field) => a.toField = x where
  add ha hb := by rw [toField_add, ha, hb]
  sub ha hb := by rw [toField_sub, ha, hb]
  mul ha hb := by rw [toField_mul, ha, hb]
  natCast n := toField_natCast n

theorem reduced_wrap (n : Nat) : (wrap n).Reduced := Nat.mod_lt _ (NeZero.pos P)
theorem reduced_add (a b : Fr) : (a + b).Reduced := Nat.mod_lt _ (NeZero.pos P)
theorem reduced_mul (a b : Fr) : (a * b).Reduced := Nat.mod_lt _ (NeZero.pos P)
theorem reduced_sub (a b : Fr) : (a - b).Reduced := Nat.mod_lt _ (NeZero.pos P)

theorem Reduced.toField_inj (ha : a.Reduced) (hb : b.Reduced) : a.toField = b.toField ↔ a = b := by
  rw [toField, toField, natCast_inj ha hb, Fr.mk.injEq]

theorem Reduced.equal_iff (ha : a.Reduced) (hb : b.Reduced) : equal a b = true ↔ a.toField = b.toField := by
  rw [equal, decide_eq_true_iff, toField, toField, natCast_inj ha hb]

theorem Reduced.unwrap_eq_zero (ha : a.Reduced) : a.unwrap = 0 ↔ a.toField = 0 := by
  have h := natCast_inj ha (NeZero.pos P)
  rw [Nat.cast_zero] at h
  exact h.symm

theorem natCast_ne_zero {n : Nat} (hpos : 0 < n) (h : n < P) : (n : Field) ≠ 0 := by
  have hzero := natCast_inj h (NeZero.pos P)
  rw [Nat.cast_zero] at hzero
  exact mt hzero.1 hpos.ne'

theorem two_ne_zero_field : (2 : Field) ≠ 0 := natCast_ne_zero (n := 2) (by decide) (by decide)

/-- The reduced word of a field element. -/
def ofField (x : Field) : Fr := wrap x.val

@[simp] theorem toField_ofField (x : Field) : (ofField x).toField = x := by
  rw [ofField, toField_wrap, ZMod.natCast_val, ZMod.cast_id]

/-- The negative of zero denotes zero and is another word. -/
theorem neg_wrap_zero : (wrap 0).neg.toField = 0 ∧ equal (wrap 0).neg (wrap 0) = false := by
  refine ⟨?_, by decide +kernel⟩
  rw [toField_neg, toField_wrap, Nat.cast_zero, neg_zero]

theorem ofUInt256_eq_ok {value : Nat} : ofUInt256 value = .ok a ↔ value < P ∧ a.unwrap = value := by
  unfold ofUInt256
  split
  · next h =>
    rw [Except.ok.injEq]
    constructor
    · rintro rfl
      exact ⟨h, rfl⟩
    · rintro ⟨-, rfl⟩
      rfl
  · next h => simp [h]

theorem ofUInt256_of_lt {value : Nat} (h : value < P) : ofUInt256 value = .ok (wrap value) :=
  ofUInt256_eq_ok.2 ⟨h, Nat.mod_eq_of_lt h⟩

theorem ofUInt256_of_le {value : Nat} (h : P ≤ value) : ofUInt256 value = .error .valueGeFieldOrder := dif_neg h.not_gt

@[simp] theorem toNat_toBytes32 (a : Fr) : a.toBytes32.toNat = a.unwrap := by
  have hP : P < 2 ^ 256 := by decide
  rw [toBytes32, BitVec.toNat_ofNat, Nat.mod_eq_of_lt (a.le.trans_lt hP)]

theorem toBytes32_inj : a.toBytes32 = b.toBytes32 ↔ a = b := by
  refine ⟨?_, fun h => h ▸ rfl⟩
  intro h
  have hnat := congrArg BitVec.toNat h
  rwa [toNat_toBytes32, toNat_toBytes32, ← Fr.mk.injEq _ a.le _ b.le] at hnat

theorem fromBytes32_toBytes32 (ha : a.Reduced) : fromBytes32 a.toBytes32 = .ok a := by
  rw [fromBytes32, toNat_toBytes32]
  exact ofUInt256_eq_ok.2 ⟨ha, rfl⟩

theorem toField_modexp {base exponent : Nat} (h : exponent < 2 ^ 256) :
    (modexp base exponent).toField = (base : Field) ^ exponent := by
  rw [toField, modexp, ZMod.natCast_mod, PowMod.powMod_eq base h, ZMod.natCast_mod, Nat.cast_pow]

theorem pow_P_sub_two (x : Field) : x ^ (P - 2) = x⁻¹ := by
  rcases eq_or_ne x 0 with rfl | hx
  · rw [inv_zero]
    exact zero_pow (by decide)
  · refine eq_inv_of_mul_eq_one_left ?_
    rw [← pow_succ]
    exact ZMod.pow_card_sub_one_eq_one hx

/-- The precompile computes the inverse. -/
theorem invert_eq_ok : a.invert = .ok b ↔ a.unwrap ≠ 0 ∧ b.Reduced ∧ b.toField = a.toField⁻¹ := by
  have hinv : (modexp a.unwrap (P - 2)).toField = a.toField⁻¹ := by
    rw [toField_modexp (by decide)]
    exact pow_P_sub_two _
  rw [invert]
  simp only [bind_eq_ok, exists_punit, revertIf_eq_ok, pure_eq_ok]
  refine and_congr_right fun _ => ?_
  constructor
  · rintro rfl
    exact ⟨Nat.mod_lt _ (NeZero.pos P), hinv⟩
  · rintro ⟨hb, hfield⟩
    have hred : (modexp a.unwrap (P - 2)).Reduced := Nat.mod_lt _ (NeZero.pos P)
    exact (hred.toField_inj hb).1 (hinv.trans hfield.symm)

theorem exists_invert (h : a.unwrap ≠ 0) : ∃ b, a.invert = .ok b := by
  rw [invert, revertIf_of_not h]
  exact ⟨_, rfl⟩

theorem div_eq_ok {d : Fr} (hb : b.Reduced) :
    div a b = .ok d ↔ d.Reduced ∧ b.toField ≠ 0 ∧ d.toField * b.toField = a.toField := by
  simp only [div, bind_eq_ok, pure_eq_ok, invert_eq_ok, Ne, hb.unwrap_eq_zero]
  constructor
  · rintro ⟨c, ⟨hne, -, hc⟩, rfl⟩
    refine ⟨reduced_mul a c, hne, ?_⟩
    rw [toField_mul, hc, mul_assoc, inv_mul_cancel₀ hne, mul_one]
  · rintro ⟨hd, hne, heq⟩
    obtain ⟨c, hc⟩ := exists_invert (a := b) (mt hb.unwrap_eq_zero.1 hne)
    obtain ⟨-, hred, hinv⟩ := invert_eq_ok.1 hc
    refine ⟨c, ⟨hne, hred, hinv⟩, ((reduced_mul a c).toField_inj hd).1 ?_⟩
    rw [toField_mul, hinv, ← heq, mul_assoc, mul_inv_cancel₀ hne, mul_one]

theorem invert_of_eq_zero (h : a.unwrap = 0) : a.invert = .error .invertOfZero := by
  rw [invert, revertIf_of h]
  rfl

end Fr
end InfraVeritas
