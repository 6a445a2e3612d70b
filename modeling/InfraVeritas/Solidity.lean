import InfraVeritas.Lib.BigEndian
import InfraVeritas.Lib.Checks

/-!
# The EVM side of the contracts

Word types, ABI encoding, the context of a message call and the answers of the external contracts a
call consults. `keccak256` is a parameter `keccak : Bytes → Bytes32` throughout; where a result needs
it to be injective on some preimages, it says so.
-/

namespace InfraVeritas
open BigEndian Checks

abbrev Bytes := List UInt8
abbrev Address := BitVec 160
abbrev Bytes32 := BitVec 256
abbrev UInt256 := BitVec 256
abbrev U64 := BitVec 64
/-- `int64`: the same bits, read with `BitVec.toInt`. -/
abbrev I64 := BitVec 64

/-- `bytes32(uint256(x))` for a `uint64` `x`. -/
def bytes32OfU64 (x : U64) : Bytes32 := x.setWidth 256

/-- `bytes32(uint256(int256(x)))` for an `int64` `x`: sign-extended. -/
def bytes32OfI64 (x : I64) : Bytes32 := x.signExtend 256

/-- `calldataload(data.offset + off)` for an `off` at least 32 bytes before the end of `data`. -/
def calldataload (data : Bytes) (off : Nat) : Bytes32 := BitVec.ofNat 256 (ofBE ((data.drop off).take 32))

/-- Of the bytes only the last word: a hash for runs on given inputs. -/
def lastWord (bytes : Bytes) : Bytes32 := BitVec.ofNat 256 (ofBE bytes)

def wordBytes (w : Bytes32) : Bytes := toBE 32 w.toNat

/-- `abi.encode` of static 32-byte words. -/
def abiEncode (ws : List Bytes32) : Bytes := ws.flatMap wordBytes

/-- `abi.encodePacked(uint64, uint64)`: 16 bytes. -/
def encodePackedU64 (x y : U64) : Bytes := toBE 8 x.toNat ++ toBE 8 y.toNat

def addressWord (a : Address) : Bytes32 := a.setWidth 256

/-- What an external `view` call returns: a decoded `bool`, or revert data (a call to an address
without code, or an answer that does not decode as a `bool`, reverts too). -/
inductive CallResult
  | returned (b : Bool)
  | reverted (data : Bytes)
deriving DecidableEq, Repr

/-- The external contracts, queried by address. All three are called with `STATICCALL`. -/
structure Oracles where
  isAuthorized : Address → Bytes → CallResult
  verifyP256 : Address → Bytes32 → Bytes32 → Bytes32 → Bytes32 → Bytes32 → CallResult
  verifyHonk : Address → Bytes → List Bytes32 → CallResult

/-- The context of a message call to the proxy at `self`. -/
structure Env where
  self : Address
  sender : Address
  timestamp : UInt256
  chainid : UInt256
  oracles : Oracles

/-- Solidity's checked `+`: overflow reverts with `Panic(0x11)`. -/
def checkedAdd {ε : Type} {w : Nat} (panic : Nat → ε) (x y : BitVec w) : Except ε (BitVec w) :=
  if x.toNat + y.toNat < 2 ^ w then .ok (x + y) else .error (panic 0x11)

/-- Solidity's checked `-`: underflow reverts with `Panic(0x11)`. -/
def checkedSub {ε : Type} {w : Nat} (panic : Nat → ε) (x y : BitVec w) : Except ε (BitVec w) :=
  if y ≤ x then .ok (x - y) else .error (panic 0x11)

/-- An external call whose failure bubbles up through `bubble`. -/
def callBool {ε : Type} (bubble : Bytes → ε) : CallResult → Except ε Bool
  | .returned b => .ok b
  | .reverted data => .error (bubble data)

section
variable {ε : Type} {w : Nat} {panic : Nat → ε}

theorem checkedAdd_eq_ok {x y z : BitVec w} :
    checkedAdd panic x y = .ok z ↔ x.toNat + y.toNat < 2 ^ w ∧ z = x + y := by
  unfold checkedAdd; split <;> rename_i h <;> simp [h, eq_comm]

theorem checkedSub_eq_ok {x y z : BitVec w} : checkedSub panic x y = .ok z ↔ y ≤ x ∧ z = x - y := by
  unfold checkedSub; split <;> rename_i h <;> simp only [h, true_and, false_and, Except.ok.injEq, reduceCtorEq, eq_comm]

theorem callBool_eq_ok {bubble : Bytes → ε} {c : CallResult} {b : Bool} :
    callBool bubble c = .ok b ↔ c = .returned b := by
  cases c <;> simp [callBool]

theorem toNat_add_of_lt {x y : BitVec w} (h : x.toNat + y.toNat < 2 ^ w) :
    (x + y).toNat = x.toNat + y.toNat := by
  rw [BitVec.toNat_add, Nat.mod_eq_of_lt h]

theorem toNat_sub_of_le {x y : BitVec w} (h : y ≤ x) : (x - y).toNat = x.toNat - y.toNat :=
  BitVec.toNat_sub_of_le h

end

@[simp] theorem toNat_bytes32OfU64 (x : U64) : (bytes32OfU64 x).toNat = x.toNat := by
  have := x.isLt
  simp only [bytes32OfU64, BitVec.toNat_setWidth]
  omega

theorem bytes32OfU64_inj {x y : U64} : bytes32OfU64 x = bytes32OfU64 y ↔ x = y := by
  refine ⟨fun h => BitVec.eq_of_toNat_eq ?_, fun h => h ▸ rfl⟩
  rw [← toNat_bytes32OfU64 x, ← toNat_bytes32OfU64 y, h]

theorem wordBytes_inj {w w' : Bytes32} : wordBytes w = wordBytes w' ↔ w = w' := by
  have lt (z : Bytes32) : z.toNat < 256 ^ 32 := z.isLt
  refine ⟨fun h => BitVec.eq_of_toNat_eq ((toBE_inj (lt w) (lt w')).1 h), fun h => h ▸ rfl⟩

theorem wordBytes_eq_toBE {w : Bytes32} {v : Nat} (hv : v < 256 ^ 32) : wordBytes w = toBE 32 v ↔ w.toNat = v :=
  toBE_inj w.isLt hv

theorem wordBytes_calldataload {data : Bytes} {off : Nat} (h : off + 32 ≤ data.length) :
    wordBytes (calldataload data off) = (data.drop off).take 32 := by
  have hlen : ((data.drop off).take 32).length = 32 := by rw [List.length_take, List.length_drop]; omega
  have hlt : ofBE ((data.drop off).take 32) < 2 ^ 256 := by
    have := ofBE_lt ((data.drop off).take 32)
    rwa [hlen] at this
  have hround := toBE_ofBE ((data.drop off).take 32)
  rw [hlen] at hround
  rw [wordBytes, calldataload, BitVec.toNat_ofNat, Nat.mod_eq_of_lt hlt, hround]

theorem eq_words_of_length {data : Bytes} (h : data.length = 64) :
    data = wordBytes (calldataload data 0) ++ wordBytes (calldataload data 32) := by
  rw [wordBytes_calldataload (by omega), wordBytes_calldataload (by omega), List.drop_zero,
    List.take_of_length_le (by rw [List.length_drop]; omega : (data.drop 32).length ≤ 32), List.take_append_drop]

theorem toInt_of_bytes32OfI64_lt {x : I64} (h : (bytes32OfI64 x).toNat < 2 ^ 255) :
    x.toInt = (bytes32OfI64 x).toNat := by
  have hs : (bytes32OfI64 x).toInt = x.toInt := BitVec.toInt_signExtend_of_le (by decide)
  rw [BitVec.toInt_eq_toNat_cond] at hs
  split at hs <;> omega

theorem toNat_bytes32OfI64_of_nonneg {x : I64} (h : 0 ≤ x.toInt) : ((bytes32OfI64 x).toNat : ℤ) = x.toInt := by
  have hs : (bytes32OfI64 x).toInt = x.toInt := BitVec.toInt_signExtend_of_le (by decide)
  have hlt := (bytes32OfI64 x).isLt
  rw [BitVec.toInt_eq_toNat_cond] at hs
  split at hs <;> omega

/-- A negative `int64` becomes a word of at least `2^256 - 2^63`. -/
theorem toNat_bytes32OfI64_of_neg {x : I64} (h : x.toInt < 0) :
    ((bytes32OfI64 x).toNat : ℤ) = 2 ^ 256 + x.toInt := by
  have hs : (bytes32OfI64 x).toInt = x.toInt := BitVec.toInt_signExtend_of_le (by decide)
  rw [BitVec.toInt_eq_toNat_cond] at hs
  split at hs <;> omega

theorem bytes32OfI64_inj {x y : I64} : bytes32OfI64 x = bytes32OfI64 y ↔ x = y := by
  refine ⟨fun h => BitVec.eq_of_toInt_eq ?_, fun h => h ▸ rfl⟩
  have hint (z : I64) : (bytes32OfI64 z).toInt = z.toInt := BitVec.toInt_signExtend_of_le (by decide)
  rw [← hint x, ← hint y, h]

@[simp] theorem toNat_addressWord (a : Address) : (addressWord a).toNat = a.toNat := by
  have := a.isLt
  simp only [addressWord, BitVec.toNat_setWidth]
  omega

theorem addressWord_inj {a b : Address} : addressWord a = addressWord b ↔ a = b := by
  refine ⟨fun h => BitVec.eq_of_toNat_eq ?_, fun h => h ▸ rfl⟩
  rw [← toNat_addressWord a, ← toNat_addressWord b, h]

@[simp] theorem length_wordBytes (w : Bytes32) : (wordBytes w).length = 32 := length_toBE ..

/-- Static words have a fixed layout. -/
theorem abiEncode_inj {ws ws' : List Bytes32} (hlen : ws.length = ws'.length) :
    abiEncode ws = abiEncode ws' ↔ ws = ws' := by
  refine ⟨fun h => ?_, fun h => h ▸ rfl⟩
  induction ws generalizing ws' with
  | nil => exact (List.length_eq_zero_iff.1 hlen.symm).symm
  | cons w ws ih =>
    cases ws' with
    | nil => cases hlen
    | cons w' ws' =>
      rw [abiEncode, abiEncode, List.flatMap_cons, List.flatMap_cons] at h
      obtain ⟨hw, hws⟩ := List.append_inj h (by simp)
      rw [wordBytes_inj.1 hw, ih (Nat.succ.inj hlen) hws]

@[simp] theorem length_encodePackedU64 (x y : U64) : (encodePackedU64 x y).length = 16 := by
  simp [encodePackedU64]

theorem encodePackedU64_inj {x y x' y' : U64} :
    encodePackedU64 x y = encodePackedU64 x' y' ↔ x = x' ∧ y = y' := by
  refine ⟨fun h => ?_, fun ⟨hx, hy⟩ => hx ▸ hy ▸ rfl⟩
  obtain ⟨hx, hy⟩ := List.append_inj h (by simp)
  have lt (z : U64) : z.toNat < 256 ^ 8 := z.isLt
  exact ⟨BitVec.eq_of_toNat_eq ((toBE_inj (lt x) (lt x')).1 hx),
    BitVec.eq_of_toNat_eq ((toBE_inj (lt y) (lt y')).1 hy)⟩

end InfraVeritas
