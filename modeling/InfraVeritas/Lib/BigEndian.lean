import Mathlib.Algebra.Order.Group.Nat
import Mathlib.Data.List.Basic
import Mathlib.Data.List.Induction
import Mathlib.Tactic.Ring

/-!
# Big-endian byte strings

`toBE n v` is the `n`-byte big-endian encoding of `v` (modulo `256 ^ n`) and `ofBE` reads a byte
string back. `wordsBE k bs` cuts a byte string into `k`-byte words; `wordsBE_flatMap` is the law
every fixed-width format rests on: cutting a concatenation of `k`-byte encodings gives the encoded
numbers back, each reduced modulo `256 ^ k`.
-/

namespace BigEndian

/-- The `n`-byte big-endian encoding of `v` modulo `256 ^ n`. -/
def toBE : Nat → Nat → List UInt8
  | 0, _ => []
  | n + 1, v => toBE n (v / 256) ++ [UInt8.ofNat v]

/-- The number a big-endian byte string denotes. -/
def ofBE (bs : List UInt8) : Nat :=
  bs.foldl (fun v b => v * 256 + b.toNat) 0

/-- The consecutive `k`-byte words of `bs`, read big-endian. -/
def wordsBE (k : Nat) (bs : List UInt8) : List Nat :=
  (List.range (bs.length / k)).map fun i => ofBE ((bs.drop (k * i)).take k)

@[simp] theorem length_toBE (n v : Nat) : (toBE n v).length = n := by
  induction n generalizing v with
  | zero => rfl
  | succ n ih => simp [toBE, ih]

@[simp] theorem ofBE_nil : ofBE [] = 0 := rfl

theorem ofBE_concat (bs : List UInt8) (b : UInt8) : ofBE (bs ++ [b]) = ofBE bs * 256 + b.toNat := by
  simp [ofBE, List.foldl_append]

theorem ofBE_lt (bs : List UInt8) : ofBE bs < 256 ^ bs.length := by
  induction bs using List.reverseRecOn with
  | nil => simp
  | append_singleton bs b ih =>
    have hb := b.toNat_lt
    rw [ofBE_concat, List.length_append, List.length_singleton, pow_succ]
    omega

theorem ofBE_toBE (n v : Nat) : ofBE (toBE n v) = v % 256 ^ n := by
  induction n generalizing v with
  | zero => simp [toBE, Nat.mod_one]
  | succ n ih =>
    have hb : (UInt8.ofNat v).toNat = v % 256 := by simp
    rw [toBE, ofBE_concat, ih, hb, pow_succ, Nat.mul_comm (256 ^ n), Nat.mod_mul]
    omega

theorem ofBE_toBE_of_lt {n v : Nat} (h : v < 256 ^ n) : ofBE (toBE n v) = v := by
  rw [ofBE_toBE, Nat.mod_eq_of_lt h]

theorem toBE_ofBE (bs : List UInt8) : toBE bs.length (ofBE bs) = bs := by
  induction bs using List.reverseRecOn with
  | nil => rfl
  | append_singleton bs b ih =>
    have hb := b.toNat_lt
    have hdiv : ofBE (bs ++ [b]) / 256 = ofBE bs := by rw [ofBE_concat]; omega
    have hmod : UInt8.ofNat (ofBE (bs ++ [b])) = b := by
      rw [ofBE_concat]
      apply UInt8.toNat_inj.1
      rw [UInt8.toNat_ofNat']
      omega
    rw [List.length_append, List.length_singleton, toBE, hdiv, hmod, ih]

theorem toBE_inj {n v w : Nat} (hv : v < 256 ^ n) (hw : w < 256 ^ n) : toBE n v = toBE n w ↔ v = w := by
  refine ⟨fun h => ?_, fun h => h ▸ rfl⟩
  rw [← ofBE_toBE_of_lt hv, ← ofBE_toBE_of_lt hw, h]

theorem ofBE_inj {as bs : List UInt8} (hlen : as.length = bs.length) : ofBE as = ofBE bs ↔ as = bs := by
  refine ⟨fun h => ?_, fun h => h ▸ rfl⟩
  rw [← toBE_ofBE as, ← toBE_ofBE bs, h, hlen]

theorem toBE_add (m n v : Nat) : toBE (m + n) v = toBE m (v / 256 ^ n) ++ toBE n v := by
  induction n generalizing v with
  | zero => simp [toBE]
  | succ n ih => rw [← Nat.add_assoc, toBE, toBE, ih, Nat.div_div_eq_div_mul, pow_succ', List.append_assoc]

theorem toBE_zero (n : Nat) : toBE n 0 = List.replicate n 0 := by
  induction n with
  | zero => rfl
  | succ n ih => rw [toBE, Nat.zero_div, ih, List.replicate_succ']; rfl

/-! ### Words -/

@[simp] theorem length_wordsBE (k : Nat) (bs : List UInt8) : (wordsBE k bs).length = bs.length / k := by
  simp [wordsBE]

theorem wordsBE_nil (k : Nat) : wordsBE k [] = [] := by simp [wordsBE]

theorem wordsBE_append {k : Nat} (hk : 0 < k) {as : List UInt8} (ha : as.length = k) (bs : List UInt8) :
    wordsBE k (as ++ bs) = ofBE as :: wordsBE k bs := by
  have hlen : (as ++ bs).length / k = bs.length / k + 1 := by
    rw [List.length_append, ha, Nat.add_comm, Nat.add_div_right _ hk]
  rw [wordsBE, hlen, List.range_succ_eq_map, List.map_cons, List.map_map]
  congr 1
  · simp [← ha]
  · refine List.map_congr_left ?_
    intro i _
    have hi : k * (i + 1) = k + k * i := by ring
    rw [Function.comp_apply, Nat.succ_eq_add_one, hi, ← List.drop_drop, List.drop_left' ha]

theorem wordsBE_flatMap {k : Nat} (hk : 0 < k) (vs : List Nat) :
    wordsBE k (vs.flatMap (toBE k)) = vs.map (· % 256 ^ k) := by
  induction vs with
  | nil => exact wordsBE_nil k
  | cons v vs ih =>
    rw [List.flatMap_cons, wordsBE_append hk (length_toBE k v), ih, ofBE_toBE, List.map_cons]

theorem wordsBE_flatMap_of_lt {k : Nat} (hk : 0 < k) {vs : List Nat} (h : ∀ v ∈ vs, v < 256 ^ k) :
    wordsBE k (vs.flatMap (toBE k)) = vs := by
  rw [wordsBE_flatMap hk]
  conv_rhs => rw [← List.map_id vs]
  exact List.map_congr_left fun v hv => Nat.mod_eq_of_lt (h v hv)

@[simp] theorem length_flatMap_toBE (k : Nat) (vs : List Nat) :
    (vs.flatMap (toBE k)).length = k * vs.length := by
  induction vs with
  | nil => rfl
  | cons v vs ih => rw [List.flatMap_cons, List.length_append, length_toBE, ih, List.length_cons]; ring

theorem wordsBE_lt {k : Nat} {bs : List UInt8} {w : Nat} (h : w ∈ wordsBE k bs) : w < 256 ^ k := by
  obtain ⟨i, -, rfl⟩ := List.mem_map.1 h
  refine (ofBE_lt _).trans_le (Nat.pow_le_pow_right (by decide) ?_)
  exact List.length_take_le ..

/-- A byte string of whole words is the concatenation of its words. -/
theorem flatMap_toBE_wordsBE {k n : Nat} (hk : 0 < k) {bs : List UInt8} (h : bs.length = k * n) :
    (wordsBE k bs).flatMap (toBE k) = bs := by
  induction n generalizing bs with
  | zero =>
    obtain rfl := List.length_eq_zero_iff.1 h
    rw [wordsBE_nil, List.flatMap_nil]
  | succ n ih =>
    rw [Nat.mul_succ] at h
    have htake : (bs.take k).length = k := by rw [List.length_take]; omega
    have hround := toBE_ofBE (bs.take k)
    rw [htake] at hround
    have hwords := wordsBE_append hk htake (bs.drop k)
    rw [List.take_append_drop] at hwords
    rw [hwords, List.flatMap_cons, hround, ih (by rw [List.length_drop]; omega), List.take_append_drop]

end BigEndian
