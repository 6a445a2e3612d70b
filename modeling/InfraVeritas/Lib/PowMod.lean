import Mathlib.NumberTheory.LucasPrimality
import Mathlib.Data.List.Prime

/-!
# Modular powers and certificates of primality

`powMod` squares and multiplies over the binary digits of the exponent, so that the kernel can evaluate it at
exponents of some hundred bits. `prime_of_isLucas` is Lucas's test with the factorization of `p - 1` given.
-/

namespace PowMod

/-- `b ^ e % m`, for an exponent of `bits` binary digits. -/
def powMod (m : Nat) : Nat → Nat → Nat → Nat
  | 0, _, _ => 1 % m
  | bits + 1, b, e => powMod m bits (b * b % m) (e / 2) * (if e % 2 = 1 then b else 1) % m

theorem powMod_eq {m bits : Nat} (b : Nat) {e : Nat} (h : e < 2 ^ bits) : powMod m bits b e = b ^ e % m := by
  induction bits generalizing b e with
  | zero =>
    obtain rfl : e = 0 := by simpa using h
    simp [powMod]
  | succ bits ih =>
    have hhalf : e / 2 < 2 ^ bits := by rw [pow_succ] at h; omega
    have hodd : (if e % 2 = 1 then b else 1) = b ^ (e % 2) := by
      rcases Nat.mod_two_eq_zero_or_one e with h2 | h2 <;> simp [h2]
    rw [powMod, ih (b * b % m) hhalf, ← Nat.pow_mod, Nat.mod_mul_mod, hodd, ← pow_two, ← pow_mul, ← pow_add,
      Nat.div_add_mod]

theorem natCast_pow_eq_one_iff {p : Nat} (hp : 1 < p) (a e : Nat) : (a : ZMod p) ^ e = 1 ↔ a ^ e % p = 1 := by
  rw [← Nat.cast_pow, ← Nat.cast_one, ZMod.natCast_eq_natCast_iff', Nat.mod_eq_of_lt hp]

/-- `a` has order `p - 1` modulo `p`: `factors` has every prime factor of `p - 1`. -/
def isLucas (bits p a : Nat) (factors : List Nat) : Bool :=
  decide (1 < p ∧ p < 2 ^ bits ∧ p - 1 ∣ factors.prod ^ bits ∧ powMod p bits a (p - 1) = 1) &&
    factors.all fun q => decide (powMod p bits a ((p - 1) / q) ≠ 1)

theorem prime_of_isLucas {p : Nat} (bits a : Nat) (factors : List Nat) (hprime : ∀ q ∈ factors, q.Prime)
    (h : isLucas bits p a factors = true) : p.Prime := by
  simp only [isLucas, Bool.and_eq_true, decide_eq_true_eq, List.all_eq_true] at h
  obtain ⟨⟨hone, hbits, hfactors, hfull⟩, hpart⟩ := h
  have hpow {e : Nat} (he : e ≤ p - 1) : (a : ZMod p) ^ e = 1 ↔ powMod p bits a e = 1 := by
    rw [natCast_pow_eq_one_iff hone, powMod_eq a (by omega)]
  refine lucas_primality p (a : ZMod p) ((hpow le_rfl).2 hfull) ?_
  intro q hq hdvd hone'
  have hprod : q ∣ factors.prod := hq.dvd_of_dvd_pow (hdvd.trans hfactors)
  obtain ⟨q', hq', hqq'⟩ := (Prime.dvd_prod_iff hq.prime).1 hprod
  obtain rfl : q = q' := (Nat.prime_dvd_prime_iff_eq hq (hprime q' hq')).1 hqq'
  exact hpart q hq' ((hpow (Nat.div_le_self ..)).1 hone')

end PowMod
