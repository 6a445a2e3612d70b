import InfraVeritas.Circuit
import InfraVeritas.EdgeClient

/-!
# The two signers of the edge

`P256Signer` signs in software and `ATECCSigner` on a chip. Either gets a pair (r, s) from its library and replaces s
by n - s if that is the smaller of the two, as the circuit requires.
-/

namespace InfraVeritas
open BigEndian Checks

/-! ### Low s -/

/-- The lesser of s and n - s. -/
def lowS (n s : Nat) : Nat := if n / 2 < s then n - s else s

section LowS
variable {n s : Nat}

theorem lowS_eq_or (n s : Nat) : lowS n s = s ∨ lowS n s = n - s := by
  rw [lowS]
  split
  case isTrue => exact .inr rfl
  case isFalse => exact .inl rfl

theorem lowS_pos (h0 : 0 < s) (h : s < n) : 0 < lowS n s := by
  rw [lowS]
  split <;> omega

/-- An odd n has no middle. -/
theorem lowS_le (hn : n % 2 = 1) (s : Nat) : lowS n s ≤ (n - 1) / 2 := by
  rw [lowS]
  split <;> omega

theorem lowS_sub (hn : n % 2 = 1) (h : s ≤ n) : lowS n (n - s) = lowS n s := by
  rw [lowS, lowS]
  split <;> split <;> omega

theorem lowS_lt (h0 : 0 < s) (h : s < n) : lowS n s < n := by
  rcases lowS_eq_or n s with heq | heq <;> omega

end LowS

/-- The order of the group of P-256. -/
def p256Order : Nat := 115792089210356248762697446949407573529996955224135760342422259061068512044369

namespace Edge

/-- `v.to_bytes(32, "big")` of any integer. -/
def intToBytes32 (v : Int) : Except PyError Bytes := if v < 0 then .error .overflowError else toBytes32 v.toNat

theorem intToBytes32_natCast {v : Nat} (h : v < 256 ^ 32) : intToBytes32 v = .ok (toBE 32 v) := by
  have h0 : ¬ ((v : Int) < 0) := by omega
  rw [intToBytes32, if_neg h0, Int.toNat_natCast, toBytes32, if_pos h]

/-! ### `hal/signing.py` -/

def P256_CURVE_ORDER : Int := 0xFFFFFFFF00000000FFFFFFFFFFFFFFFFBCE6FAADA7179E84F3B9CAC2FC632551

/-- `private_key_sign` is `_private_key.sign(.., ec.ECDSA(Prehashed(hashes.SHA256())))`, in DER. -/
structure P256Signer where
  private_key_sign : Bytes → Bytes
  decode_dss_signature : Bytes → Int × Int
  public_key : Bytes

def P256Signer.sign (self : P256Signer) (message_hash : Bytes) : Except PyError Bytes := do
  let n := message_hash.length
  revertIf (n ≠ 32) (.valueError s!"Expected 32-byte hash, got {n}")
  let signature_der := self.private_key_sign message_hash
  let (r, s) := self.decode_dss_signature signature_der
  let s := if s > P256_CURVE_ORDER / 2 then P256_CURVE_ORDER - s else s
  let rBytes ← intToBytes32 r
  let sBytes ← intToBytes32 s
  return rBytes ++ sBytes

/-! ### `hal/signing_atecc.py` -/

def ATECCSigner.N : Int := 0xFFFFFFFF00000000FFFFFFFFFFFFFFFFBCE6FAADA7179E84F3B9CAC2FC632551

/-- `atcab_sign` returns a status and fills the 64 bytes of `sig`. -/
structure ATECCSigner where
  slot : Nat
  atcab_sign : Nat → Bytes → Int × Bytes
  public_key : Bytes

def ATECCSigner.sign (self : ATECCSigner) (message_hash : Bytes) : Except PyError Bytes := do
  revertIf (message_hash.length ≠ 32) (.assertionError "need 32-byte hash")
  let (status, sig) := self.atcab_sign self.slot message_hash
  revertIf (status ≠ 0) (.assertionError "sign failed")
  let r : Int := ofBE (sig.take 32)
  let s : Int := ofBE (sig.drop 32)
  let s := if s > N / 2 then N - s else s
  let rBytes ← intToBytes32 r
  let sBytes ← intToBytes32 s
  return rBytes ++ sBytes

/-! ### What they return -/

theorem curveOrder_eq : P256_CURVE_ORDER = p256Order := rfl

theorem ATECCSigner.N_eq : N = p256Order := rfl

theorem p256Order_lt : p256Order < 256 ^ 32 := by decide

/-- The comparison on integers that both make. -/
theorem normalize_eq {n s : Nat} (h : s ≤ n) : (if (s : Int) > (n : Int) / 2 then (n : Int) - s else s) = lowS n s := by
  rw [lowS]
  split <;> split <;> omega

variable {r s : Nat} {hash : Bytes}

theorem P256Signer.sign_eq {signer : P256Signer} (hlen : hash.length = 32) (hr : r < p256Order) (hs0 : 0 < s)
    (hs : s < p256Order)
    (hsig : signer.decode_dss_signature (signer.private_key_sign hash) = ((r : Int), (s : Int))) :
    signer.sign hash = .ok (toBE 32 r ++ toBE 32 (lowS p256Order s)) := by
  have hlow := (lowS_lt hs0 hs).trans p256Order_lt
  unfold P256Signer.sign
  simp only [hsig]
  rw [revertIf_of_not (not_not.2 hlen), ok_bind, curveOrder_eq, normalize_eq hs.le, intToBytes32_natCast (hr.trans p256Order_lt), intToBytes32_natCast hlow]
  rfl

theorem ATECCSigner.sign_eq {signer : ATECCSigner} (hlen : hash.length = 32) (hr : r < p256Order) (hs0 : 0 < s)
    (hs : s < p256Order) (hsig : signer.atcab_sign signer.slot hash = (0, toBE 32 r ++ toBE 32 s)) :
    signer.sign hash = .ok (toBE 32 r ++ toBE 32 (lowS p256Order s)) := by
  have hlow := (lowS_lt hs0 hs).trans p256Order_lt
  have hr' := hr.trans p256Order_lt
  have htake : (toBE 32 r ++ toBE 32 s).take 32 = toBE 32 r := List.take_left' (length_toBE 32 r)
  have hdrop : (toBE 32 r ++ toBE 32 s).drop 32 = toBE 32 s := List.drop_left' (length_toBE 32 r)
  rw [ATECCSigner.sign, revertIf_of_not (not_not.2 hlen), ok_bind, hsig]
  dsimp only
  rw [revertIf_of_not (not_not.2 rfl), ok_bind, htake, hdrop, ofBE_toBE_of_lt hr',
    ofBE_toBE_of_lt (hs.trans p256Order_lt), N_eq, normalize_eq hs.le, intToBytes32_natCast hr', intToBytes32_natCast hlow]
  rfl

/-! ### Both signers -/

def P256Signer.toSigner (self : P256Signer) : Signer := ⟨self.sign, self.public_key⟩

def ATECCSigner.toSigner (self : ATECCSigner) : Signer := ⟨self.sign, self.public_key⟩

/-- Where the libraries give one signature, the client posts one body. -/
theorem submitBody_toSigner {soft : P256Signer} {chip : ATECCSigner} {perm : Poseidon.Permutation}
    {payload : CanonicalPayload} (hhash : computePayloadHash perm payload = .ok hash) (hlen : hash.length = 32)
    (hr : r < p256Order) (hs0 : 0 < s) (hs : s < p256Order)
    (hsoft : soft.decode_dss_signature (soft.private_key_sign hash) = ((r : Int), (s : Int)))
    (hchip : chip.atcab_sign chip.slot hash = (0, toBE 32 r ++ toBE 32 s)) (hkey : soft.public_key = chip.public_key) :
    submitBody perm soft.toSigner payload = submitBody perm chip.toSigner payload := by
  have hsign : soft.toSigner.sign hash = chip.toSigner.sign hash :=
    (P256Signer.sign_eq hlen hr hs0 hs hsoft).trans (ATECCSigner.sign_eq hlen hr hs0 hs hchip).symm
  have hpublic : soft.toSigner.public_key = chip.toSigner.public_key := hkey
  rw [submitBody, submitBody, hhash, ok_bind, ok_bind, hsign, hpublic]

/-- The circuit's library for one key: of the valid signatures it takes those with the lower s, and s and n - s are
valid alike. -/
structure TakesLowS (std : Circuit.Std) (x y : Bytes) (Valid : Bytes → Nat → Nat → Prop) : Prop where
  negate : ∀ hash r s, 0 < s → s < p256Order → (Valid hash r (p256Order - s) ↔ Valid hash r s)
  verify : ∀ hash signature, hash.length = 32 → signature.length = 64 →
    (std.verify_signature x y signature hash = true ↔
      Valid hash (ofBE (signature.take 32)) (ofBE (signature.drop 32)) ∧
        ofBE (signature.drop 32) ≤ (p256Order - 1) / 2)

theorem TakesLowS.valid_lowS {std : Circuit.Std} {x y : Bytes} {Valid : Bytes → Nat → Nat → Prop}
    (h : TakesLowS std x y Valid) (hs0 : 0 < s) (hs : s < p256Order) (hvalid : Valid hash r s) :
    Valid hash r (lowS p256Order s) := by
  rcases lowS_eq_or p256Order s with heq | heq
  · rwa [heq]
  · rwa [heq, h.negate hash r s hs0 hs]

theorem TakesLowS.verify_lowS {std : Circuit.Std} {x y : Bytes} {Valid : Bytes → Nat → Nat → Prop}
    (h : TakesLowS std x y Valid) (hlen : hash.length = 32) (hr : r < p256Order) (hs0 : 0 < s) (hs : s < p256Order)
    (hvalid : Valid hash r s) :
    std.verify_signature x y (toBE 32 r ++ toBE 32 (lowS p256Order s)) hash = true := by
  have hlow := (lowS_lt hs0 hs).trans p256Order_lt
  have hlength : (toBE 32 r ++ toBE 32 (lowS p256Order s)).length = 64 := by
    rw [List.length_append, length_toBE, length_toBE]
  rw [h.verify hash _ hlen hlength, List.take_left' (length_toBE 32 r), List.drop_left' (length_toBE 32 r),
    ofBE_toBE_of_lt (hr.trans p256Order_lt), ofBE_toBE_of_lt hlow]
  exact ⟨h.valid_lowS hs0 hs hvalid, lowS_le rfl s⟩

/-- From one pair (r, s) both signers make the same 64 bytes, as they do from (r, n - s), and the circuit takes them. -/
theorem signers_normalise_alike (hlen : hash.length = 32) (hr : r ≤ p256Order - 1) (hs0 : 1 ≤ s)
    (hs : s ≤ p256Order - 1) {soft : P256Signer} {chip : ATECCSigner}
    (hsoft : soft.decode_dss_signature (soft.private_key_sign hash) = ((r : Int), (s : Int)))
    (hchip : chip.atcab_sign chip.slot hash = (0, toBE 32 r ++ toBE 32 s)) :
    ∃ s', soft.sign hash = .ok (toBE 32 r ++ toBE 32 s') ∧ chip.sign hash = .ok (toBE 32 r ++ toBE 32 s') ∧
      (s' = s ∨ s' = p256Order - s) ∧ 1 ≤ s' ∧ s' ≤ (p256Order - 1) / 2 ∧
      (toBE 32 r).length = 32 ∧ (toBE 32 s').length = 32 ∧ ofBE (toBE 32 r) = r ∧ ofBE (toBE 32 s') = s' ∧
      (∀ soft' : P256Signer,
        soft'.decode_dss_signature (soft'.private_key_sign hash) = ((r : Int), ((p256Order - s : Nat) : Int)) →
          soft'.sign hash = soft.sign hash) ∧
      (∀ chip' : ATECCSigner, chip'.atcab_sign chip'.slot hash = (0, toBE 32 r ++ toBE 32 (p256Order - s)) →
          chip'.sign hash = chip.sign hash) ∧
      ∀ std x y Valid, TakesLowS std x y Valid → Valid hash r s →
        Valid hash r s' ∧ std.verify_signature x y (toBE 32 r ++ toBE 32 s') hash = true := by
  have hpos : 0 < p256Order := by decide
  have hr' : r < p256Order := by omega
  have hs' : s < p256Order := by omega
  have hlow := (lowS_lt hs0 hs').trans p256Order_lt
  have hsub := lowS_sub (n := p256Order) rfl hs'.le
  have hneg0 : 0 < p256Order - s := by omega
  have hneg : p256Order - s < p256Order := by omega
  have hsoft' := P256Signer.sign_eq hlen hr' hs0 hs' hsoft
  have hchip' := ATECCSigner.sign_eq hlen hr' hs0 hs' hchip
  refine ⟨lowS p256Order s, hsoft', hchip', lowS_eq_or _ _, lowS_pos hs0 hs', lowS_le rfl s, length_toBE _ _,
    length_toBE _ _, ofBE_toBE_of_lt (hr'.trans p256Order_lt), ofBE_toBE_of_lt hlow, fun soft' h => ?_,
    fun chip' h => ?_, fun std x y Valid h hvalid =>
      ⟨h.valid_lowS hs0 hs' hvalid, h.verify_lowS hlen hr' hs0 hs' hvalid⟩⟩
  · rw [P256Signer.sign_eq hlen hr' hneg0 hneg h, hsub, hsoft']
  · rw [ATECCSigner.sign_eq hlen hr' hneg0 hneg h, hsub, hchip']

namespace Signing.SampleSigner

/-- (1, n - 1) in DER. -/
def der : Bytes := [0x30, 0x26, 0x02, 0x01, 0x01, 0x02, 0x21, 0x00] ++ toBE 32 (p256Order - 1)

def decode (bytes : Bytes) : Int × Int :=
  if bytes = der then (((1 : Nat) : Int), ((p256Order - 1 : Nat) : Int)) else (0, 0)

theorem decode_der : decode der = (((1 : Nat) : Int), ((p256Order - 1 : Nat) : Int)) := if_pos rfl

def software : P256Signer := ⟨fun _ => der, decode, List.replicate 64 0⟩

def hardware : ATECCSigner := ⟨0, fun _ _ => (0, toBE 32 1 ++ toBE 32 (p256Order - 1)), List.replicate 64 0⟩

def zeroHash : Bytes := List.replicate 32 0

def Valid (_ : Bytes) (r s : Nat) : Prop := r = 1 ∧ (s = 1 ∨ s = p256Order - 1)

def std : Circuit.Std where
  sponge _ := 0
  verify_signature _ _ signature _ := decide (ofBE (signature.take 32) = 1 ∧ ofBE (signature.drop 32) = 1)

theorem takesLowS : TakesLowS std [] [] Valid where
  negate hash r s h0 h := by
    rw [Valid, Valid]
    omega
  verify hash signature _ _ := by
    have hn : p256Order = 115792089210356248762697446949407573529996955224135760342422259061068512044369 := rfl
    rw [std, decide_eq_true_iff, Valid]
    omega

end Signing.SampleSigner

open Signing.SampleSigner in
theorem signers_normalise_alike_sample :
    ∃ signature, software.sign zeroHash = .ok signature ∧ hardware.sign zeroHash = .ok signature ∧
      std.verify_signature [] [] signature zeroHash = true := by
  obtain ⟨s', hsoft, hchip, -, -, -, -, -, -, -, -, -, hcircuit⟩ := @signers_normalise_alike 1 (p256Order - 1) zeroHash
    List.length_replicate (by decide) (by decide) (by decide) software hardware decode_der rfl
  exact ⟨_, hsoft, hchip, (hcircuit std [] [] Valid takesLowS ⟨rfl, .inr rfl⟩).2⟩

end Edge
end InfraVeritas
