import Mathlib.Data.List.Basic

/-!
# Lowercase hexadecimal

`ofHex` reads a string of hexadecimal digits as a number; `Nat.toDigits 16` writes one
(`ofHex_toDigits`). `bytesToHex` writes two digits a byte and `hexToBytes` reads them back.
-/

namespace Hex

/-- The value of a lowercase hexadecimal digit. -/
def hexValue (c : Char) : Nat := if c.isDigit then c.toNat - 48 else c.toNat - 87

def isHexDigit (c : Char) : Bool := c.isDigit || ('a' ≤ c && c ≤ 'f')

def ofHex (cs : List Char) : Nat := cs.foldl (fun v c => 16 * v + hexValue c) 0

theorem hexValue_digitChar {d : Nat} (h : d < 16) : hexValue d.digitChar = d := by
  have hall : ∀ d : Fin 16, hexValue (Nat.digitChar d) = d := by decide
  exact hall ⟨d, h⟩

theorem isHexDigit_digitChar {d : Nat} (h : d < 16) : isHexDigit d.digitChar = true := by
  have hall : ∀ d : Fin 16, isHexDigit (Nat.digitChar d) = true := by decide
  exact hall ⟨d, h⟩

theorem ofHex_concat (cs : List Char) (c : Char) : ofHex (cs ++ [c]) = 16 * ofHex cs + hexValue c := by
  rw [ofHex, List.foldl_append]
  rfl

theorem ofHex_toDigits (n : Nat) : ofHex (Nat.toDigits 16 n) = n := by
  induction n using Nat.strongRecOn with
  | ind n ih =>
    by_cases h : n < 16
    · rw [Nat.toDigits_of_lt_base h]
      show 16 * 0 + hexValue n.digitChar = n
      rw [hexValue_digitChar h, Nat.mul_zero, Nat.zero_add]
    · rw [Nat.toDigits_of_base_le (by decide) (by omega), ofHex_concat, ih (n / 16) (by omega),
        hexValue_digitChar (by omega)]
      omega

def byteToHex (b : UInt8) : List Char := [Nat.digitChar (b.toNat / 16), Nat.digitChar (b.toNat % 16)]

def bytesToHex (bs : List UInt8) : List Char := bs.flatMap byteToHex

/-- Two digits a byte; a last odd digit is dropped. -/
def hexToBytes : List Char → List UInt8
  | c :: d :: cs => UInt8.ofNat (16 * hexValue c + hexValue d) :: hexToBytes cs
  | _ => []

theorem hexToBytes_bytesToHex (bs : List UInt8) : hexToBytes (bytesToHex bs) = bs := by
  induction bs with
  | nil => rfl
  | cons b bs ih =>
    have hb := b.toNat_lt
    show UInt8.ofNat (16 * hexValue _ + hexValue _) :: hexToBytes (bytesToHex bs) = _
    rw [ih, hexValue_digitChar (by omega), hexValue_digitChar (by omega), Nat.div_add_mod, UInt8.ofNat_toNat]

theorem hexToBytes_replicate (c : Char) (n : Nat) :
    hexToBytes (List.replicate (2 * n) c) = List.replicate n (UInt8.ofNat (16 * hexValue c + hexValue c)) := by
  induction n with
  | zero => rfl
  | succ n ih =>
    rw [Nat.mul_succ, List.replicate_succ, List.replicate_succ, List.replicate_succ, hexToBytes, ih]

theorem bytesToHex_inj {as bs : List UInt8} : bytesToHex as = bytesToHex bs ↔ as = bs := by
  refine ⟨fun h => ?_, fun h => h ▸ rfl⟩
  rw [← hexToBytes_bytesToHex as, h, hexToBytes_bytesToHex]

@[simp] theorem length_bytesToHex (bs : List UInt8) : (bytesToHex bs).length = 2 * bs.length := by
  induction bs with
  | nil => rfl
  | cons b bs ih =>
    rw [bytesToHex, List.flatMap_cons, List.length_append, ← bytesToHex, ih, List.length_cons, byteToHex]
    simp only [List.length_cons, List.length_nil]
    omega

theorem isHexDigit_bytesToHex (bs : List UInt8) : (bytesToHex bs).all isHexDigit = true := by
  induction bs with
  | nil => rfl
  | cons b bs ih =>
    have hb := b.toNat_lt
    rw [bytesToHex, List.flatMap_cons, List.all_append, ← bytesToHex, ih, Bool.and_true, byteToHex]
    simp only [List.all_cons, List.all_nil, Bool.and_true, Bool.and_eq_true]
    exact ⟨isHexDigit_digitChar (by omega), isHexDigit_digitChar (by omega)⟩

theorem length_hexToBytes (cs : List Char) : (hexToBytes cs).length = cs.length / 2 := by
  induction cs using hexToBytes.induct with
  | case1 c d cs ih => rw [hexToBytes, List.length_cons, ih, List.length_cons, List.length_cons]; omega
  | case2 cs h =>
    match cs with
    | [] => rfl
    | [_] => simp [hexToBytes]
    | c :: d :: cs => exact absurd rfl (h c d cs)

end Hex
