import Mathlib.Algebra.Group.Nat.Defs
import Mathlib.Data.List.Basic

/-!
# Fixed-width numerals

Texts made of decimal fields of fixed widths and of separators between them. What `write` makes of numbers that
fit their fields, `read` takes apart (`read_write`).
-/

namespace FixedWidth

inductive Piece
  | digits (width : Nat)
  | text (c : Char)
deriving DecidableEq, Repr

def value (cs : List Char) : Nat := Nat.ofDigitChars 10 cs 0

def padded (width n : Nat) : List Char :=
  List.replicate (width - (Nat.toDigits 10 n).length) '0' ++ Nat.toDigits 10 n

/-- The numbers in the fields, if the whole text has the form. -/
def read : List Piece → List Char → Option (List Nat)
  | [], [] => some []
  | [], _ :: _ => none
  | .text _ :: _, [] => none
  | .text c :: ps, d :: cs => if d = c then read ps cs else none
  | .digits w :: ps, cs =>
    if w ≤ cs.length ∧ (cs.take w).all Char.isDigit = true then (read ps (cs.drop w)).map (value (cs.take w) :: ·)
    else none

def write : List Piece → List Nat → List Char
  | [], _ => []
  | .text c :: ps, ns => c :: write ps ns
  | .digits _ :: _, [] => []
  | .digits w :: ps, n :: ns => padded w n ++ write ps ns

/-- One number a field, each within its width. -/
def Fits : List Piece → List Nat → Prop
  | [], ns => ns = []
  | .text _ :: ps, ns => Fits ps ns
  | .digits _ :: _, [] => False
  | .digits w :: ps, n :: ns => 0 < w ∧ n < 10 ^ w ∧ Fits ps ns

theorem length_padded {w n : Nat} (hw : 0 < w) (h : n < 10 ^ w) : (padded w n).length = w := by
  have hle : (Nat.toDigits 10 n).length ≤ w := (Nat.length_toDigits_le_iff (by decide) hw).2 h
  rw [padded, List.length_append, List.length_replicate]
  omega

theorem isDigit_padded (w n : Nat) : (padded w n).all Char.isDigit = true := by
  rw [padded, List.all_append, Bool.and_eq_true, List.all_eq_true, List.all_eq_true]
  refine ⟨fun c hc => ?_, fun c hc => Nat.isDigit_of_mem_toDigits (by decide) (by decide) hc⟩
  rw [List.eq_of_mem_replicate hc]
  decide

theorem value_padded (w n : Nat) : value (padded w n) = n := by
  rw [value, padded, Nat.ofDigitChars_append, Nat.ofDigitChars_replicate_zero, Nat.mul_zero,
    Nat.ofDigitChars_ten_toDigits]

/-- The first field can be read off without what follows. -/
theorem head_eq_of_write {w n n' : Nat} {ps ps' : List Piece} {ns ns' : List Nat} (hw : 0 < w) (hn : n < 10 ^ w)
    (hn' : n' < 10 ^ w) (h : write (.digits w :: ps) (n :: ns) = write (.digits w :: ps') (n' :: ns')) : n = n' := by
  have hlen : (padded w n).length = (padded w n').length := by rw [length_padded hw hn, length_padded hw hn']
  rw [write, write] at h
  rw [← value_padded w n, (List.append_inj h hlen).1, value_padded]

theorem read_write {ps : List Piece} {ns : List Nat} (h : Fits ps ns) : read ps (write ps ns) = some ns := by
  induction ps generalizing ns with
  | nil => cases h; rfl
  | cons p ps ih =>
    cases p with
    | text c => rw [write, read, if_pos rfl, ih h]
    | digits w =>
      rcases ns with _ | ⟨n, ns⟩
      · exact h.elim
      · obtain ⟨hw, hn, h⟩ := h
        have hlen := length_padded hw hn
        have hle : w ≤ (padded w n ++ write ps ns).length := by
          rw [List.length_append, hlen]
          omega
        rw [write, read, List.take_left' hlen, List.drop_left' hlen, if_pos ⟨hle, isDigit_padded w n⟩, ih h,
          value_padded]
        rfl

/-! ### What was read can be written back -/

theorem digit_lt {c : Char} (h : c.isDigit = true) : c.toNat - '0'.toNat < 10 := by
  have hle : c.toNat ≤ 57 := (Char.isDigit_iff_toNat.1 h).2
  show c.toNat - 48 < 10
  omega

theorem digit_inj {c d : Char} (hc : c.isDigit = true) (hd : d.isDigit = true)
    (h : c.toNat - '0'.toNat = d.toNat - '0'.toNat) : c = d := by
  have hc' : 48 ≤ c.toNat := (Char.isDigit_iff_toNat.1 hc).1
  have hd' : 48 ≤ d.toNat := (Char.isDigit_iff_toNat.1 hd).1
  have hsub : c.toNat - 48 = d.toNat - 48 := h
  exact Char.toNat_inj.1 (by omega)

theorem value_cons (c : Char) (cs : List Char) :
    value (c :: cs) = 10 ^ cs.length * (c.toNat - '0'.toNat) + value cs := by
  rw [value, Nat.ofDigitChars_cons, Nat.ofDigitChars_eq_ofDigitChars_zero, Nat.mul_zero, Nat.zero_add]
  rfl

theorem value_lt {cs : List Char} (h : cs.all Char.isDigit = true) : value cs < 10 ^ cs.length := by
  induction cs with
  | nil => exact Nat.one_pos
  | cons c cs ih =>
    rw [List.all_cons, Bool.and_eq_true] at h
    have hc := Nat.mul_le_mul_left (10 ^ cs.length) (Nat.le_of_lt_succ (digit_lt h.1))
    have hcs := ih h.2
    rw [value_cons, List.length_cons, Nat.pow_succ]
    omega

/-- Among the texts of one length, the number decides the digits. -/
theorem value_inj {cs ds : List Char} (hlen : cs.length = ds.length) (hc : cs.all Char.isDigit = true)
    (hd : ds.all Char.isDigit = true) (h : value cs = value ds) : cs = ds := by
  induction cs generalizing ds with
  | nil => exact (List.length_eq_zero_iff.1 hlen.symm).symm
  | cons c cs ih =>
    obtain ⟨d, ds, rfl⟩ := List.exists_cons_of_length_eq_add_one hlen.symm
    rw [List.length_cons, List.length_cons, Nat.add_right_cancel_iff] at hlen
    rw [List.all_cons, Bool.and_eq_true] at hc hd
    rw [value_cons, value_cons, hlen] at h
    have hlt := value_lt hc.2
    rw [hlen] at hlt
    have hdiv := congrArg (· / 10 ^ ds.length) h
    have hpos : 0 < 10 ^ ds.length := Nat.pow_pos (by decide)
    simp only [Nat.mul_add_div hpos, Nat.div_eq_of_lt hlt, Nat.div_eq_of_lt (value_lt hd.2), Nat.add_zero] at hdiv
    have htail : value cs = value ds := by
      rw [hdiv] at h
      exact Nat.add_left_cancel h
    rw [digit_inj hc.1 hd.1 hdiv, ih hlen hc.2 hd.2 htail]

theorem padded_value {cs : List Char} (h0 : 0 < cs.length) (h : cs.all Char.isDigit = true) :
    padded cs.length (value cs) = cs :=
  value_inj (length_padded h0 (value_lt h)) (isDigit_padded _ _) h (value_padded _ _)

theorem fits_and_write_of_read {ps : List Piece} (hps : .digits 0 ∉ ps) {cs : List Char} {ns : List Nat}
    (h : read ps cs = some ns) : Fits ps ns ∧ write ps ns = cs := by
  induction ps generalizing cs ns with
  | nil =>
    rcases cs with _ | ⟨c, cs⟩
    · cases h
      exact ⟨rfl, rfl⟩
    · cases h
  | cons p ps ih =>
    rw [List.mem_cons, not_or] at hps
    cases p with
    | text c =>
      rcases cs with _ | ⟨d, cs⟩
      · cases h
      · rw [read] at h
        split at h
        case isTrue hd =>
          obtain ⟨hfits, hwrite⟩ := ih hps.2 h
          exact ⟨hfits, by rw [write, hwrite, hd]⟩
        case isFalse => cases h
    | digits w =>
      rw [read] at h
      split at h
      case isTrue hw =>
        obtain ⟨rest, hrest, rfl⟩ := Option.map_eq_some_iff.1 h
        obtain ⟨hfits, hwrite⟩ := ih hps.2 hrest
        have hw0 : 0 < w := Nat.pos_of_ne_zero fun h0 => hps.1 (by rw [h0])
        have hlen : (cs.take w).length = w := List.length_take_of_le hw.1
        have hlt := value_lt hw.2
        have hpad := padded_value (by rwa [hlen]) hw.2
        rw [hlen] at hlt hpad
        refine ⟨⟨hw0, hlt, hfits⟩, ?_⟩
        rw [write, hpad, hwrite, List.take_append_drop]
      case isFalse => cases h

/-- Reading succeeds exactly on what is written from numbers that fit. -/
theorem read_eq_some_iff {ps : List Piece} (hps : .digits 0 ∉ ps) {cs : List Char} {ns : List Nat} :
    read ps cs = some ns ↔ Fits ps ns ∧ write ps ns = cs := by
  constructor
  · exact fits_and_write_of_read hps
  · rintro ⟨hfits, rfl⟩
    exact read_write hfits

/-- Numbers of four digits need no padding. -/
theorem padded_four {n : Nat} (h : 1000 ≤ n) (h' : n < 10000) : padded 4 n = Nat.toDigits 10 n := by
  have hlen : ¬ (Nat.toDigits 10 n).length ≤ 3 := by
    rw [Nat.length_toDigits_le_iff (by decide) (by decide)]
    omega
  have hpad : 4 - (Nat.toDigits 10 n).length = 0 := by omega
  rw [padded, hpad]
  rfl

end FixedWidth
