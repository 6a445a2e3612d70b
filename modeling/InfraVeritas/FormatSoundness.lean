import Mathlib.Algebra.BigOperators.Ring.Finset
import InfraVeritas.Circuit
import InfraVeritas.Decoding

/-!
# What the circuit says about the format

A satisfying assignment has public inputs that are functions of its canonical payload (`publicOf`); nothing bounds
the 300 elements of the readings. If they are below `2^64`, and so are the public metadata, then the canonical
payload is the image of a payload and the proven energy is the integer sum; otherwise it is the image of none.
-/

namespace InfraVeritas
open BigEndian Checks

/-- The payload's canonical form, cut into field elements. -/
def ImageOf (p : CanonicalPayload) (xs : List Field) : Prop :=
  ∃ bytes elements, Edge.canonicalize p = .ok bytes ∧ Aggregator.bytesToFieldElements bytes = .ok elements ∧
    toFields elements = xs

variable {p p' : CanonicalPayload} {xs : List Field}

theorem imageOf_iff : ImageOf p xs ↔ Encodable p ∧ toFields p.words = xs := by
  constructor
  · rintro ⟨bytes, elements, hbytes, helements, hxs⟩
    obtain ⟨he, rfl⟩ := Edge.canonicalize_eq_ok.1 hbytes
    rw [Aggregator.bytesToFieldElements_bytes he.readings, Except.ok.injEq] at helements
    exact ⟨he, helements ▸ hxs⟩
  · rintro ⟨he, hxs⟩
    exact ⟨p.bytes, p.words, Edge.canonicalize_eq_ok.2 ⟨he, rfl⟩, Aggregator.bytesToFieldElements_bytes he.readings, hxs⟩

theorem toFields_map_val (xs : List Field) : toFields (xs.map ZMod.val) = xs := by
  rw [toFields, List.map_map]
  refine (List.map_congr_left fun x _ => ?_).trans (List.map_id xs)
  exact ZMod.natCast_zmod_val x

theorem ImageOf.words (h : ImageOf p xs) : p.words = xs.map ZMod.val := by
  obtain ⟨-, rfl⟩ := imageOf_iff.1 h
  exact (val_toFields fun w hw => (CanonicalPayload.words_lt hw).trans (by decide)).symm

theorem ImageOf.inj (h : ImageOf p xs) (h' : ImageOf p' xs) : p = p' := by
  have hp := decodeElements_words (imageOf_iff.1 h).1
  have hp' := decodeElements_words (imageOf_iff.1 h').1
  rw [h.words, ← h'.words, hp', Option.some.injEq] at hp
  exact hp.symm

theorem ImageOf.lt (h : ImageOf p xs) {x : Field} (hx : x ∈ xs) : x.val < 2 ^ 64 := by
  refine CanonicalPayload.words_lt (p := p) ?_
  rw [h.words]
  exact List.mem_map_of_mem hx

theorem exists_imageOf (hlen : xs.length = 307) (hlt : ∀ x ∈ xs, x.val < 2 ^ 64) : ∃ p, ImageOf p xs := by
  obtain ⟨p, hp⟩ := exists_decodeElements (show (xs.map ZMod.val).length = 307 by rw [List.length_map, hlen])
  obtain ⟨he, hw⟩ := words_of_decodeElements (List.forall_mem_map.2 hlt) hp
  exact ⟨p, imageOf_iff.2 ⟨he, by rw [hw, toFields_map_val]⟩⟩

namespace Circuit
variable {std : Std} {pub : Public} {w : Private}

/-- The public inputs that go with a canonical payload. -/
def publicOf (std : Std) (xs : List Field) : Public :=
  ⟨xs[0]!, xs[1]!, xs[2]!, xs[3]!, xs[4]!, xs[5]!, xs[6]!, std.sponge xs, totalEnergy xs⟩

/-- The circuit's sum, over the integers. -/
def energySum (xs : List Field) : Nat :=
  ((List.range 100).map fun i => xs[7 + i * 3]!.val * xs[8 + i * 3]!.val).sum

theorem totalEnergy_eq_energySum (xs : List Field) : totalEnergy xs = (energySum xs : Field) := by
  rw [totalEnergy, foldl_add_eq, zero_add, energySum, Nat.cast_list_sum, List.map_map]
  refine congrArg List.sum (List.map_congr_left fun i _ => ?_)
  rw [Function.comp_apply, Nat.cast_mul, ZMod.natCast_zmod_val, ZMod.natCast_zmod_val]

theorem main_iff_publicOf : main std pub w = .ok () ↔ pub = publicOf std w.canonical_payload ∧
    std.verify_signature w.pubkey_x w.pubkey_y w.signature (toBE 32 pub.payload_hash.val) = true := by
  have hseven := @take_seven w.canonical_payload (by rw [w.length_canonical_payload]; decide)
  rw [main_eq_ok]
  constructor
  · rintro ⟨hh, hm, hs, he⟩
    rw [hseven, Public.metadata] at hm
    simp only [List.cons.injEq, and_true] at hm
    obtain ⟨h0, h1, h2, h3, h4, h5, h6⟩ := hm
    refine ⟨?_, hs⟩
    rw [publicOf, h0, h1, h2, h3, h4, h5, h6, hh, he]
  · rintro ⟨rfl, hs⟩
    exact ⟨rfl, hseven, hs, rfl⟩

/-- The assignment proves the format: the canonical payload is that of `p`, with `uint64` readings and their sum. -/
structure FormatSound (pub : Public) (w : Private) (p : CanonicalPayload) : Prop where
  image : ImageOf p w.canonical_payload
  inRange : ∀ x ∈ w.canonical_payload, x.val < 2 ^ 64
  readings : ∀ r ∈ p.readings, IsU64 r.voltage_mv ∧ IsU64 r.current_ma ∧ IsU64 r.timestamp_ms
  energy : (pub.total_energy_mwh.val : ℤ) = (p.readings.map fun r => r.voltage_mv * r.current_ma).sum

theorem FormatSound.of_image (h : main std pub w = .ok ()) (hp : ImageOf p w.canonical_payload) : FormatSound pub w p := by
  obtain ⟨he, hwords⟩ := imageOf_iff.1 hp
  refine ⟨hp, fun x hx => hp.lt hx, he.reading, ?_⟩
  have hsum : pub.total_energy_mwh = (energyWords p.readings : Field) := by
    rw [(main_iff_publicOf.1 h).1, publicOf, ← hwords]
    exact totalEnergy_words he.readings
  rw [hsum, ZMod.val_natCast_of_lt (energyWords_lt_P he.readings)]
  exact energyWords_eq_sum fun r hr => ⟨(he.reading r hr).1, (he.reading r hr).2.1⟩

theorem inRange_iff (hpub : pub = publicOf std w.canonical_payload) : (∀ x ∈ w.canonical_payload, x.val < 2 ^ 64) ↔
    (∀ x ∈ pub.metadata, x.val < 2 ^ 64) ∧ ∀ x ∈ w.canonical_payload.drop 7, x.val < 2 ^ 64 := by
  have hmeta : pub.metadata = w.canonical_payload.take 7 := by
    rw [hpub, take_seven (by rw [w.length_canonical_payload]; decide)]
    rfl
  rw [hmeta, ← List.forall_mem_append, List.take_append_drop]

/-- A satisfying assignment's public inputs are those of its canonical payload, with the sum reduced modulo the
field's modulus. The canonical payload is the image of a payload, and the sum the integer one, exactly when the
public metadata and the 300 elements of the readings are below `2^64`; of these the circuit bounds neither. -/
theorem format_sound_iff (h : main std pub w = .ok ()) :
    pub = publicOf std w.canonical_payload ∧
    std.verify_signature w.pubkey_x w.pubkey_y w.signature (toBE 32 pub.payload_hash.val) = true ∧
    pub.total_energy_mwh.val = energySum w.canonical_payload % P ∧
    ((∃ p, FormatSound pub w p) ↔
      (∀ x ∈ pub.metadata, x.val < 2 ^ 64) ∧ ∀ x ∈ w.canonical_payload.drop 7, x.val < 2 ^ 64) ∧
    ∀ p p', ImageOf p w.canonical_payload → ImageOf p' w.canonical_payload → p = p' := by
  obtain ⟨hpub, hs⟩ := main_iff_publicOf.1 h
  refine ⟨hpub, hs, ?_, ?_, fun p p' => ImageOf.inj⟩
  · have htotal : pub.total_energy_mwh = (energySum w.canonical_payload : Field) := by
      rw [← totalEnergy_eq_energySum, hpub]
      rfl
    rw [htotal, ZMod.val_natCast]
  · rw [← inRange_iff hpub]
    constructor
    · rintro ⟨p, hp⟩
      exact hp.inRange
    · intro hlt
      obtain ⟨p, hp⟩ := exists_imageOf w.length_canonical_payload hlt
      exact ⟨p, .of_image h hp⟩

namespace SampleWitness

def accepting (sponge : List Field → Field) : Std := ⟨sponge, fun _ _ _ _ => true⟩

def assignment (xs : List Field) (h : xs.length = 307) : Private :=
  ⟨xs, List.replicate 64 0, List.replicate 32 0, List.replicate 32 0, h, List.length_replicate .., List.length_replicate ..,
    List.length_replicate ..⟩

theorem main_assignment (sponge : List Field → Field) {xs : List Field} (h : xs.length = 307) :
    main (accepting sponge) (publicOf (accepting sponge) xs) (assignment xs h) = .ok () := main_iff_publicOf.2 ⟨rfl, rfl⟩

/-- The first reading is of half of `P + 1` millivolts and two milliamperes. -/
def wrapping : List Field := List.replicate 7 0 ++ (((P + 1) / 2 : Nat) : Field) :: 2 :: List.replicate 298 0

theorem length_wrapping : wrapping.length = 307 := by
  rw [wrapping, List.length_append, List.length_cons, List.length_cons, List.length_replicate, List.length_replicate]

end SampleWitness

open SampleWitness CanonicalPayload.SamplePayload in
theorem format_sound_iff_southWest : ∃ pub w, main (accepting fun _ => 0) pub w = .ok () ∧ FormatSound pub w southWest := by
  have himage : ImageOf southWest (toFields southWest.words) := imageOf_iff.2 ⟨encodable_southWest, rfl⟩
  have hlen : (toFields southWest.words).length = 307 := by
    rw [toFields, List.length_map, CanonicalPayload.length_words encodable_southWest.readings]
  have hmain := main_assignment (fun _ => 0) hlen
  obtain ⟨hpub, -, -, hiff, hinj⟩ := format_sound_iff hmain
  obtain ⟨p, hp⟩ := hiff.2 ((inRange_iff hpub).1 fun x hx => himage.lt hx)
  exact ⟨_, _, hmain, hinj _ _ hp.image himage ▸ hp⟩

open SampleWitness in
/-- The energy of the first reading is `P + 1`, and the circuit proves 1. -/
theorem format_unsound :
    (∀ sponge, main (accepting sponge) (publicOf (accepting sponge) wrapping) (assignment wrapping length_wrapping) = .ok () ∧
      (publicOf (accepting sponge) wrapping).total_energy_mwh.val = 1) ∧
    energySum wrapping = P + 1 ∧ (∃ x ∈ wrapping, 2 ^ 64 ≤ x.val) ∧
    ¬ ∀ std pub w, main std pub w = .ok () → ∃ p, FormatSound pub w p := by
  have henergy : energySum wrapping = P + 1 := by decide +kernel
  have hbig : ∃ x ∈ wrapping, 2 ^ 64 ≤ x.val :=
    ⟨((P + 1) / 2 : Nat), List.mem_append_right _ (List.mem_cons_self ..), by decide +kernel⟩
  refine ⟨fun sponge => ⟨main_assignment sponge length_wrapping, ?_⟩, henergy, hbig, fun h => ?_⟩
  · show (totalEnergy wrapping).val = 1
    rw [totalEnergy_eq_energySum, henergy, ZMod.val_natCast]
    decide
  · obtain ⟨p, hp⟩ := h _ _ _ (main_assignment (fun _ => 0) length_wrapping)
    obtain ⟨x, hx, hge⟩ := hbig
    exact absurd (hp.inRange x hx) (Nat.not_lt.2 hge)

end Circuit
end InfraVeritas
