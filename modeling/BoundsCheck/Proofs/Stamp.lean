import Mathlib.Algebra.Group.Nat.Defs
import Mathlib.Data.Set.Operations
import Mathlib.Order.Bounds.Defs
import BoundsCheck.TagPacking

/-!
# Stamped tags in numbers

Read as a number, the tag `t` stamped with the input `i` is `t * 2 ^ shift + i`, provided that `i`
is below `2 ^ shift` and `t` passes the test for overflow.  So the two parts come out again as
remainder and quotient.

* `tagShift_le_iff` — the shift is the least one that leaves a number to every input.
* `overflows_iff` — the test for overflow.
* `toNat_stamp`, `inputOf_stamp`, `unstamp_stamp` — stamping, and the way back.
* `stamping_is_lossless` — all of it together, for the switches there can be.
-/

set_option autoImplicit false

namespace BoundsCheck.TagPacking

open Number

/-! ## Lengths of numerals -/

theorem bitLength_le_iff {n k : Nat} : bitLength n ≤ k ↔ n < 2 ^ k := by
  rw [bitLength]
  split
  · rename_i h
    rw [h]
    exact iff_of_true (Nat.zero_le k) (Nat.two_pow_pos k)
  · rename_i h
    rw [Nat.succ_le_iff, Nat.log2_lt h]

/-- A number has as many bits as its word has below the leading zeros. -/
theorem bitLength_toNat {w : Nat} (hw : 0 < w) (x : BitVec w) :
    bitLength x.toNat = w - x.clz.toNat := by
  refine Nat.le_antisymm (bitLength_le_iff.mpr BitVec.toNat_lt_two_pow_sub_clz) ?_
  by_cases hzero : x = 0#w
  · have hclz : x.clz.toNat = w := by
      rw [BitVec.clz_eq_iff_eq_zero.mpr hzero, BitVec.natCast_eq_ofNat, BitVec.toNat_ofNat,
        Nat.mod_eq_of_lt Nat.lt_two_pow_self]
    omega
  · have hlow : ¬ bitLength x.toNat ≤ w - 1 - x.clz.toNat := by
      rw [bitLength_le_iff, Nat.not_lt]
      exact BitVec.two_pow_sub_clz_le_toNat_of_ne_zero hw hzero
    omega

/-- The zeros that the test for overflow counts. -/
theorem leadingZeros_eq_clz (tag : Tag) : leadingZeros tag = tag.toBitVec.clz.toNat := by
  have hle : tag.toBitVec.clz.toNat ≤ 32 := BitVec.le_def.mp BitVec.clz_le
  have hlength := bitLength_toNat (by decide) tag.toBitVec
  rw [UInt32.toNat_toBitVec] at hlength
  rw [leadingZeros, hlength]
  omega

/-- The shift as the number of bits that a word has below the leading zeros. -/
theorem tagShift_eq_sub_clz {inputs : UInt64} (h : 0 < inputs) :
    tagShift inputs.toNat = 64 - (inputs - 1).toBitVec.clz.toNat := by
  have hone : (1 : UInt64).toNat ≤ inputs.toNat := UInt64.lt_iff_toNat_lt.mp h
  have hlength := bitLength_toNat (by decide) (inputs - 1).toBitVec
  rwa [UInt64.toNat_toBitVec, UInt64.toNat_sub_of_le _ _ (UInt64.le_iff_toNat_le.mpr hone)]
    at hlength

theorem tagShift_le_iff {inputs s : Nat} (h : 0 < inputs) :
    tagShift inputs ≤ s ↔ inputs ≤ 2 ^ s := by
  rw [tagShift, bitLength_le_iff]
  omega

/-- Every input has a number below `2 ^ tagShift`. -/
theorem lt_two_pow_tagShift {inputs input : Nat} (h : input < inputs) :
    input < 2 ^ tagShift inputs :=
  Nat.lt_of_lt_of_le h ((tagShift_le_iff (Nat.zero_lt_of_lt h)).mp (Nat.le_refl _))

theorem tagShift_one : tagShift 1 = 0 := rfl

/-- A switch of at most 32 inputs shifts by at most five bits. -/
theorem tagShift_le_five {inputs : Nat} (h : inputs ≤ 32) : tagShift inputs ≤ 5 := by
  rw [tagShift, bitLength_le_iff]
  omega

/-- The test for overflow sees whether the shifted tag still is a tag. -/
theorem overflows_iff {shift : Nat} (hshift : shift ≤ 32) (tag : Tag) :
    overflows shift tag = true ↔ 2 ^ 32 ≤ tag.toNat * 2 ^ shift := by
  have hlen : bitLength tag.toNat ≤ 32 := bitLength_le_iff.mpr tag.toNat_lt
  have hpow : 2 ^ 32 = 2 ^ (32 - shift) * 2 ^ shift := by
    rw [← Nat.pow_add, Nat.sub_add_cancel hshift]
  rw [hpow, Nat.mul_le_mul_right_iff (Nat.two_pow_pos _), ← Nat.not_lt, ← bitLength_le_iff,
    overflows, leadingZeros, decide_eq_true_eq]
  omega

/-! ## The parts of a tag -/

variable {shift : Nat} {tag : Tag}

theorem toNat_ofNat_shift (hshift : shift < 32) : (UInt32.ofNat shift).toNat % 32 = shift := by
  rw [UInt32.toNat_ofNat_of_lt' (Nat.lt_trans hshift (by decide)), Nat.mod_eq_of_lt hshift]

theorem inputOf_eq_mod (hshift : shift < 32) : inputOf shift tag = tag.toNat % 2 ^ shift := by
  have hpow : 2 ^ shift < 2 ^ 32 := Nat.pow_lt_pow_right (by omega) hshift
  have hone : ((1 : UInt32) <<< UInt32.ofNat shift).toNat = 2 ^ shift := by
    rw [UInt32.toNat_shiftLeft, toNat_ofNat_shift hshift, UInt32.toNat_one, Nat.one_shiftLeft,
      Nat.mod_eq_of_lt hpow]
  have hmask : ((1 <<< UInt32.ofNat shift - 1 : UInt32)).toNat = 2 ^ shift - 1 := by
    rw [UInt32.toNat_sub_of_le _ _ (UInt32.le_iff_toNat_le.mpr ?_), hone, UInt32.toNat_one]
    rw [hone, UInt32.toNat_one]
    exact Nat.two_pow_pos _
  rw [inputOf, UInt32.toNat_and, hmask, Nat.and_two_pow_sub_one_eq_mod]

theorem toNat_unstamp (hshift : shift < 32) :
    (unstamp shift tag).toNat = tag.toNat / 2 ^ shift := by
  rw [unstamp, UInt32.toNat_shiftRight, toNat_ofNat_shift hshift, Nat.shiftRight_eq_div_pow]

/-- A stamped tag as a number. -/
theorem toNat_stamp {input : Nat} (hshift : shift < 32) (hinput : input < 2 ^ shift)
    (hfit : tag.toNat * 2 ^ shift < 2 ^ 32) :
    (stamp shift input tag).toNat = tag.toNat * 2 ^ shift + input := by
  have hpow : 2 ^ shift < 2 ^ 32 := Nat.pow_lt_pow_right (by omega) hshift
  rw [stamp, UInt32.toNat_or, UInt32.toNat_shiftLeft, toNat_ofNat_shift hshift,
    UInt32.toNat_ofNat_of_lt' (Nat.lt_trans hinput hpow), Nat.shiftLeft_eq, Nat.mod_eq_of_lt hfit,
    Nat.mul_comm, Nat.two_pow_add_eq_or_of_lt hinput]

theorem inputOf_stamp {input : Nat} (hshift : shift < 32) (hinput : input < 2 ^ shift)
    (hfit : tag.toNat * 2 ^ shift < 2 ^ 32) : inputOf shift (stamp shift input tag) = input := by
  rw [inputOf_eq_mod hshift, toNat_stamp hshift hinput hfit, Nat.mul_add_mod_of_lt hinput]

theorem unstamp_stamp {input : Nat} (hshift : shift < 32) (hinput : input < 2 ^ shift)
    (hfit : tag.toNat * 2 ^ shift < 2 ^ 32) : unstamp shift (stamp shift input tag) = tag := by
  rw [← UInt32.toNat_inj, toNat_unstamp hshift, toNat_stamp hshift hinput hfit,
    Nat.add_comm, Nat.add_mul_div_right _ _ (Nat.two_pow_pos _), Nat.div_eq_of_lt hinput,
    Nat.zero_add]

/-! ## Nothing is lost -/

theorem isLeast_tagShift {inputs : Nat} (h : 0 < inputs) :
    IsLeast {s | inputs ≤ 2 ^ s} (tagShift inputs) :=
  ⟨(tagShift_le_iff h).mp (Nat.le_refl _), fun _ hs => (tagShift_le_iff h).mpr hs⟩

section Switch

variable {inputs : Nat}

theorem overflows_tagShift_iff (hle : inputs ≤ 32) (tag : Tag) :
    overflows (tagShift inputs) tag = true ↔ 2 ^ 32 ≤ tag.toNat * 2 ^ tagShift inputs := by
  have hfive := tagShift_le_five hle
  exact overflows_iff (by omega) tag

/-- A tag that passes the test, stamped with an input there is, as a number and taken apart again. -/
theorem parts_of_stamp (hle : inputs ≤ 32) {input : Nat} (hinput : input < inputs) {tag : Tag}
    (hfits : overflows (tagShift inputs) tag = false) :
    (stamp (tagShift inputs) input tag).toNat = tag.toNat * 2 ^ tagShift inputs + input ∧
      inputOf (tagShift inputs) (stamp (tagShift inputs) input tag) = input ∧
      unstamp (tagShift inputs) (stamp (tagShift inputs) input tag) = tag := by
  have hfive := tagShift_le_five hle
  have hlt : tagShift inputs < 32 := by omega
  have hbelow := lt_two_pow_tagShift hinput
  rw [← Bool.not_eq_true, overflows_tagShift_iff hle, Nat.not_le] at hfits
  exact ⟨toNat_stamp hlt hbelow hfits, inputOf_stamp hlt hbelow hfits,
    unstamp_stamp hlt hbelow hfits⟩

/-- No two pairs are stamped alike, since both parts can be read off the stamped tag. -/
theorem injOn_stamp (hle : inputs ≤ 32) :
    Set.InjOn (fun pair : Nat × Tag => stamp (tagShift inputs) pair.1 pair.2)
      {pair | pair.1 < inputs ∧ overflows (tagShift inputs) pair.2 = false} := by
  rintro ⟨input, tag⟩ ⟨hinput, hfits⟩ ⟨input', tag'⟩ ⟨hinput', hfits'⟩ heq
  change stamp (tagShift inputs) input tag = stamp (tagShift inputs) input' tag' at heq
  obtain ⟨-, hfirst, hsecond⟩ := parts_of_stamp hle hinput hfits
  obtain ⟨-, hfirst', hsecond'⟩ := parts_of_stamp hle hinput' hfits'
  rw [heq] at hfirst hsecond
  exact Prod.ext (hfirst.symm.trans hfirst') (hsecond.symm.trans hsecond')

end Switch

/-- **Stamping loses nothing.**  The shift is the least one that leaves a number to every input.
The test for overflow, which counts leading zeros, finds exactly the tags that are too large to be
shifted; from any other tag the stamped one is made by arithmetic, both parts come out of it again,
and no two pairs are stamped alike. -/
theorem stamping_is_lossless :
    (∀ inputs, 0 < inputs → IsLeast {s | inputs ≤ 2 ^ s} (tagShift inputs)) ∧
    (∀ inputs : UInt64, 0 < inputs →
      tagShift inputs.toNat = 64 - (inputs - 1).toBitVec.clz.toNat) ∧
    (∀ shift tag, overflows shift tag = true ↔ tag.toBitVec.clz.toNat < shift) ∧
    ∀ inputs, 2 ≤ inputs → inputs ≤ 32 →
      (∀ tag, overflows (tagShift inputs) tag = true ↔
        2 ^ 32 ≤ tag.toNat * 2 ^ tagShift inputs) ∧
      (∀ input < inputs, ∀ tag, overflows (tagShift inputs) tag = false →
        (stamp (tagShift inputs) input tag).toNat = tag.toNat * 2 ^ tagShift inputs + input ∧
        inputOf (tagShift inputs) (stamp (tagShift inputs) input tag) = input ∧
        unstamp (tagShift inputs) (stamp (tagShift inputs) input tag) = tag) ∧
      Set.InjOn (fun pair : Nat × Tag => stamp (tagShift inputs) pair.1 pair.2)
        {pair | pair.1 < inputs ∧ overflows (tagShift inputs) pair.2 = false} := by
  refine ⟨fun _ hpos => isLeast_tagShift hpos, fun _ hpos => tagShift_eq_sub_clz hpos,
    fun shift tag => ?_, fun inputs _ hle => ⟨overflows_tagShift_iff hle,
      fun input hinput tag hfits => parts_of_stamp hle hinput hfits, injOn_stamp hle⟩⟩
  rw [overflows, leadingZeros_eq_clz, decide_eq_true_eq]

/-- Five inputs leave 29 bits to a tag: the largest one, stamped with the last input. -/
theorem stamping_is_lossless_five_inputs :
    IsLeast {s | 5 ≤ 2 ^ s} (tagShift 5) ∧
      overflows (tagShift 5) 0x20000000 = true ∧ overflows (tagShift 5) 0x1FFFFFFF = false ∧
      (stamp (tagShift 5) 4 0x1FFFFFFF).toNat = 0x1FFFFFFF * 2 ^ tagShift 5 + 4 ∧
      inputOf (tagShift 5) (stamp (tagShift 5) 4 0x1FFFFFFF) = 4 ∧
      unstamp (tagShift 5) (stamp (tagShift 5) 4 0x1FFFFFFF) = 0x1FFFFFFF :=
  have hfive := stamping_is_lossless.2.2.2 5 (by decide) (by decide)
  ⟨stamping_is_lossless.1 5 (by decide), (hfive.1 _).mpr (by decide), by decide,
    hfive.2.1 4 (by decide) 0x1FFFFFFF (by decide)⟩

/-! ## A single input -/

theorem inputOf_zero (tag : Tag) : inputOf 0 tag = 0 := by
  rw [inputOf_eq_mod (by omega), Nat.pow_zero, Nat.mod_one]

theorem unstamp_zero (tag : Tag) : unstamp 0 tag = tag := by
  rw [← UInt32.toNat_inj, toNat_unstamp (by omega), Nat.pow_zero, Nat.div_one]

end BoundsCheck.TagPacking
