import Mathlib.Algebra.Group.Nat.Defs

/-!
# Numbers as bytes and digits

A number as a fixed count of bytes, most significant first. Below the range of the bytes the
encoding is exact and compares byte by byte as the numbers do, which is why such blobs can be sorted
as they are.
-/

namespace Garive

open Nat

/-- The `w` big-endian bytes of `n`. -/
def bigEndian : Nat → Nat → List UInt8
  | 0, _ => []
  | w + 1, n => UInt8.ofNat (n / 256 ^ w) :: bigEndian w (n % 256 ^ w)

/-- The number with the given big-endian bytes. -/
def ofBigEndian : List UInt8 → Nat
  | [] => 0
  | b :: bs => b.toNat * 256 ^ bs.length + ofBigEndian bs

@[simp] theorem length_bigEndian (w n : Nat) : (bigEndian w n).length = w := by
  induction w generalizing n with
  | zero => rfl
  | succ w ih => simp [bigEndian, ih]

/-- The leading byte of a number in range. -/
private theorem toNat_leading {w n : Nat} (h : n < 256 ^ (w + 1)) :
    (UInt8.ofNat (n / 256 ^ w)).toNat = n / 256 ^ w := by
  have hlt : n / 256 ^ w < 256 := by
    rw [Nat.div_lt_iff_lt_mul (Nat.pow_pos (by decide)), ← Nat.pow_succ']
    exact h
  rw [UInt8.toNat_ofNat']
  exact mod_eq_of_lt hlt

theorem ofBigEndian_bigEndian {w n : Nat} (h : n < 256 ^ w) :
    ofBigEndian (bigEndian w n) = n := by
  induction w generalizing n with
  | zero =>
    rw [pow_zero, lt_one_iff] at h
    rw [h]
    rfl
  | succ w ih =>
    rw [bigEndian, ofBigEndian, length_bigEndian, toNat_leading h,
      ih (Nat.mod_lt _ (Nat.pow_pos (by decide)))]
    exact div_add_mod' n (256 ^ w)

/-- Smaller numbers have smaller bytes. -/
theorem bigEndian_lt {w m n : Nat} (hlt : m < n) (h : n < 256 ^ w) :
    bigEndian w m < bigEndian w n := by
  induction w generalizing m n with
  | zero =>
    rw [pow_zero, lt_one_iff] at h
    omega
  | succ w ih =>
    have hpos : 0 < 256 ^ w := Nat.pow_pos (by decide)
    rw [bigEndian, bigEndian, List.cons_lt_cons_iff]
    rcases Nat.lt_or_ge (m / 256 ^ w) (n / 256 ^ w) with hlead | hlead
    · left
      rw [UInt8.lt_iff_toNat_lt, toNat_leading h, toNat_leading (Nat.lt_trans hlt h)]
      exact hlead
    · right
      have heq : m / 256 ^ w = n / 256 ^ w :=
        Nat.le_antisymm (Nat.div_le_div_right (Nat.le_of_lt hlt)) hlead
      refine ⟨by rw [heq], ih ?_ (mod_lt _ hpos)⟩
      have hm := div_add_mod m (256 ^ w)
      have hn := div_add_mod n (256 ^ w)
      rw [heq] at hm
      omega

/-- The decimal digits of a number determine it. -/
theorem toDigits_inj {a b : Nat} (h : toDigits 10 a = toDigits 10 b) : a = b := by
  rw [← ofDigitChars_ten_toDigits (n := a), h, ofDigitChars_ten_toDigits]

end Garive
