import Mathlib.Algebra.Group.Nat.Defs
import Mathlib.Data.Int.Init
import Mathlib.Tactic.Common

/-!
# Fixed-width C integers

C arithmetic is written on `ℕ` and `ℤ`, with the conversion spelled out wherever the C type of an
expression narrows or changes sign.  `toU32 x` is the value of `(uint32_t) x`, `toI32 x` of
`(int32_t) x`, and so on; an unsigned result is a natural number.

The lemmas are the two facts every range argument needs: a conversion is the identity on values
that fit, and an unsigned conversion of a difference that went below zero wraps.
-/

namespace CInt

/-- `(uint16_t) x` -/
def toU16 (x : ℤ) : ℕ := (x % 65536).toNat

/-- `(uint32_t) x` -/
def toU32 (x : ℤ) : ℕ := (x % 4294967296).toNat

/-- `(uint64_t) x` -/
def toU64 (x : ℤ) : ℕ := (x % 18446744073709551616).toNat

/-- `(int32_t) x` -/
def toI32 (x : ℤ) : ℤ := if x % 4294967296 < 2147483648 then x % 4294967296
  else x % 4294967296 - 4294967296

/-- `(int64_t) x` -/
def toI64 (x : ℤ) : ℤ := if x % 18446744073709551616 < 9223372036854775808 then
  x % 18446744073709551616 else x % 18446744073709551616 - 18446744073709551616

lemma toU32_natCast (n : ℕ) : toU32 n = n % 4294967296 := Int.toNat_natCast _

lemma toU16_of_lt {x : ℕ} (h : x < 65536) : toU16 x = x := by
  unfold toU16; omega

lemma toU32_of_lt {x : ℕ} (h : x < 4294967296) : toU32 x = x := by
  unfold toU32; omega

lemma toU64_of_lt {x : ℕ} (h : x < 18446744073709551616) : toU64 x = x := by
  unfold toU64; omega

lemma toI32_of_lt {x : ℕ} (h : x < 2147483648) : toI32 x = x := by
  unfold toI32; split <;> omega

lemma toI64_of_lt {x : ℕ} (h : x < 9223372036854775808) : toI64 x = x := by
  unfold toI64; split <;> omega

lemma toU32_lt (x : ℤ) : toU32 x < 4294967296 := by
  unfold toU32; omega

lemma toU64_lt (x : ℤ) : toU64 x < 18446744073709551616 := by
  unfold toU64; omega

/-- Converting to `int` and back to `uint32_t` loses nothing. -/
lemma toU32_toI32_add (a : ℤ) (x : ℤ) : toU32 (a + toI32 x) = toU32 (a + x) := by
  unfold toU32 toI32; split <;> omega

/-- A difference below zero wraps. -/
lemma toU32_sub_of_lt {a b : ℕ} (h : a < b) (hb : b ≤ 4294967296) :
    toU32 ((a : ℤ) - b) = 4294967296 - (b - a) := by
  unfold toU32; omega

lemma toU32_sub_of_le {a b : ℕ} (h : b ≤ a) (ha : a < 4294967296) :
    toU32 ((a : ℤ) - b) = a - b := by
  unfold toU32; omega

/-- `-1` as an address is the last one. -/
lemma toU64_neg_one : toU64 (-1) = 18446744073709551615 := by decide

end CInt
