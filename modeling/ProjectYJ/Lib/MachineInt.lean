import Mathlib.Data.Int.Basic

/-!
# Fixed-width integers

The conversions of C++ between integer types: a value is reduced modulo `2 ^ w`, into `[0, 2 ^ w)` for an unsigned type and
into `[-2 ^ (w - 1), 2 ^ (w - 1))` for a signed one.
-/

namespace ProjectYJ

/-- Conversion to `uint16`. -/
def toUInt16 (x : Int) : Nat := (x % 65536).toNat

/-- Conversion to `uint32`. -/
def toUInt32 (x : Int) : Nat := (x % 4294967296).toNat

/-- Conversion to `int32`. -/
def toInt32 (x : Int) : Int := (x + 2147483648) % 4294967296 - 2147483648

/-- Conversion to `uint64`. -/
def toUInt64 (x : Int) : Nat := (x % 18446744073709551616).toNat

/-- Conversion to the 64-bit `size_t`. -/
def toSizeT (x : Int) : Nat := (x % 18446744073709551616).toNat

theorem toUInt16_of_lt {n : Nat} (h : n < 65536) : toUInt16 n = n := by
  unfold toUInt16
  omega

theorem toUInt16_lt (x : Int) : toUInt16 x < 65536 := by
  unfold toUInt16
  omega

theorem toInt32_of_lt {n : Nat} (h : n < 2147483648) : toInt32 n = n := by
  unfold toInt32
  omega

end ProjectYJ
