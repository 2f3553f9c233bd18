import Mathlib.Data.Nat.Digits.Lemmas

/-!
# Little-endian numbers

The number a list of bytes spells, least significant byte first, and the bytes that spell a number in a given width.
-/

namespace ProjectYJ

/-- The number a list of bytes spells, least significant byte first. -/
def leValue (bs : List UInt8) : Nat := Nat.ofDigits 256 (bs.map UInt8.toNat)

/-- The `k` bytes that spell `n` modulo `256 ^ k`, least significant first. -/
def leBytes : (k n : Nat) → List UInt8
  | 0, _ => []
  | k + 1, n => UInt8.ofNat n :: leBytes k (n / 256)

@[simp] theorem leBytes_length (k n : Nat) : (leBytes k n).length = k := by
  induction k generalizing n with
  | zero => rfl
  | succ k ih => simp [leBytes, ih]

/-- Bytes written for a number that fits spell that number. -/
theorem leValue_leBytes (k n : Nat) (h : n < 256 ^ k) : leValue (leBytes k n) = n := by
  induction k generalizing n with
  | zero =>
    obtain rfl : n = 0 := by simpa using h
    rfl
  | succ k ih =>
    have hdiv : n / 256 < 256 ^ k := Nat.div_lt_of_lt_mul (by rw [Nat.mul_comm]; simpa [Nat.pow_succ] using h)
    have hrest := ih (n / 256) hdiv
    simp only [leValue] at hrest ⊢
    simp only [leBytes, List.map_cons, Nat.ofDigits_cons, hrest, UInt8.toNat_ofNat']
    omega

end ProjectYJ
