import Mathlib.Data.List.DropRight

/-!
# Strings of the C library

A byte is a `Char` here, and a string the list of its bytes before the NUL. The library functions are those of the C locale.
`dropWhile_append_trimmed` and `rdropWhile_trimmed_append` say what is left when whitespace is taken off both ends, and
`strtol_decimal` that a number written in decimal is read back.
-/

namespace ProjectYJ

namespace CString

/-- `isspace`: the blank, and the characters from the tab to the carriage return. -/
def isspace (c : Char) : Bool := c = ' ' || ('\t' ≤ c && c ≤ '\r')

/-- The string at the start of some bytes. -/
def ofBytes (s : List Char) : List Char := s.takeWhile fun c => c ≠ Char.ofNat 0

/-! ## Numbers -/

/-- The value of a digit in a base up to 36. -/
def digitOf (base : Nat) (c : Char) : Option Nat :=
  let d :=
    if '0' ≤ c && c ≤ '9' then c.toNat - '0'.toNat
    else if 'a' ≤ c && c ≤ 'z' then c.toNat - 'a'.toNat + 10
    else if 'A' ≤ c && c ≤ 'Z' then c.toNat - 'A'.toNat + 10
    else base
  if d < base then some d else none

/-- The digits that a string begins with. -/
def digits (base : Nat) : List Char → List Nat
  | [] => []
  | c :: s =>
    match digitOf base c with
    | some d => d :: digits base s
    | none => []

/-- The number with these digits. -/
def ofDigits (base : Nat) (ds : List Nat) : Nat := ds.foldl (fun n d => base * n + d) 0

/-- The base that is meant when `strtol` is called with base 0, and where the digits begin. -/
def baseOf (s : List Char) : Nat × List Char :=
  match s with
  | '0' :: x :: c :: rest => if (x = 'x' || x = 'X') && (digitOf 16 c).isSome then (16, c :: rest) else (8, s)
  | '0' :: _ => (8, s)
  | _ => (10, s)

/-- The sign of a number, and what comes after it. -/
def signOf : List Char → Bool × List Char
  | '-' :: s => (true, s)
  | '+' :: s => (false, s)
  | s => (false, s)

/-- The limits of a `long` of 32 bits. -/
def clampLong (n : Int) : Int := max (-2147483648) (min n 2147483647)

/-- `strtol` with base 0; `none` when there is no number at the start of the string, so that `end` is where it began. -/
def strtol (s : List Char) : Option Int :=
  let (negative, s) := signOf (s.dropWhile isspace)
  let (base, s) := baseOf s
  match digits base s with
  | [] => none
  | ds => some (clampLong (if negative then -(ofDigits base ds : Int) else ofDigits base ds))

/-- A number in decimal. -/
def decimal : Int → List Char
  | .ofNat n => Nat.toDigits 10 n
  | .negSucc n => '-' :: Nat.toDigits 10 (n + 1)

/-! ## Whitespace at the ends -/

section

variable {α : Type*} {p : α → Bool} {s ws : List α}

/-- Neither the first nor the last element is one of those to be taken off. -/
structure Trimmed (p : α → Bool) (s : List α) : Prop where
  head : ∀ a ∈ s.head?, p a = false
  last : ∀ a ∈ s.getLast?, p a = false

theorem dropWhile_append_trimmed (hws : ∀ a ∈ ws, p a = true) (hs : ∀ a ∈ s.head?, p a = false) : (ws ++ s).dropWhile p = s := by
  rw [List.dropWhile_append_of_pos hws]
  cases s with
  | nil => rfl
  | cons a s => exact List.dropWhile_cons_of_neg (by simp [hs a rfl])

theorem rdropWhile_trimmed_append (hws : ∀ a ∈ ws, p a = true) (hs : ∀ a ∈ s.getLast?, p a = false) : (s ++ ws).rdropWhile p = s := by
  rw [List.rdropWhile, List.reverse_append]
  rw [dropWhile_append_trimmed (fun a ha => hws a (List.mem_reverse.1 ha)) (fun a ha => hs a (by simpa using ha)), List.reverse_reverse]

/-- What is left when both ends are taken off is trimmed. -/
theorem trimmed_trim (p : α → Bool) (s : List α) : Trimmed p ((s.dropWhile p).rdropWhile p) where
  head a ha := by
    obtain ⟨r, hr⟩ := List.rdropWhile_prefix p (s.dropWhile p)
    have hhead : a ∈ (s.dropWhile p).head? := by
      rw [← hr, List.head?_append, Option.mem_def.1 ha]
      rfl
    exact Bool.eq_false_iff.2 fun hp => by
      have := List.head?_dropWhile_not p s
      rw [Option.mem_def.1 hhead] at this
      simp [hp] at this
  last a ha := by
    have hne : (s.dropWhile p).rdropWhile p ≠ [] := by
      rintro h
      rw [h] at ha
      simp at ha
    rw [List.getLast?_eq_some_getLast hne] at ha
    obtain rfl := Option.some.inj (Option.mem_def.1 ha)
    exact Bool.eq_false_iff.2 (List.rdropWhile_last_not p _ hne)

/-- A list is what is left of it between what is taken off its ends. -/
theorem exists_append_trim (p : α → Bool) (s : List α) :
    ∃ ws', s = s.takeWhile p ++ (s.dropWhile p).rdropWhile p ++ ws' ∧ ∀ a ∈ ws', p a = true := by
  refine ⟨(s.dropWhile p).rtakeWhile p, ?_, fun a ha => List.mem_rtakeWhile_imp ha⟩
  rw [List.append_assoc, List.rdropWhile_append_rtakeWhile, List.takeWhile_append_dropWhile]

end

/-! ## Reading back what is written -/

theorem digitOf_ten {c : Char} (h : c.isDigit = true) : digitOf 10 c = some (c.toNat - '0'.toNat) := by
  have hval : 48 ≤ c.val ∧ c.val ≤ 57 := by simpa [Char.isDigit] using h
  have hc : '0' ≤ c ∧ c ≤ '9' := hval
  have hlt : c.toNat - '0'.toNat < 10 := by
    have h9 : c.toNat ≤ '9'.toNat := hc.2
    have hten : '9'.toNat = '0'.toNat + 9 := rfl
    omega
  simpa [digitOf, hc.1, hc.2] using hlt

theorem digits_ten {s : List Char} (h : ∀ c ∈ s, c.isDigit = true) : digits 10 s = s.map fun c => c.toNat - '0'.toNat := by
  induction s with
  | nil => rfl
  | cons c s ih =>
    rw [digits, digitOf_ten (h c List.mem_cons_self), ih fun d hd => h d (List.mem_cons_of_mem c hd)]
    rfl

/-- The digits in decimal are those of the number. -/
theorem ofDigits_toDigits (n : Nat) : ofDigits 10 (digits 10 (Nat.toDigits 10 n)) = n := by
  rw [digits_ten fun c hc => Nat.isDigit_of_mem_toDigits (by omega) (by omega) hc, ofDigits, List.foldl_map]
  exact Nat.ofDigitChars_toDigits (by omega) (by omega)

/-- Only zero begins with a zero. -/
theorem head_toDigits {n : Nat} (hn : 0 < n) : ∃ c s, Nat.toDigits 10 n = c :: s ∧ c.isDigit = true ∧ c ≠ '0' := by
  induction n using Nat.strongRecOn with
  | ind n ih =>
    by_cases hlt : n < 10
    · refine ⟨n.digitChar, [], Nat.toDigits_of_lt_base hlt, ?_, ?_⟩
      · exact Nat.isDigit_of_mem_toDigits (n := n) (b := 10) (by omega) (by omega) (by rw [Nat.toDigits_of_lt_base hlt]; simp)
      · have hsmall : ∀ m < 10, 0 < m → m.digitChar ≠ '0' := by decide
        exact hsmall n hlt hn
    · obtain ⟨c, s, hs, hc⟩ := ih (n / 10) (by omega) (by omega)
      rw [Nat.toDigits_of_base_le (by omega) (by omega), hs]
      exact ⟨c, s ++ [(n % 10).digitChar], rfl, hc⟩

theorem baseOf_of_ne {c : Char} (h : c ≠ '0') (s : List Char) : baseOf (c :: s) = (10, c :: s) := by
  unfold baseOf
  split
  · rename_i heq
    exact absurd (List.cons.inj heq).1 h
  · rename_i heq
    exact absurd (List.cons.inj heq).1 h
  · rfl

/-- `strtol` takes a number in decimal for one of base 10, and 0 for one of base 8. -/
theorem baseOf_toDigits (n : Nat) : ∃ base, baseOf (Nat.toDigits 10 n) = (base, Nat.toDigits 10 n) ∧
    digits base (Nat.toDigits 10 n) ≠ [] ∧ ofDigits base (digits base (Nat.toDigits 10 n)) = n := by
  rcases Nat.eq_zero_or_pos n with rfl | hn
  · exact ⟨8, by decide, by decide, by decide⟩
  · obtain ⟨c, s, hs, hdigit, hc⟩ := head_toDigits hn
    refine ⟨10, ?_, ?_, ofDigits_toDigits n⟩
    · rw [hs, baseOf_of_ne hc]
    · rw [hs, digits, digitOf_ten hdigit]
      exact List.cons_ne_nil _ _

/-- Before a digit there is neither whitespace nor a sign. -/
theorem signOf_digit {c : Char} (h : c.isDigit = true) (s : List Char) : signOf ((c :: s).dropWhile isspace) = (false, c :: s) := by
  have hval : 48 ≤ c.val ∧ c.val ≤ 57 := by simpa [Char.isDigit] using h
  have hne : ∀ d : Char, d.val < 48 → c ≠ d := fun d hd hc => absurd (hc ▸ hval.1) (UInt32.not_le.2 hd)
  have hspace : isspace c = false := by
    have hgt : ¬c ≤ '\r' := fun hle => absurd (UInt32.le_trans hval.1 hle) (by decide)
    simp [isspace, hne ' ' (by decide), hgt]
  rw [List.dropWhile_cons_of_neg (by simp [hspace])]
  unfold signOf
  split
  · rename_i heq
    exact absurd (List.cons.inj heq).1 (hne '-' (by decide))
  · rename_i heq
    exact absurd (List.cons.inj heq).1 (hne '+' (by decide))
  · rfl

theorem clampLong_of_le {n : Int} (hlow : -2147483648 ≤ n) (hhigh : n ≤ 2147483647) : clampLong n = n := by
  unfold clampLong
  omega

/-- What `strtol` makes of decimal digits after a sign. -/
theorem strtol_of_sign {s : List Char} {negative : Bool} {n : Nat}
    (hs : signOf (s.dropWhile isspace) = (negative, Nat.toDigits 10 n)) :
    strtol s = some (clampLong (if negative then -(n : Int) else n)) := by
  obtain ⟨base, hbase, hne, hvalue⟩ := baseOf_toDigits n
  cases hds : digits base (Nat.toDigits 10 n) with
  | nil => exact absurd hds hne
  | cons d ds =>
    rw [hds] at hvalue
    simp only [strtol, hs, hbase, hds, hvalue]

/-- `strtol` reads a number in decimal, as long as it is a `long`. -/
theorem strtol_decimal {n : Int} (hlow : -2147483648 ≤ n) (hhigh : n ≤ 2147483647) : strtol (decimal n) = some n := by
  cases n with
  | ofNat n =>
    have hs : signOf ((decimal (.ofNat n)).dropWhile isspace) = (false, Nat.toDigits 10 n) := by
      rw [decimal]
      cases hn : Nat.toDigits 10 n with
      | nil => exact absurd hn Nat.toDigits_ne_nil
      | cons c s => exact signOf_digit (Nat.isDigit_of_mem_toDigits (b := 10) (n := n) (by omega) (by omega) (by simp [hn])) s
    rw [strtol_of_sign hs]
    exact congrArg some (clampLong_of_le hlow hhigh)
  | negSucc n =>
    have hs : signOf ((decimal (.negSucc n)).dropWhile isspace) = (true, Nat.toDigits 10 (n + 1)) := rfl
    rw [strtol_of_sign hs]
    exact congrArg some (clampLong_of_le hlow hhigh)

end CString

end ProjectYJ
