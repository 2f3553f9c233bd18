import Mathlib.Data.List.Basic
import Mathlib.Data.List.TakeWhile

/-!
# Characters as bytes and as 16-bit units

A text as the bytes of its UTF-8 form and as the units of its UTF-16 form. Units are read back pair by pair; a surrogate without
a partner is read as U+FFFD. In neither form is there a 0 except for the character 0, so that a 0 may end a text.
-/

namespace ProjectYJ

/-- The UTF-8 form of a text. -/
def utf8Bytes (cs : List Char) : List UInt8 := cs.flatMap String.utf8EncodeChar

/-- The UTF-16 form of a character. -/
def utf16Units (c : Char) : List UInt16 :=
  if c.toNat < 0x10000 then [UInt16.ofNat c.toNat]
  else [UInt16.ofNat (0xD800 + (c.toNat - 0x10000) / 0x400), UInt16.ofNat (0xDC00 + (c.toNat - 0x10000) % 0x400)]

/-- The unit is a surrogate, the first one of a pair or the second. -/
def Surrogate (u : UInt16) : Prop := 0xD800 ≤ u.toNat ∧ u.toNat < 0xE000

instance (u : UInt16) : Decidable (Surrogate u) := inferInstanceAs (Decidable (_ ∧ _))

/-- The first of the two units is the first one of a pair, and the second the second. -/
def SurrogatePair (u v : UInt16) : Prop := (0xD800 ≤ u.toNat ∧ u.toNat < 0xDC00) ∧ 0xDC00 ≤ v.toNat ∧ v.toNat < 0xE000

instance (u v : UInt16) : Decidable (SurrogatePair u v) := inferInstanceAs (Decidable (_ ∧ _))

/-- The character of a unit by itself. -/
def charOfUnit (u : UInt16) : Char := if Surrogate u then '\uFFFD' else Char.ofNat u.toNat

/-- The character of a pair. -/
def charOfPair (u v : UInt16) : Char := Char.ofNat (0x10000 + (u.toNat - 0xD800) * 0x400 + (v.toNat - 0xDC00))

/-- The text of some units. -/
def utf16Chars : List UInt16 → List Char
  | [] => []
  | [u] => [charOfUnit u]
  | u :: v :: us => if SurrogatePair u v then charOfPair u v :: utf16Chars us else charOfUnit u :: utf16Chars (v :: us)

theorem utf16Chars_pair {u v : UInt16} (h : SurrogatePair u v) (us : List UInt16) :
    utf16Chars (u :: v :: us) = charOfPair u v :: utf16Chars us := by
  rw [utf16Chars, if_pos h]

theorem utf16Chars_unit {u : UInt16} (h : ¬Surrogate u) (us : List UInt16) : utf16Chars (u :: us) = charOfUnit u :: utf16Chars us := by
  cases us with
  | nil => rfl
  | cons v us =>
    have hpair : ¬SurrogatePair u v := fun hpair => h ⟨hpair.1.1, Nat.lt_trans hpair.1.2 (by decide)⟩
    rw [utf16Chars, if_neg hpair]

theorem char_toNat_ofNat {n : Nat} (h : n.isValidChar) : (Char.ofNat n).toNat = n := by
  rw [Char.ofNat, dif_pos h]
  rfl

/-- A character is below the surrogates or above them, and not above `0x10FFFF`. -/
theorem char_toNat_valid (c : Char) : c.toNat < 0xD800 ∨ (0xDFFF < c.toNat ∧ c.toNat < 0x110000) := c.valid

theorem charOfUnit_toNat {u : UInt16} (h : ¬Surrogate u) : (charOfUnit u).toNat = u.toNat := by
  have hlt := u.toNat_lt
  rw [charOfUnit, if_neg h, char_toNat_ofNat]
  unfold Surrogate at h
  unfold Nat.isValidChar
  omega

theorem charOfPair_toNat {u v : UInt16} (h : SurrogatePair u v) :
    (charOfPair u v).toNat = 0x10000 + (u.toNat - 0xD800) * 0x400 + (v.toNat - 0xDC00) := by
  obtain ⟨hu, hv⟩ := h
  rw [charOfPair, char_toNat_ofNat]
  unfold Nat.isValidChar
  omega

/-! ## There and back -/

/-- The units of a character are read as that character, whatever follows. -/
theorem utf16Chars_utf16Units (c : Char) (us : List UInt16) : utf16Chars (utf16Units c ++ us) = c :: utf16Chars us := by
  have hvalid := char_toNat_valid c
  unfold utf16Units
  split
  · rename_i hsmall
    have hunit : (UInt16.ofNat c.toNat).toNat = c.toNat := UInt16.toNat_ofNat_of_lt' hsmall
    have hplain : ¬Surrogate (UInt16.ofNat c.toNat) := by
      unfold Surrogate
      omega
    rw [List.singleton_append, utf16Chars_unit hplain, charOfUnit, if_neg hplain, hunit, Char.ofNat_toNat]
  · rename_i hlarge
    have hhigh : (UInt16.ofNat (0xD800 + (c.toNat - 0x10000) / 0x400)).toNat = 0xD800 + (c.toNat - 0x10000) / 0x400 :=
      UInt16.toNat_ofNat_of_lt' (by show _ < 65536; omega)
    have hlow : (UInt16.ofNat (0xDC00 + (c.toNat - 0x10000) % 0x400)).toNat = 0xDC00 + (c.toNat - 0x10000) % 0x400 :=
      UInt16.toNat_ofNat_of_lt' (by show _ < 65536; omega)
    have hpair : SurrogatePair (UInt16.ofNat (0xD800 + (c.toNat - 0x10000) / 0x400))
        (UInt16.ofNat (0xDC00 + (c.toNat - 0x10000) % 0x400)) := by
      unfold SurrogatePair
      omega
    have hback : 0x10000 + (0xD800 + (c.toNat - 0x10000) / 0x400 - 0xD800) * 0x400 + (0xDC00 + (c.toNat - 0x10000) % 0x400 - 0xDC00) =
        c.toNat := by
      omega
    rw [List.cons_append, List.singleton_append, utf16Chars_pair hpair, charOfPair, hhigh, hlow, hback, Char.ofNat_toNat]

/-- Reading the units of a text gives the text. -/
theorem utf16Chars_flatMap (cs : List Char) : utf16Chars (cs.flatMap utf16Units) = cs := by
  induction cs with
  | nil => rfl
  | cons c cs ih => rw [List.flatMap_cons, utf16Chars_utf16Units, ih]

/-! ## The character 0 -/

/-- No byte of a character other than the character 0 is 0. -/
theorem zero_notMem_utf8EncodeChar {c : Char} (h : c ≠ '\x00') : 0 ∉ String.utf8EncodeChar c := by
  have hpos : c.toNat ≠ 0 := fun h0 => h (by rw [← Char.ofNat_toNat c, h0])
  have hvalid := char_toNat_valid c
  have hval : c.val.toNat = c.toNat := rfl
  unfold String.utf8EncodeChar
  simp only [hval]
  split_ifs <;> simp only [List.mem_cons, List.not_mem_nil, or_false, ← UInt8.toNat_inj, UInt8.toNat_ofNat', UInt8.toNat_zero] <;> omega

theorem zero_mem_utf8Bytes {cs : List Char} : 0 ∈ utf8Bytes cs ↔ '\x00' ∈ cs := by
  constructor
  · intro h
    obtain ⟨c, hc, h0⟩ := List.mem_flatMap.1 h
    by_contra hcs
    exact zero_notMem_utf8EncodeChar (fun heq => hcs (heq ▸ hc)) h0
  · exact fun h => List.mem_flatMap.2 ⟨_, h, List.mem_singleton.2 rfl⟩

/-- Only the character 0 has a unit that is 0. -/
theorem zero_mem_utf16Units {c : Char} (h : 0 ∈ utf16Units c) : c = '\x00' := by
  have hvalid := char_toNat_valid c
  have hzero : c.toNat = 0 := by
    unfold utf16Units at h
    split_ifs at h <;>
      simp only [List.mem_cons, List.not_mem_nil, or_false, ← UInt16.toNat_inj, UInt16.toNat_ofNat', UInt16.toNat_zero] at h <;>
      omega
  rw [← Char.ofNat_toNat c, hzero]

/-- Units other than 0 are read as characters other than 0. -/
theorem zero_notMem_utf16Chars {us : List UInt16} (h : 0 ∉ us) : '\x00' ∉ utf16Chars us := by
  have hunit : ∀ {u : UInt16}, 0 ≠ u → '\x00' ≠ charOfUnit u := by
    intro u hu heq
    by_cases hs : Surrogate u
    · rw [charOfUnit, if_pos hs] at heq
      exact absurd heq (by decide)
    · have := (charOfUnit_toNat hs).symm.trans (congrArg Char.toNat heq.symm)
      exact hu (UInt16.toNat_inj.1 this.symm)
  induction us using utf16Chars.induct with
  | case1 => exact List.not_mem_nil
  | case2 u =>
    rw [List.mem_singleton] at h
    exact fun hmem => hunit h (List.mem_singleton.1 hmem)
  | case3 u v us hpair ih =>
    simp only [List.mem_cons, not_or] at h
    rw [utf16Chars, if_pos hpair, List.mem_cons, not_or]
    refine ⟨fun heq => ?_, ih h.2.2⟩
    have := (charOfPair_toNat hpair).symm.trans (congrArg Char.toNat heq.symm)
    rw [show Char.toNat '\x00' = 0 from rfl] at this
    omega
  | case4 u v us hpair ih =>
    rw [List.mem_cons, not_or] at h
    rw [utf16Chars, if_neg hpair, List.mem_cons, not_or]
    exact ⟨hunit h.1, ih h.2⟩

/-! ## Up to a terminator -/

theorem notMem_takeWhile {α : Type} [DecidableEq α] (z : α) (l : List α) : z ∉ l.takeWhile (· ≠ z) := by
  intro h
  simpa using List.mem_takeWhile_imp h

theorem takeWhile_of_notMem {α : Type} [DecidableEq α] {z : α} {l : List α} (h : z ∉ l) : l.takeWhile (· ≠ z) = l := by
  rw [List.takeWhile_eq_self_iff]
  intro x hx
  exact decide_eq_true fun hz => h (hz ▸ hx)

/-! ## Lengths -/

/-- A text that was read has as many units as were read. -/
theorem length_utf16Chars (us : List UInt16) : ((utf16Chars us).flatMap utf16Units).length = us.length := by
  have hunit : ∀ u, (utf16Units (charOfUnit u)).length = 1 := by
    intro u
    have hlt := u.toNat_lt
    by_cases hs : Surrogate u
    · rw [charOfUnit, if_pos hs]
      rfl
    · rw [utf16Units, charOfUnit_toNat hs, if_pos hlt]
      rfl
  induction us using utf16Chars.induct with
  | case1 => rfl
  | case2 u => simp [utf16Chars, hunit]
  | case3 u v us hpair ih =>
    have hlarge : ¬(charOfPair u v).toNat < 0x10000 := by
      rw [charOfPair_toNat hpair]
      omega
    rw [utf16Chars, if_pos hpair, List.flatMap_cons, List.length_append, ih, utf16Units, if_neg hlarge]
    simp only [List.length_cons, List.length_nil]
    omega
  | case4 u v us hpair ih =>
    rw [utf16Chars, if_neg hpair, List.flatMap_cons, List.length_append, ih, hunit]
    simp only [List.length_cons]
    omega

/-- A character has at least as many bytes as it has units, and as many only if it is below `0x80`. -/
theorem length_utf16Units_le (c : Char) : (utf16Units c).length ≤ (String.utf8EncodeChar c).length ∧
    ((utf16Units c).length = (String.utf8EncodeChar c).length → c.toNat < 0x80) := by
  have hval : c.val.toNat = c.toNat := rfl
  unfold utf16Units String.utf8EncodeChar
  simp only [hval]
  split_ifs <;> simp only [List.length_cons, List.length_nil] <;> omega

/-- A text has at least as many bytes as it has units. -/
theorem length_flatMap_utf16Units_le (cs : List Char) : (cs.flatMap utf16Units).length ≤ (utf8Bytes cs).length := by
  induction cs with
  | nil => exact Nat.le_refl 0
  | cons c cs ih =>
    rw [utf8Bytes] at ih ⊢
    rw [List.flatMap_cons, List.flatMap_cons, List.length_append, List.length_append]
    exact Nat.add_le_add (length_utf16Units_le c).1 ih

/-- A text with as many bytes as units is below `0x80` throughout. -/
theorem ascii_of_length {cs : List Char} (h : (cs.flatMap utf16Units).length = (utf8Bytes cs).length) :
    ∀ c ∈ cs, c.toNat < 0x80 := by
  induction cs with
  | nil => exact nofun
  | cons c cs ih =>
    have hc := length_utf16Units_le c
    have hcs := length_flatMap_utf16Units_le cs
    rw [utf8Bytes] at h hcs ih
    rw [List.flatMap_cons, List.flatMap_cons, List.length_append, List.length_append] at h
    exact List.forall_mem_cons.2 ⟨hc.2 (by omega), ih (by omega)⟩

/-- Below `0x80` bytes and units are the same numbers. -/
theorem map_utf8Bytes_ascii {f : UInt8 → UInt16} (hf : ∀ b : UInt8, b.toNat < 0x80 → f b = b.toUInt16) {cs : List Char}
    (h : ∀ c ∈ cs, c.toNat < 0x80) : (utf8Bytes cs).map f = cs.flatMap utf16Units := by
  rw [utf8Bytes, List.map_flatMap]
  refine List.flatMap_congr fun c hc => ?_
  have hlt := h c hc
  have hval : c.val.toNat = c.toNat := rfl
  have hbyte : (UInt8.ofNat c.toNat).toNat = c.toNat := UInt8.toNat_ofNat_of_lt' (Nat.lt_trans hlt (by decide))
  rw [String.utf8EncodeChar, utf16Units, if_pos (by omega), hval, if_pos (by omega), List.map_singleton, hf _ (by omega)]
  congr 1
  rw [← UInt16.toNat_inj, UInt8.toNat_toUInt16, hbyte]
  exact (UInt16.toNat_ofNat_of_lt' (Nat.lt_trans hlt (by decide))).symm

end ProjectYJ
