import Mathlib.Data.List.Basic

/-!
# Addressable storage

A storage is a value for every address. `Memory.read` is the list of values in a range and `Memory.write` copies a list into a
range; the lemmas say what a read returns after a write to the same range, to a range next to it, and to a disjoint one.
-/

namespace ProjectYJ

universe u

/-- A storage: the value at each address. -/
abbrev Memory (α : Type u) : Type u := Nat → α

namespace Memory

variable {α : Type u}

/-- The values in the range of `n` addresses from `off`. -/
def read (m : Memory α) : (off n : Nat) → List α
  | _, 0 => []
  | off, n + 1 => m off :: read m (off + 1) n

/-- The storage with `xs` copied to the range that starts at `off`. -/
def write (m : Memory α) (off : Nat) (xs : List α) : Memory α :=
  fun i => if off ≤ i then (xs[i - off]?).getD (m i) else m i

/-- Two ranges, each an offset and a length, share no address. -/
def Disjoint (off n off' n' : Nat) : Prop := off + n ≤ off' ∨ off' + n' ≤ off

instance (off n off' n' : Nat) : Decidable (Disjoint off n off' n') :=
  inferInstanceAs (Decidable (_ ∨ _))

@[simp] theorem read_zero (m : Memory α) (off : Nat) : m.read off 0 = [] := rfl

@[simp] theorem read_length (m : Memory α) (off n : Nat) : (m.read off n).length = n := by
  induction n generalizing off with
  | zero => rfl
  | succ n ih => simp [read, ih]

/-- A read depends only on the values of its range. -/
theorem read_congr {m m' : Memory α} {off n : Nat} (h : ∀ i, off ≤ i → i < off + n → m i = m' i) :
    m.read off n = m'.read off n := by
  induction n generalizing off with
  | zero => rfl
  | succ n ih =>
    simp only [read]
    rw [h off (Nat.le_refl _) (by omega), ih (fun i hi hi' => h i (by omega) (by omega))]

/-- A read of a range is the read of its first part and of the rest. -/
theorem read_add (m : Memory α) (off a b : Nat) : m.read off (a + b) = m.read off a ++ m.read (off + a) b := by
  induction a generalizing off with
  | zero => simp
  | succ a ih =>
    have e : a + 1 + b = (a + b) + 1 := by omega
    simp only [e, read, ih, List.cons_append]
    rw [Nat.add_assoc, Nat.add_comm 1 a]

theorem read_take (m : Memory α) (off : Nat) {k n : Nat} (h : k ≤ n) : (m.read off n).take k = m.read off k := by
  obtain ⟨r, rfl⟩ := Nat.exists_eq_add_of_le h
  rw [read_add, List.take_left' (read_length m off k)]

theorem read_drop (m : Memory α) (off : Nat) {k n : Nat} (h : k ≤ n) :
    (m.read off n).drop k = m.read (off + k) (n - k) := by
  obtain ⟨r, rfl⟩ := Nat.exists_eq_add_of_le h
  rw [read_add, List.drop_left' (read_length m off k), Nat.add_sub_cancel_left]

theorem write_outside (m : Memory α) {off i : Nat} {xs : List α} (h : i < off ∨ off + xs.length ≤ i) :
    m.write off xs i = m i := by
  unfold write
  split
  · rw [List.getElem?_eq_none (by omega)]
    rfl
  · rfl

theorem write_inside (m : Memory α) (off i : Nat) {xs : List α} (h : i < xs.length) :
    m.write off xs (off + i) = xs[i] := by
  simp [write, h]

/-- A range reads as before when the write is to a range disjoint from it. -/
theorem read_write_disjoint (m : Memory α) {off n p : Nat} {xs : List α} (h : Disjoint p xs.length off n) :
    (m.write p xs).read off n = m.read off n := by
  refine read_congr (fun i hi hi' => write_outside m ?_)
  rcases h with h | h <;> omega

/-- A range just written reads as what was written. -/
theorem read_write_same (m : Memory α) (off : Nat) (xs : List α) : (m.write off xs).read off xs.length = xs := by
  induction xs generalizing m off with
  | nil => rfl
  | cons x xs ih =>
    have htail : (m.write off (x :: xs)).read (off + 1) xs.length = (m.write (off + 1) xs).read (off + 1) xs.length := by
      refine read_congr (fun i hi hi' => ?_)
      obtain ⟨k, rfl⟩ := Nat.exists_eq_add_of_le hi
      rw [write_inside m (off + 1) k (by omega), Nat.add_assoc, Nat.add_comm 1 k,
        write_inside m off (k + 1) (by simp only [List.length_cons]; omega), List.getElem_cons_succ]
    have hhead : m.write off (x :: xs) off = x :=
      write_inside m off 0 (List.length_pos_of_mem (List.mem_cons_self))
    simp only [List.length_cons, read, hhead, htail, ih]

/-- A range that ends where a write starts, read together with what was written. -/
theorem read_write_append (m : Memory α) {off n p : Nat} {xs : List α} (h : off + n = p) :
    (m.write p xs).read off (n + xs.length) = m.read off n ++ xs := by
  subst h
  rw [read_add, read_write_same, read_write_disjoint m (Or.inr (Nat.le_refl _))]

end Memory

end ProjectYJ
