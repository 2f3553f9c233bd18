import Mathlib.Data.List.Perm.Basic
import Mathlib.Logic.Function.Basic

/-!
# Cells with one owner each

Storage that is allocated and freed cell by cell, an address being the number of an allocation. `Cells.Owned` says that a list of
addresses names every live cell once. It is kept when the address of a new cell is added, when a cell is freed and its address
taken out, and when addresses change places; what it is for is `Owned.get`: a cell that is named can be read, and freed.
-/

namespace ProjectYJ

universe u

/-- The live cells, and how many were allocated so far. -/
structure Cells (α : Type u) where
  cell : Nat → Option α
  made : Nat

namespace Cells

variable {α : Type u}

/-- Nothing allocated. -/
def empty : Cells α := ⟨fun _ => none, 0⟩

/-- A new cell, at the address `made`. -/
def alloc (H : Cells α) (a : α) : Cells α := ⟨Function.update H.cell H.made (some a), H.made + 1⟩

/-- A cell is freed. -/
def free (H : Cells α) (p : Nat) : Cells α := ⟨Function.update H.cell p none, H.made⟩

@[simp] theorem alloc_made (H : Cells α) (a : α) : (H.alloc a).made = H.made + 1 := rfl

@[simp] theorem free_made (H : Cells α) (p : Nat) : (H.free p).made = H.made := rfl

@[simp] theorem alloc_self (H : Cells α) (a : α) : (H.alloc a).cell H.made = some a := Function.update_self ..

theorem alloc_of_ne {H : Cells α} {p : Nat} (h : p ≠ H.made) (a : α) : (H.alloc a).cell p = H.cell p :=
  Function.update_of_ne h ..

@[simp] theorem free_self (H : Cells α) (p : Nat) : (H.free p).cell p = none := Function.update_self ..

theorem free_of_ne {H : Cells α} {p q : Nat} (h : q ≠ p) : (H.free p).cell q = H.cell q := Function.update_of_ne h ..

/-- Each live cell is named once, and was allocated. -/
structure Owned (H : Cells α) (refs : List Nat) : Prop where
  nodup : refs.Nodup
  live : ∀ p, (H.cell p).isSome ↔ p ∈ refs
  below : ∀ p ∈ refs, p < H.made

variable {H : Cells α} {refs : List Nat}

theorem owned_empty : (empty : Cells α).Owned [] :=
  ⟨List.nodup_nil, fun _ => by simp [empty], fun _ h => absurd h List.not_mem_nil⟩

/-- A cell that is named is there. -/
theorem Owned.get (h : H.Owned refs) {p : Nat} (hp : p ∈ refs) : ∃ a, H.cell p = some a :=
  Option.isSome_iff_exists.1 ((h.live p).2 hp)

/-- The address of the next cell names nothing yet. -/
theorem Owned.ne_made (h : H.Owned refs) {p : Nat} (hp : p ∈ refs) : p ≠ H.made := Nat.ne_of_lt (h.below p hp)

/-- The order in which the addresses are listed does not matter. -/
theorem Owned.perm (h : H.Owned refs) {refs' : List Nat} (hp : refs.Perm refs') : H.Owned refs' where
  nodup := hp.nodup_iff.1 h.nodup
  live p := (h.live p).trans hp.mem_iff
  below p hmem := h.below p (hp.mem_iff.2 hmem)

/-- A new cell is named by its address. -/
theorem Owned.alloc (h : H.Owned refs) (a : α) : (H.alloc a).Owned (H.made :: refs) where
  nodup := List.nodup_cons.2 ⟨fun hmem => h.ne_made hmem rfl, h.nodup⟩
  live := by
    intro p
    by_cases hp : p = H.made
    · subst hp
      simp
    · rw [alloc_of_ne hp, h.live, List.mem_cons, or_iff_right hp]
  below := by
    intro p hmem
    rcases List.mem_cons.1 hmem with rfl | hmem
    · exact Nat.lt_succ_self _
    · exact Nat.lt_succ_of_lt (h.below p hmem)

/-- A cell that is freed is named no more. -/
theorem Owned.free {p : Nat} (h : H.Owned (p :: refs)) : (H.free p).Owned refs where
  nodup := (List.nodup_cons.1 h.nodup).2
  live := by
    intro q
    by_cases hq : q = p
    · subst hq
      simp [(List.nodup_cons.1 h.nodup).1]
    · rw [free_of_ne hq, h.live, List.mem_cons, or_iff_right hq]
  below q hmem := h.below q (List.mem_cons_of_mem p hmem)

/-- What is named besides a cell is not touched when that cell is freed. -/
theorem Owned.free_other {p q : Nat} (h : H.Owned (p :: refs)) (hq : q ∈ refs) : (H.free p).cell q = H.cell q := by
  refine free_of_ne ?_
  rintro rfl
  exact (List.nodup_cons.1 h.nodup).1 hq

/-- What is named is not touched when a cell is allocated. -/
theorem Owned.alloc_other (h : H.Owned refs) {q : Nat} (hq : q ∈ refs) (a : α) : (H.alloc a).cell q = H.cell q :=
  alloc_of_ne (h.ne_made hq) a

end Cells

end ProjectYJ
