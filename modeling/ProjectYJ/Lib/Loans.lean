import Mathlib.Data.List.Nodup
import Mathlib.Logic.Function.Basic

/-!
# Things on loan

Things lie on a shelf or are out on loan, each loan under a ticket. `Loans.Kept` says that the things owned are all there, each
once: on the shelf or under one ticket. It is kept by putting a new thing on the shelf, by lending the first thing of the shelf or
a new one under an unused ticket, and by taking a thing back.
-/

namespace ProjectYJ

universe u v

/-- The shelf, and what is out under each ticket. -/
structure Loans (α : Type u) (τ : Type v) where
  shelf : List α
  out : τ → Option α

namespace Loans

variable {α : Type u} {τ : Type v} [DecidableEq τ] {L : Loans α τ} {owned : α → Prop}

/-- A thing is out under some ticket. -/
def Out (L : Loans α τ) (a : α) : Prop := ∃ k, L.out k = some a

/-- A new thing on top of the shelf. -/
def add (L : Loans α τ) (a : α) : Loans α τ := { L with shelf := a :: L.shelf }

/-- A thing goes out under a ticket, with this shelf left. -/
def lend (L : Loans α τ) (k : τ) (a : α) (rest : List α) : Loans α τ :=
  { shelf := rest, out := Function.update L.out k (some a) }

/-- The thing of a ticket comes back. -/
def takeBack (L : Loans α τ) (k : τ) (a : α) : Loans α τ :=
  { shelf := a :: L.shelf, out := Function.update L.out k none }

/-- Each thing owned is there once: on the shelf, or out under one ticket. -/
structure Kept (L : Loans α τ) (owned : α → Prop) : Prop where
  nodup : L.shelf.Nodup
  home : ∀ k a, L.out k = some a → a ∉ L.shelf
  alone : ∀ k j a, L.out k = some a → L.out j = some a → k = j
  owned_iff : ∀ a, owned a ↔ a ∈ L.shelf ∨ L.Out a

omit [DecidableEq τ] in
/-- A thing on the shelf is not out. -/
theorem Kept.not_out (h : L.Kept owned) {a : α} (ha : a ∈ L.shelf) : ¬L.Out a := by
  rintro ⟨k, hk⟩
  exact h.home k a hk ha

theorem lend_self (k : τ) (a : α) (rest : List α) : (L.lend k a rest).out k = some a := Function.update_self ..

theorem lend_of_ne {j k : τ} (h : j ≠ k) (a : α) (rest : List α) : (L.lend k a rest).out j = L.out j :=
  Function.update_of_ne h ..

theorem takeBack_self (k : τ) (a : α) : (L.takeBack k a).out k = none := Function.update_self ..

theorem takeBack_of_ne {j k : τ} (h : j ≠ k) (a : α) : (L.takeBack k a).out j = L.out j := Function.update_of_ne h ..

/-- What is out after a loan: what was, and the thing lent. -/
theorem out_lend {k : τ} (hk : L.out k = none) (a : α) (rest : List α) (b : α) :
    (L.lend k a rest).Out b ↔ b = a ∨ L.Out b := by
  constructor
  · rintro ⟨j, hj⟩
    by_cases hjk : j = k
    · subst hjk
      rw [lend_self] at hj
      exact Or.inl (Option.some.inj hj).symm
    · rw [lend_of_ne hjk] at hj
      exact Or.inr ⟨j, hj⟩
  · rintro (rfl | ⟨j, hj⟩)
    · exact ⟨k, lend_self ..⟩
    · have hjk : j ≠ k := by
        rintro rfl
        rw [hk] at hj
        cases hj
      exact ⟨j, (lend_of_ne hjk ..).trans hj⟩

/-- What is out after a thing came back: what was, except for that thing. -/
theorem Kept.out_takeBack (h : L.Kept owned) {k : τ} {a : α} (hk : L.out k = some a) (b : α) :
    (L.takeBack k a).Out b ↔ b ≠ a ∧ L.Out b := by
  constructor
  · rintro ⟨j, hj⟩
    have hjk : j ≠ k := by
      rintro rfl
      rw [takeBack_self] at hj
      cases hj
    rw [takeBack_of_ne hjk] at hj
    refine ⟨?_, j, hj⟩
    rintro rfl
    exact hjk (h.alone j k b hj hk)
  · rintro ⟨hba, j, hj⟩
    have hjk : j ≠ k := by
      rintro rfl
      exact hba (Option.some.inj (hj.symm.trans hk))
    exact ⟨j, (takeBack_of_ne hjk ..).trans hj⟩

omit [DecidableEq τ] in
/-- A new thing on the shelf. -/
theorem Kept.add (h : L.Kept owned) {a : α} (ha : ¬owned a) {owned' : α → Prop} (ho : ∀ b, owned' b ↔ b = a ∨ owned b) :
    (L.add a).Kept owned' where
  nodup := List.nodup_cons.2 ⟨fun hm => ha ((h.owned_iff a).2 (Or.inl hm)), h.nodup⟩
  home := by
    intro k b hk hb
    rcases List.mem_cons.1 hb with rfl | hb
    · exact ha ((h.owned_iff b).2 (Or.inr ⟨k, hk⟩))
    · exact h.home k b hk hb
  alone := h.alone
  owned_iff := by
    intro b
    rw [ho, h.owned_iff, ← or_assoc]
    exact or_congr_left List.mem_cons.symm

/-- Lending one thing that is not out and not left on the shelf, under an unused ticket. -/
theorem Kept.lend (h : L.Kept owned) {k : τ} (hk : L.out k = none) {a : α} {rest : List α} (hnodup : rest.Nodup)
    (hout : ¬L.Out a) (harest : a ∉ rest) (hrest : ∀ b, b ∈ rest → b ∈ L.shelf) {owned' : α → Prop}
    (ho : ∀ b, owned' b ↔ b = a ∨ b ∈ rest ∨ L.Out b) : (L.lend k a rest).Kept owned' where
  nodup := hnodup
  home := by
    intro j b hj hb
    rcases (out_lend hk a rest b).1 ⟨j, hj⟩ with rfl | hb'
    · exact harest hb
    · exact h.not_out (hrest b hb) hb'
  alone := by
    intro i j b hi hj
    by_cases hik : i = k <;> by_cases hjk : j = k
    · rw [hik, hjk]
    · subst hik
      rw [lend_self] at hi
      rw [lend_of_ne hjk] at hj
      exact absurd ⟨j, Option.some.inj hi ▸ hj⟩ hout
    · subst hjk
      rw [lend_self] at hj
      rw [lend_of_ne hik] at hi
      exact absurd ⟨i, Option.some.inj hj ▸ hi⟩ hout
    · rw [lend_of_ne hik] at hi
      rw [lend_of_ne hjk] at hj
      exact h.alone i j b hi hj
  owned_iff := by
    intro b
    rw [ho, out_lend hk, ← or_assoc, ← or_assoc]
    exact or_congr_left or_comm

/-- Lending the first thing of the shelf. -/
theorem Kept.lendFirst (h : L.Kept owned) {k : τ} (hk : L.out k = none) {a : α} {rest : List α} (hs : L.shelf = a :: rest) :
    (L.lend k a rest).Kept owned := by
  have hnodup := h.nodup
  rw [hs, List.nodup_cons] at hnodup
  refine h.lend hk hnodup.2 (h.not_out (hs ▸ List.mem_cons_self)) hnodup.1 (fun b hb => hs ▸ List.mem_cons_of_mem a hb) ?_
  intro b
  rw [h.owned_iff, hs, List.mem_cons, or_assoc]

/-- Lending a new thing. -/
theorem Kept.lendNew (h : L.Kept owned) {k : τ} (hk : L.out k = none) {a : α} (ha : ¬owned a) {owned' : α → Prop}
    (ho : ∀ b, owned' b ↔ b = a ∨ owned b) : (L.lend k a L.shelf).Kept owned' := by
  have hnot := mt (h.owned_iff a).2 ha
  rw [not_or] at hnot
  refine h.lend hk h.nodup hnot.2 hnot.1 (fun b hb => hb) ?_
  intro b
  rw [ho, h.owned_iff]

/-- Taking a thing back. -/
theorem Kept.takeBack (h : L.Kept owned) {k : τ} {a : α} (hk : L.out k = some a) : (L.takeBack k a).Kept owned where
  nodup := List.nodup_cons.2 ⟨h.home k a hk, h.nodup⟩
  home := by
    intro j b hj hb
    obtain ⟨hba, i, hi⟩ := (h.out_takeBack hk b).1 ⟨j, hj⟩
    rcases List.mem_cons.1 hb with rfl | hb
    · exact hba rfl
    · exact h.home i b hi hb
  alone := by
    intro i j b hi hj
    have hold : ∀ x, (L.takeBack k a).out x = some b → L.out x = some b := by
      intro x hx
      have hxk : x ≠ k := by
        rintro rfl
        rw [takeBack_self] at hx
        cases hx
      rwa [takeBack_of_ne hxk] at hx
    exact h.alone i j b (hold i hi) (hold j hj)
  owned_iff := by
    intro b
    rw [h.owned_iff, h.out_takeBack hk, show (L.takeBack k a).shelf = a :: L.shelf from rfl, List.mem_cons]
    by_cases hba : b = a
    · subst hba
      exact iff_of_true (Or.inr ⟨k, hk⟩) (Or.inl (Or.inl rfl))
    · simp [hba]

end Loans

end ProjectYJ
