import Mathlib.Data.List.Forall2

/-!
# Two sequences that pair off

Items of two sequences come in one order, each of the one to be paired with one of the other. Whoever comes before its partner
waits, and the one that has waited longest is paired first. All are paired in the end if and only if the two sequences are
related item by item (`pairsOff_iff`), in whatever order the two come together (`pairsOff_merge_iff`).
-/

namespace ProjectYJ

universe u v

/-- Items of a first sequence (`inl`) and of a second (`inr`) pair off, with these items of the one or the other waiting. -/
inductive PairsOff {α : Type u} {β : Type v} (R : α → β → Prop) : List α → List β → List (α ⊕ β) → Prop
  | done : PairsOff R [] [] []
  | waitFirst {waiting : List α} {x : α} {l : List (α ⊕ β)} (h : PairsOff R (waiting ++ [x]) [] l) :
      PairsOff R waiting [] (.inl x :: l)
  | pairSecond {waiting : List α} {x : α} {y : β} {l : List (α ⊕ β)} (hxy : R x y) (h : PairsOff R waiting [] l) :
      PairsOff R (x :: waiting) [] (.inr y :: l)
  | waitSecond {waiting : List β} {y : β} {l : List (α ⊕ β)} (h : PairsOff R [] (waiting ++ [y]) l) :
      PairsOff R [] waiting (.inr y :: l)
  | pairFirst {waiting : List β} {x : α} {y : β} {l : List (α ⊕ β)} (hxy : R x y) (h : PairsOff R [] waiting l) :
      PairsOff R [] (y :: waiting) (.inl x :: l)

variable {α : Type u} {β : Type v} {R : α → β → Prop}

@[simp] theorem filterMap_getLeft_inr (y : β) (l : List (α ⊕ β)) :
    (Sum.inr y :: l).filterMap Sum.getLeft? = l.filterMap Sum.getLeft? :=
  List.filterMap_cons_none rfl

@[simp] theorem filterMap_getRight_inl (x : α) (l : List (α ⊕ β)) :
    (Sum.inl x :: l).filterMap Sum.getRight? = l.filterMap Sum.getRight? :=
  List.filterMap_cons_none rfl

/-- If they pair off, the two sequences are related item by item, those that wait first. -/
theorem PairsOff.forall₂ {xs : List α} {ys : List β} {l : List (α ⊕ β)} (h : PairsOff R xs ys l) :
    List.Forall₂ R (xs ++ l.filterMap Sum.getLeft?) (ys ++ l.filterMap Sum.getRight?) := by
  induction h with
  | done => exact List.Forall₂.nil
  | waitFirst h ih => simpa using ih
  | pairSecond hxy h ih => simpa using List.Forall₂.cons hxy ih
  | waitSecond h ih => simpa using ih
  | pairFirst hxy h ih => simpa using List.Forall₂.cons hxy ih

/-- Related item by item, they pair off, if items of only one of the two wait. -/
theorem pairsOff_of_forall₂ {xs : List α} {ys : List β} {l : List (α ⊕ β)} (hwait : xs = [] ∨ ys = [])
    (h : List.Forall₂ R (xs ++ l.filterMap Sum.getLeft?) (ys ++ l.filterMap Sum.getRight?)) : PairsOff R xs ys l := by
  induction l generalizing xs ys with
  | nil =>
    rw [List.filterMap_nil, List.filterMap_nil, List.append_nil, List.append_nil] at h
    rcases hwait with rfl | rfl
    · rw [List.forall₂_nil_left_iff.1 h]
      exact .done
    · rw [List.forall₂_nil_right_iff.1 h]
      exact .done
  | cons e l ih =>
    cases e with
    | inl x =>
      cases ys with
      | nil => exact .waitFirst (ih (Or.inr rfl) (by simpa using h))
      | cons y ys =>
        obtain rfl : xs = [] := hwait.resolve_right (List.cons_ne_nil y ys)
        obtain ⟨hxy, hrest⟩ := List.forall₂_cons.1 (by simpa using h)
        exact .pairFirst hxy (ih (Or.inl rfl) (by simpa using hrest))
    | inr y =>
      cases xs with
      | nil => exact .waitSecond (ih (Or.inl rfl) (by simpa using h))
      | cons x xs =>
        obtain rfl : ys = [] := hwait.resolve_left (List.cons_ne_nil x xs)
        obtain ⟨hxy, hrest⟩ := List.forall₂_cons.1 (by simpa using h)
        exact .pairSecond hxy (ih (Or.inr rfl) (by simpa using hrest))

/-- From the start, where nobody waits. -/
theorem pairsOff_iff {l : List (α ⊕ β)} :
    PairsOff R [] [] l ↔ List.Forall₂ R (l.filterMap Sum.getLeft?) (l.filterMap Sum.getRight?) :=
  ⟨fun h => by simpa using h.forall₂, fun h => pairsOff_of_forall₂ (Or.inl rfl) (by simpa using h)⟩

/-! ## Coming together -/

/-- The first sequence is found again in what the two come together to. -/
theorem filterMap_getLeft_merge (le : α ⊕ β → α ⊕ β → Bool) (xs : List α) (ys : List β) :
    ((xs.map Sum.inl).merge (ys.map Sum.inr) le).filterMap Sum.getLeft? = xs := by
  induction xs generalizing ys with
  | nil => simp [List.filterMap_map, Function.comp_def]
  | cons x xs ihx =>
    induction ys with
    | nil => simp [List.filterMap_map, Function.comp_def]
    | cons y ys ihy =>
      rw [List.map_cons, List.map_cons, List.cons_merge_cons]
      split
      · simpa using ihx (y :: ys)
      · simpa using ihy

/-- So is the second. -/
theorem filterMap_getRight_merge (le : α ⊕ β → α ⊕ β → Bool) (xs : List α) (ys : List β) :
    ((xs.map Sum.inl).merge (ys.map Sum.inr) le).filterMap Sum.getRight? = ys := by
  induction xs generalizing ys with
  | nil => simp [List.filterMap_map, Function.comp_def]
  | cons x xs ihx =>
    induction ys with
    | nil => simp [List.filterMap_map, Function.comp_def]
    | cons y ys ihy =>
      rw [List.map_cons, List.map_cons, List.cons_merge_cons]
      split
      · simpa using ihx (y :: ys)
      · simpa using ihy

/-- Two sequences pair off, in whatever order they come together, if and only if they are related item by item. -/
theorem pairsOff_merge_iff {le : α ⊕ β → α ⊕ β → Bool} {xs : List α} {ys : List β} :
    PairsOff R [] [] ((xs.map Sum.inl).merge (ys.map Sum.inr) le) ↔ List.Forall₂ R xs ys := by
  rw [pairsOff_iff, filterMap_getLeft_merge, filterMap_getRight_merge]

end ProjectYJ
