import Mathlib.Algebra.GroupWithZero.Nat
import Mathlib.Data.List.Basic

/-!
# One thread of many goes on

Threads are the entries of a list, and where one of them goes on another entry takes its place. What the entries are, what holds of all of
them and what they add up to changes by that one only.
-/

namespace ProjectYJ

section

variable {β : Type*} {l : List β} {i : Nat} {a : β}

/-- The entries after one of them was replaced. -/
theorem getElem?_set_of_some (h : l[i]? = some a) (b : β) (j : Nat) : (l.set i b)[j]? = if j = i then some b else l[j]? := by
  obtain ⟨hi, -⟩ := List.getElem?_eq_some_iff.1 h
  by_cases hj : j = i
  · subst hj
    simp [hi]
  · simp [hj, List.getElem?_set_ne (Ne.symm hj)]

/-- What holds of all entries holds when one is replaced by another of which it holds. -/
theorem forall_getElem?_set {Q : β → Prop} (hall : ∀ (j : Nat) (x : β), l[j]? = some x → Q x) (h : l[i]? = some a) {b : β}
    (hb : Q b) (j : Nat) (x : β) (hx : (l.set i b)[j]? = some x) : Q x := by
  rw [getElem?_set_of_some h] at hx
  split at hx
  · obtain rfl := Option.some.inj hx
    exact hb
  · exact hall j x hx

/-- What the entries add up to changes by what the two differ. -/
theorem sum_map_set (f : β → Nat) (h : l[i]? = some a) (b : β) :
    ((l.set i b).map f).sum + f a = (l.map f).sum + f b := by
  induction l generalizing i with
  | nil => simp at h
  | cons c rest ih =>
    cases i with
    | zero =>
      obtain rfl : c = a := by simpa using h
      simp only [List.set_cons_zero, List.map_cons, List.sum_cons]
      omega
    | succ i =>
      have hrest := ih (i := i) (by simpa using h)
      simp only [List.set_cons_succ, List.map_cons, List.sum_cons]
      omega

end

end ProjectYJ
