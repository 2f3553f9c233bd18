import Mathlib.Data.List.Basic
import Mathlib.Data.List.Infix
import Mathlib.Logic.Function.Basic

/-!
# Handing items over to workers by key

Items are dispatched to the queue of the worker of their key; a worker takes the first item of its queue into its hand, and
then handles it or drops it. `HandOver.InOrder` accounts for every item of a key in the order of dispatch, and
`HandOver.InOrder.handled_prefix` is what it is for: the items handled are the first of those dispatched, as long as no item
of a key is handled after one of it was dropped.
-/

namespace ProjectYJ

universe u v w

/-- The queues and hands of the workers `ω`, and the items dispatched, handled and dropped so far. -/
structure HandOver (ω : Type u) (α : Type v) where
  queue : ω → List α
  hand : ω → Option α
  dispatched : List α
  handled : List α
  dropped : List α

namespace HandOver

variable {ω : Type u} {α : Type v} {κ : Type w} [DecidableEq ω]

/-- An item goes behind the queue of a worker. -/
def push (H : HandOver ω α) (i : ω) (x : α) : HandOver ω α :=
  { H with queue := Function.update H.queue i (H.queue i ++ [x]), dispatched := H.dispatched ++ [x] }

/-- A worker takes an item into its hand and leaves the rest of its queue. -/
def pop (H : HandOver ω α) (i : ω) (x : α) (rest : List α) : HandOver ω α :=
  { H with queue := Function.update H.queue i rest, hand := Function.update H.hand i (some x) }

/-- A worker handles the item in its hand. -/
def handle (H : HandOver ω α) (i : ω) (x : α) : HandOver ω α :=
  { H with hand := Function.update H.hand i none, handled := H.handled ++ [x] }

/-- A worker drops the item in its hand. -/
def drop (H : HandOver ω α) (i : ω) (x : α) : HandOver ω α :=
  { H with hand := Function.update H.hand i none, dropped := H.dropped ++ [x] }

/-- What a worker has still to do, in order. -/
def waiting (H : HandOver ω α) (i : ω) : List α := (H.hand i).toList ++ H.queue i

omit [DecidableEq ω] in
theorem waiting_of_hand {H : HandOver ω α} {i : ω} {x : α} (h : H.hand i = some x) : H.waiting i = x :: H.queue i := by
  rw [waiting, h, Option.toList_some, List.singleton_append]

theorem waiting_push (H : HandOver ω α) (i j : ω) (x : α) :
    (H.push i x).waiting j = if j = i then H.waiting j ++ [x] else H.waiting j := by
  simp only [waiting, push]
  split
  · rename_i hj
    rw [hj, Function.update_self, List.append_assoc]
  · rename_i hj
    rw [Function.update_of_ne hj]

theorem waiting_pop {H : HandOver ω α} {i : ω} {x : α} {rest : List α} (hh : H.hand i = none) (hq : H.queue i = x :: rest)
    (j : ω) : (H.pop i x rest).waiting j = H.waiting j := by
  simp only [waiting, pop]
  by_cases hj : j = i
  · rw [hj, Function.update_self, Function.update_self, hh, hq]
    rfl
  · rw [Function.update_of_ne hj, Function.update_of_ne hj]

theorem waiting_handle (H : HandOver ω α) (i j : ω) (x : α) :
    (H.handle i x).waiting j = if j = i then H.queue j else H.waiting j := by
  simp only [waiting, handle]
  split
  · rename_i hj
    rw [hj, Function.update_self]
    rfl
  · rename_i hj
    rw [Function.update_of_ne hj]

theorem waiting_drop (H : HandOver ω α) (i j : ω) (x : α) :
    (H.drop i x).waiting j = if j = i then H.queue j else H.waiting j :=
  waiting_handle H i j x

/-- What is left when a worker has handled its item was waiting before. -/
theorem mem_waiting_of_handle {H : HandOver ω α} {i j : ω} {x y : α} (h : y ∈ (H.handle i x).waiting j) : y ∈ H.waiting j := by
  rw [waiting_handle] at h
  split at h
  · exact List.mem_append_right _ h
  · exact h

/-- What is left when a worker has dropped its item was waiting before. -/
theorem mem_waiting_of_drop {H : HandOver ω α} {i j : ω} {x y : α} (h : y ∈ (H.drop i x).waiting j) : y ∈ H.waiting j :=
  mem_waiting_of_handle (x := x) h

/-! ## Items stay with their worker -/

variable (key : α → κ) (worker : κ → ω)

/-- Every item is with the worker of its key. -/
structure Routed (H : HandOver ω α) : Prop where
  queue : ∀ i, ∀ x ∈ H.queue i, worker (key x) = i
  hand : ∀ i x, H.hand i = some x → worker (key x) = i

variable {key worker} {H : HandOver ω α} {i : ω} {x : α}

theorem Routed.push (h : Routed key worker H) (x : α) : Routed key worker (H.push (worker (key x)) x) where
  queue j y hy := by
    simp only [HandOver.push, Function.update_apply] at hy
    split at hy
    · rename_i hj
      rcases List.mem_append.1 hy with hy | hy
      · rw [hj]
        exact h.queue _ y hy
      · rw [List.mem_singleton.1 hy, hj]
    · exact h.queue j y hy
  hand := h.hand

theorem Routed.pop (h : Routed key worker H) {rest : List α} (hq : H.queue i = x :: rest) :
    Routed key worker (H.pop i x rest) where
  queue j y hy := by
    simp only [HandOver.pop, Function.update_apply] at hy
    split at hy
    · rename_i hj
      rw [hj]
      exact h.queue i y (by rw [hq]; exact List.mem_cons_of_mem x hy)
    · exact h.queue j y hy
  hand j y hy := by
    simp only [HandOver.pop, Function.update_apply] at hy
    split at hy
    · rename_i hj
      obtain rfl := Option.some.inj hy
      rw [hj]
      exact h.queue i x (by rw [hq]; exact List.mem_cons_self)
    · exact h.hand j y hy

/-- A worker whose hand becomes empty holds nothing that is not its own. -/
theorem Routed.release (h : Routed key worker H) (i : ω) {H' : HandOver ω α} (hq : H'.queue = H.queue)
    (hh : H'.hand = Function.update H.hand i none) : Routed key worker H' where
  queue j y hy := h.queue j y (hq ▸ hy)
  hand j y hy := by
    rw [hh, Function.update_apply] at hy
    split at hy
    · cases hy
    · exact h.hand j y hy

omit [DecidableEq ω] in
/-- An item that is waiting is with the worker of its key. -/
theorem Routed.waiting (h : Routed key worker H) (hx : x ∈ H.waiting i) : worker (key x) = i := by
  rcases List.mem_append.1 hx with hx | hx
  · exact h.hand i x (Option.mem_toList.1 hx)
  · exact h.queue i x hx

omit [DecidableEq ω] in
/-- Two hands that hold items of one key are the same. -/
theorem Routed.hand_unique (h : Routed key worker H) {j : ω} {y : α} (hx : H.hand i = some x) (hy : H.hand j = some y)
    (hk : key x = key y) : i = j := by
  rw [← h.hand i x hx, hk, h.hand j y hy]

/-! ## Items of a key stay in order -/

section

variable [DecidableEq κ] (key)

/-- The items of a key. -/
def ofKey (k : κ) (l : List α) : List α := l.filter (fun x => key x = k)

theorem ofKey_append (k : κ) (l m : List α) : ofKey key k (l ++ m) = ofKey key k l ++ ofKey key k m :=
  List.filter_append ..

theorem ofKey_singleton (k : κ) (x : α) : ofKey key k [x] = if key x = k then [x] else [] := by
  unfold ofKey
  split
  · rename_i h
    simp [h]
  · rename_i h
    simp [h]

theorem ofKey_cons (k : κ) (x : α) (l : List α) : ofKey key k (x :: l) = ofKey key k [x] ++ ofKey key k l :=
  ofKey_append key k [x] l

variable (worker)

/-- For each key: the items dispatched are those handled, then those dropped, then those its worker has still to do. -/
def InOrder (H : HandOver ω α) : Prop :=
  ∀ k, ofKey key k H.dispatched =
    ofKey key k H.handled ++ ofKey key k H.dropped ++ ofKey key k (H.waiting (worker k))

variable {key worker}

theorem InOrder.push (h : InOrder key worker H) (x : α) : InOrder key worker (H.push (worker (key x)) x) := by
  intro k
  rw [waiting_push]
  simp only [HandOver.push, ofKey_append, h k]
  by_cases hk : key x = k
  · rw [if_pos (congrArg worker hk.symm), ofKey_append]
    simp only [List.append_assoc]
  · rw [ofKey_singleton, if_neg hk, List.append_nil]
    split
    · rw [ofKey_append, ofKey_singleton, if_neg hk, List.append_nil]
    · rfl

theorem InOrder.pop (h : InOrder key worker H) {rest : List α} (hh : H.hand i = none) (hq : H.queue i = x :: rest) :
    InOrder key worker (H.pop i x rest) := by
  intro k
  rw [waiting_pop hh hq]
  exact h k

/-- An item of another key in the hand of a worker does not count for this one. -/
theorem ofKey_waiting (hr : Routed key worker H) (hx : H.hand i = some x) (k : κ) :
    ofKey key k (H.waiting (worker k)) =
      ofKey key k [x] ++ ofKey key k (if worker k = i then H.queue (worker k) else H.waiting (worker k)) := by
  by_cases hk : worker k = i
  · rw [if_pos hk, hk, waiting_of_hand hx, ofKey_cons]
  · rw [if_neg hk, ofKey_singleton, if_neg, List.nil_append]
    rintro rfl
    exact hk (hr.hand i x hx)

/-- An item may be handled while none of its key was dropped. -/
theorem InOrder.handle (h : InOrder key worker H) (hr : Routed key worker H) (hx : H.hand i = some x)
    (hd : ofKey key (key x) H.dropped = []) : InOrder key worker (H.handle i x) := by
  intro k
  rw [waiting_handle]
  simp only [HandOver.handle, ofKey_append]
  rw [h k, ofKey_waiting hr hx]
  by_cases hk : key x = k
  · subst hk
    rw [hd, List.append_nil, List.append_nil, List.append_assoc]
  · rw [ofKey_singleton, if_neg hk, List.nil_append, List.append_nil]

/-- The item in a hand may be dropped at any time. -/
theorem InOrder.drop (h : InOrder key worker H) (hr : Routed key worker H) (hx : H.hand i = some x) :
    InOrder key worker (H.drop i x) := by
  intro k
  rw [waiting_drop]
  simp only [HandOver.drop, ofKey_append]
  rw [h k, ofKey_waiting hr hx]
  simp only [List.append_assoc]

omit [DecidableEq ω] in
/-- The items of a key that were handled are the first of those dispatched. -/
theorem InOrder.handled_prefix (h : InOrder key worker H) (k : κ) :
    ofKey key k H.handled <+: ofKey key k H.dispatched := by
  rw [h k, List.append_assoc]
  exact List.prefix_append _ _

end

/-! ## Every item is somewhere -/

section

variable [DecidableEq α] (key worker)

/-- An item was dispatched as often as it was handled or dropped, or is still with its worker. -/
def Accounted (H : HandOver ω α) : Prop :=
  ∀ x, H.dispatched.count x = H.handled.count x + H.dropped.count x + (H.waiting (worker (key x))).count x

variable {key worker}

theorem Accounted.push (h : Accounted key worker H) (x : α) : Accounted key worker (H.push (worker (key x)) x) := by
  intro y
  rw [waiting_push]
  simp only [HandOver.push, List.count_append, h y]
  by_cases hy : y = x
  · subst hy
    rw [if_pos rfl, List.count_append]
    omega
  · rw [List.count_singleton, if_neg (fun hxy => hy (beq_iff_eq.1 hxy).symm)]
    split
    · rw [List.count_append, List.count_singleton, if_neg (fun hxy => hy (beq_iff_eq.1 hxy).symm)]
      omega
    · omega

theorem Accounted.pop (h : Accounted key worker H) {rest : List α} (hh : H.hand i = none) (hq : H.queue i = x :: rest) :
    Accounted key worker (H.pop i x rest) := by
  intro y
  rw [waiting_pop hh hq]
  exact h y

/-- The item in a hand counts for its worker, and no other item does. -/
theorem count_waiting (hr : Routed key worker H) (hx : H.hand i = some x) (y : α) :
    (H.waiting (worker (key y))).count y =
      (if y = x then 1 else 0) + (if worker (key y) = i then H.queue (worker (key y)) else H.waiting (worker (key y))).count y := by
  by_cases hi : worker (key y) = i
  · rw [if_pos hi, hi, waiting_of_hand hx, List.count_cons, Nat.add_comm]
    simp only [beq_iff_eq]
    simp only [eq_comm]
  · have hy : y ≠ x := by
      rintro rfl
      exact hi (hr.hand i y hx)
    rw [if_neg hi, if_neg hy, Nat.zero_add]

theorem Accounted.handle (h : Accounted key worker H) (hr : Routed key worker H) (hx : H.hand i = some x) :
    Accounted key worker (H.handle i x) := by
  intro y
  rw [waiting_handle]
  simp only [HandOver.handle, List.count_append, List.count_singleton, beq_iff_eq]
  rw [h y, count_waiting hr hx]
  simp only [eq_comm (a := x)]
  omega

theorem Accounted.drop (h : Accounted key worker H) (hr : Routed key worker H) (hx : H.hand i = some x) :
    Accounted key worker (H.drop i x) := by
  intro y
  rw [waiting_drop]
  simp only [HandOver.drop, List.count_append, List.count_singleton, beq_iff_eq]
  rw [h y, count_waiting hr hx]
  simp only [eq_comm (a := x)]
  omega

omit [DecidableEq ω] in
/-- An item that was dispatched was handled or dropped, or is still waiting. -/
theorem Accounted.cases (h : Accounted key worker H) (hx : x ∈ H.dispatched) :
    x ∈ H.handled ∨ x ∈ H.dropped ∨ x ∈ H.waiting (worker (key x)) := by
  have hpos := List.count_pos_iff.2 hx
  rw [h x] at hpos
  rcases Nat.add_pos_iff_pos_or_pos.1 hpos with hpos | hpos
  · rcases Nat.add_pos_iff_pos_or_pos.1 hpos with hpos | hpos
    · exact Or.inl (List.count_pos_iff.1 hpos)
    · exact Or.inr (Or.inl (List.count_pos_iff.1 hpos))
  · exact Or.inr (Or.inr (List.count_pos_iff.1 hpos))

omit [DecidableEq ω] in
/-- Where no item is dispatched twice, an item that is waiting was dispatched and not handled. -/
theorem Accounted.waiting (h : Accounted key worker H) (hd : H.dispatched.Nodup) (hx : x ∈ H.waiting (worker (key x))) :
    x ∈ H.dispatched ∧ x ∉ H.handled := by
  have hcount := h x
  have hpos := List.count_pos_iff.2 hx
  have hle := List.nodup_iff_count.1 hd x
  refine ⟨List.count_pos_iff.1 (by omega), List.count_eq_zero.1 (by omega)⟩

end

end HandOver

end ProjectYJ
