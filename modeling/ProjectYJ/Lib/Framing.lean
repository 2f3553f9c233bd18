import Mathlib.Data.List.Basic
import Mathlib.Data.List.Infix
import Mathlib.Logic.Relation

/-!
# Streams of self-delimiting frames

A framing reads the size of a frame from the first `header` symbols of it. A stream is frames put end to end. The statements
say what a reader that only ever looks at the front of what it holds can conclude: a whole frame at the front is the next
frame of the stream (`Framing.next_frame`), and when the front holds no whole frame, no further frame of the stream has
arrived (`Framing.within_of_incomplete`). What whole frames leave of what arrived depends on what was left before and on what came
since (`Framing.remainder_append`). A reader that drops what the header at the front declares, for as long as that much
is there, stops unless it comes to a header that declares nothing (`Framing.induction_of_not_stalls`).
-/

namespace ProjectYJ

universe u

/-- A way to read the size of a frame from its first `header` symbols. -/
structure Framing (α : Type u) where
  header : Nat
  size : List α → Nat
  header_pos : 0 < header
  size_append : ∀ l m, header ≤ l.length → size (l ++ m) = size l

namespace Framing

variable {α : Type u} (F : Framing α)

/-- A frame: it holds a whole header, and the size the header declares is its length. -/
structure Frame where
  bytes : List α
  header_le : F.header ≤ bytes.length
  size_eq : F.size bytes = bytes.length

/-- The front of `q` holds no whole frame: not even the header is there, or less than the size it declares. -/
def Incomplete (q : List α) : Prop := q.length < F.header ∨ q.length < F.size q

variable {F}

/-- Frames put end to end. -/
def stream (fs : List F.Frame) : List α := fs.flatMap Frame.bytes

/-- The frames of a stream that its first `n` symbols hold whole. -/
def within : List F.Frame → Nat → List F.Frame
  | [], _ => []
  | f :: fs, n => if f.bytes.length ≤ n then f :: within fs (n - f.bytes.length) else []

@[simp] theorem stream_nil : stream ([] : List F.Frame) = [] := rfl

@[simp] theorem stream_cons (f : F.Frame) (fs : List F.Frame) : stream (f :: fs) = f.bytes ++ stream fs := rfl

theorem stream_append (fs gs : List F.Frame) : stream (fs ++ gs) = stream fs ++ stream gs :=
  List.flatMap_append

theorem Frame.length_pos (f : F.Frame) : 0 < f.bytes.length :=
  Nat.lt_of_lt_of_le F.header_pos f.header_le

/-- What follows a frame does not change the size its header declares. -/
theorem Frame.size_bytes_append (f : F.Frame) (rest : List α) : F.size (f.bytes ++ rest) = f.bytes.length := by
  rw [F.size_append _ _ f.header_le, f.size_eq]

/-- A frame at the front is a whole frame. -/
theorem Frame.not_incomplete (f : F.Frame) (rest : List α) : ¬F.Incomplete (f.bytes ++ rest) := by
  have hh := f.header_le
  rintro (h | h)
  · rw [List.length_append] at h
    omega
  · rw [f.size_bytes_append, List.length_append] at h
    omega

theorem incomplete_nil : F.Incomplete [] := Or.inl F.header_pos

/-- A part of a frame, cut anywhere before its end, is not a whole frame. -/
theorem Frame.incomplete_of_prefix (f : F.Frame) {q : List α} (hq : q <+: f.bytes) (hlt : q.length < f.bytes.length) :
    F.Incomplete q := by
  by_cases hh : q.length < F.header
  · exact Or.inl hh
  · obtain ⟨t, ht⟩ := hq
    have hs : F.size q = f.bytes.length := by
      rw [← f.size_eq, ← ht, F.size_append q t (by omega)]
    exact Or.inr (by omega)

/-- If the front of what has arrived of a stream holds a whole frame, that frame is the next frame of the stream. -/
theorem next_frame {fs : List F.Frame} {q : List α} (hq : q <+: stream fs) (hc : ¬F.Incomplete q) :
    ∃ f fs' q', fs = f :: fs' ∧ q = f.bytes ++ q' ∧ q' <+: stream fs' := by
  cases fs with
  | nil =>
    rw [stream_nil, List.prefix_nil] at hq
    exact absurd (hq ▸ incomplete_nil) hc
  | cons f fs' =>
    rw [stream_cons] at hq
    by_cases hlt : q.length < f.bytes.length
    · have hp : q <+: f.bytes := List.prefix_of_prefix_length_le hq (List.prefix_append _ _) (by omega)
      exact absurd (f.incomplete_of_prefix hp hlt) hc
    · obtain ⟨q', rfl⟩ := List.prefix_of_prefix_length_le (List.prefix_append f.bytes (stream fs')) hq (by omega)
      exact ⟨f, fs', q', rfl, rfl, (List.prefix_append_right_inj _).1 hq⟩

/-- The frames of a first part of a stream are within it, and after them those of the rest. -/
theorem within_append (fs gs : List F.Frame) (n : Nat) :
    within (fs ++ gs) ((stream fs).length + n) = fs ++ within gs n := by
  induction fs with
  | nil => simp
  | cons f fs ih =>
    have hle : f.bytes.length ≤ f.bytes.length + (stream fs).length + n := by omega
    simp only [List.cons_append, within, stream_cons, List.length_append, hle, if_true]
    rw [show f.bytes.length + (stream fs).length + n - f.bytes.length = (stream fs).length + n by omega, ih]

/-- A stream holds all its frames whole. -/
theorem within_stream (fs : List F.Frame) : within fs (stream fs).length = fs := by
  have h := within_append fs [] 0
  rwa [List.append_nil, Nat.add_zero, show within ([] : List F.Frame) 0 = [] from rfl, List.append_nil] at h

/-- If the front of what has arrived holds no whole frame, no frame of the stream has arrived whole. -/
theorem within_of_incomplete {fs : List F.Frame} {q : List α} (hq : q <+: stream fs) (hi : F.Incomplete q) :
    within fs q.length = [] := by
  cases fs with
  | nil => rfl
  | cons f fs' =>
    have hlt : ¬f.bytes.length ≤ q.length := by
      intro hle
      obtain ⟨t, rfl⟩ := List.prefix_of_prefix_length_le (List.prefix_append f.bytes (stream fs')) hq hle
      exact f.not_incomplete t hi
    simp only [within, hlt, if_false]

/-- What has arrived of a stream is whole frames of it, and behind them a front that holds no further one. -/
theorem exists_stream_append_incomplete {fs : List F.Frame} {q : List α} (hq : q <+: stream fs) :
    ∃ fs₁ fs₂ q', fs = fs₁ ++ fs₂ ∧ q = stream fs₁ ++ q' ∧ q' <+: stream fs₂ ∧ F.Incomplete q' := by
  induction fs generalizing q with
  | nil =>
    rw [stream_nil, List.prefix_nil] at hq
    exact ⟨[], [], [], rfl, hq, List.prefix_rfl, incomplete_nil⟩
  | cons f fs ih =>
    by_cases hi : F.Incomplete q
    · exact ⟨[], f :: fs, q, rfl, rfl, hq, hi⟩
    · obtain ⟨g, gs, q', heq, rfl, hq'⟩ := next_frame hq hi
      obtain ⟨rfl, rfl⟩ := List.cons_eq_cons.1 heq
      obtain ⟨fs₁, fs₂, q'', rfl, rfl, hpre, hinc⟩ := ih hq'
      exact ⟨f :: fs₁, fs₂, q'', rfl, by rw [stream_cons, List.append_assoc], hpre, hinc⟩

/-- A whole frame at the front is still there, and of the same size, when more follows. -/
theorem not_incomplete_append {q : List α} (h : ¬F.Incomplete q) (m : List α) :
    ¬F.Incomplete (q ++ m) ∧ F.size (q ++ m) = F.size q ∧ F.size q ≤ q.length := by
  obtain ⟨hh, hs⟩ := not_or.1 h
  rw [Nat.not_lt] at hh hs
  have hsize := F.size_append q m hh
  refine ⟨?_, hsize, hs⟩
  rintro (h | h)
  · rw [List.length_append] at h
    omega
  · rw [hsize, List.length_append] at h
    omega

/-! ## What whole frames at the front leave -/

variable (F) in
/-- What is left when every whole frame is taken from the front. A header that declares the size 0 is left where it is. -/
def remainder [DecidablePred F.Incomplete] (q : List α) : List α :=
  if F.Incomplete q ∨ F.size q = 0 then q else remainder (q.drop (F.size q))
termination_by q.length
decreasing_by
  rename_i h
  obtain ⟨hi, h0⟩ := not_or.1 h
  have hh : F.header ≤ q.length := Nat.not_lt.1 (mt Or.inl hi)
  have hpos := F.header_pos
  rw [List.length_drop]
  omega

section

variable [DecidablePred F.Incomplete]

theorem remainder_eq_self {q : List α} (h : F.Incomplete q ∨ F.size q = 0) : F.remainder q = q := by
  rw [remainder, if_pos h]

theorem remainder_eq_remainder_drop {q : List α} (h : ¬(F.Incomplete q ∨ F.size q = 0)) :
    F.remainder q = F.remainder (q.drop (F.size q)) := by
  rw [remainder, if_neg h]

/-- A front without a whole frame is left as it is. -/
theorem remainder_of_incomplete {q : List α} (h : F.Incomplete q) : F.remainder q = q := remainder_eq_self (Or.inl h)

/-- Taking what the header at the front declares does not change what is left. -/
theorem remainder_drop_size {q : List α} (h : ¬F.Incomplete q) : F.remainder (q.drop (F.size q)) = F.remainder q := by
  by_cases h0 : F.size q = 0
  · rw [h0, List.drop_zero]
  · exact (remainder_eq_remainder_drop (not_or.2 ⟨h, h0⟩)).symm

/-- What comes later is put behind what was left. -/
theorem remainder_append (q m : List α) : F.remainder (q ++ m) = F.remainder (F.remainder q ++ m) := by
  induction q using remainder.induct (F := F) with
  | case1 q h => rw [remainder_eq_self h]
  | case2 q h ih =>
    obtain ⟨hi', hsize, hle⟩ := not_incomplete_append (not_or.1 h).1 m
    rw [remainder_eq_remainder_drop h, ← ih, ← remainder_drop_size hi', hsize, List.drop_append_of_le_length hle]

end

/-! ## Dropping what the header at the front declares -/

variable (F) in
/-- Taking what the header at the front declares, for as long as that much is there, gives these pieces and may leave this rest.
The symbols need not be a stream. -/
inductive Cuts : List α → List (List α) → List α → Prop
  | nil (q : List α) : Cuts q [] q
  | cons {q rest : List α} {ps : List (List α)} :
      ¬F.Incomplete q → Cuts (q.drop (F.size q)) ps rest → Cuts q (q.take (F.size q) :: ps) rest

/-- What follows does not change the pieces. -/
theorem Cuts.append {q rest : List α} {ps : List (List α)} (h : F.Cuts q ps rest) (m : List α) :
    F.Cuts (q ++ m) ps (rest ++ m) := by
  induction h with
  | nil q => exact Cuts.nil (q ++ m)
  | @cons q rest ps hc _ ih =>
    obtain ⟨hc', hsize, hle⟩ := not_incomplete_append hc m
    have hcons := Cuts.cons hc' (by rw [hsize, List.drop_append_of_le_length hle]; exact ih)
    rwa [hsize, List.take_append_of_le_length hle] at hcons

/-- One piece more, from the front of the rest. -/
theorem Cuts.snoc {q rest : List α} {ps : List (List α)} (h : F.Cuts q ps rest) (hc : ¬F.Incomplete rest) :
    F.Cuts q (ps ++ [rest.take (F.size rest)]) (rest.drop (F.size rest)) := by
  induction h with
  | nil q => exact Cuts.cons hc (Cuts.nil _)
  | cons hq _ ih => exact Cuts.cons hq (ih hc)

/-- The first piece is the front of what is cut. -/
theorem Cuts.head_front {q p rest : List α} {ps : List (List α)} (h : F.Cuts q (p :: ps) rest) : p <+: q := by
  cases h
  exact List.take_prefix _ _

variable (F) in
/-- The reader drops what the header at the front declares: that much is there. The bytes need not be a stream. -/
def Drops (q q' : List α) : Prop := ¬F.Incomplete q ∧ q' = q.drop (F.size q)

variable (F) in
/-- The header at the front declares the size 0: dropping it leaves all as it was. -/
def Stalled (q : List α) : Prop := F.header ≤ q.length ∧ F.size q = 0

variable (F) in
/-- Dropping from the front comes to a header that declares the size 0. -/
def Stalls (q : List α) : Prop := ∃ q', Relation.ReflTransGen F.Drops q q' ∧ F.Stalled q'

theorem Stalled.not_incomplete {q : List α} (h : F.Stalled q) : ¬F.Incomplete q := by
  obtain ⟨hh, hs⟩ := h
  rintro (h1 | h2) <;> omega

/-- A front that holds no whole frame is where dropping ends, without a stall. -/
theorem not_stalls_of_incomplete {q : List α} (h : F.Incomplete q) : ¬F.Stalls q := by
  rintro ⟨q', hq', hst⟩
  rcases Relation.ReflTransGen.cases_head hq' with rfl | ⟨q₁, hd, -⟩
  · exact hst.not_incomplete h
  · exact hd.1 h

/-- Dropping stalls from where it stands exactly if it stalls there, or further on. -/
theorem stalls_iff_of_not_incomplete {q : List α} (h : ¬F.Incomplete q) :
    F.Stalls q ↔ F.Stalled q ∨ F.Stalls (q.drop (F.size q)) := by
  constructor
  · rintro ⟨q', hq', hst⟩
    rcases Relation.ReflTransGen.cases_head hq' with rfl | ⟨q₁, ⟨-, rfl⟩, hrest⟩
    · exact Or.inl hst
    · exact Or.inr ⟨q', hrest, hst⟩
  · rintro (hst | ⟨q', hq', hst⟩)
    · exact ⟨q, .refl, hst⟩
    · exact ⟨q', .head ⟨h, rfl⟩ hq', hst⟩

/-- What holds of every front without a whole frame, and of a front if it holds of what is left of it, holds wherever dropping
does not stall: every drop but a stalled one leaves less. -/
theorem induction_of_not_stalls {motive : List α → Prop} (incomplete : ∀ q, F.Incomplete q → motive q)
    (drop : ∀ q, ¬F.Incomplete q → motive (q.drop (F.size q)) → motive q) (q : List α) (h : ¬F.Stalls q) : motive q := by
  induction hn : q.length using Nat.strong_induction_on generalizing q with
  | _ n ih =>
    by_cases hi : F.Incomplete q
    · exact incomplete q hi
    · obtain ⟨hstall, hrest⟩ := not_or.1 (mt (stalls_iff_of_not_incomplete hi).2 h)
      have hlt : (q.drop (F.size q)).length < n := by
        have hne : F.size q ≠ 0 := fun h0 => hstall ⟨Nat.not_lt.1 (mt Or.inl hi), h0⟩
        have hpos := F.header_pos
        have hh : F.header ≤ q.length := Nat.not_lt.1 (mt Or.inl hi)
        rw [List.length_drop]
        omega
      exact drop q hi (ih _ hlt _ hrest rfl)

end Framing

end ProjectYJ
