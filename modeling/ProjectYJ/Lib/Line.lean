import Mathlib.Data.List.Basic
import Mathlib.Data.List.Nodup
import Mathlib.Logic.Function.Basic

/-!
# A line that several messages share

Messages are handed to a line under numbers, and the line carries each in pieces, each piece the next symbols of its message.
`Line.Framed` says that what came out is whole messages put end to end, and behind them a part of at most one more. It is kept
as long as a piece of a message is only carried while no other message is partly carried (`Line.Framed.transfer`).
-/

namespace ProjectYJ

universe u

/-- The messages handed to a line, how much of each was carried, and what came out. -/
structure Line (α : Type u) where
  messages : Nat → Option (List α)
  progress : Nat → Nat
  out : List α

namespace Line

variable {α : Type u} {L : Line α} {k : Nat} {m : List α}

/-- A line to which nothing was handed. -/
def empty : Line α := { messages := fun _ => none, progress := fun _ => 0, out := [] }

/-- A message is handed over under a number. -/
def hand (L : Line α) (k : Nat) (m : List α) : Line α :=
  { L with messages := Function.update L.messages k (some m), progress := Function.update L.progress k 0 }

/-- The next `n` symbols of the message `m` under the number `k` are carried. -/
def transfer (L : Line α) (k : Nat) (m : List α) (n : Nat) : Line α :=
  { L with
    progress := Function.update L.progress k (L.progress k + n)
    out := L.out ++ (m.drop (L.progress k)).take n }

/-- The message under a number, empty if there is none. -/
def message (L : Line α) (k : Nat) : List α := (L.messages k).getD []

/-- Some symbols of the message were carried and others were not. -/
def Partial (L : Line α) (k : Nat) : Prop := ∃ m, L.messages k = some m ∧ 0 < L.progress k ∧ L.progress k < m.length

/-- What came out is the messages `whole`, each whole and once, and behind them `tail`: nothing, or the part that was
carried of the one message that is partly carried. -/
structure Framed (L : Line α) (whole : List Nat) (tail : List α) : Prop where
  nodup : whole.Nodup
  out : L.out = whole.flatMap L.message ++ tail
  whole : ∀ k ∈ whole, ∃ m, L.messages k = some m ∧ L.progress k = m.length
  tail : (tail = [] ∧ ∀ k, ¬L.Partial k) ∨
    ∃ k m, L.messages k = some m ∧ tail = m.take (L.progress k) ∧ L.Partial k ∧ ∀ j, j ≠ k → ¬L.Partial j

theorem message_of_some (h : L.messages k = some m) : L.message k = m := by
  rw [message, h, Option.getD_some]

theorem framed_empty : (empty : Line α).Framed [] [] where
  nodup := List.nodup_nil
  out := rfl
  whole := nofun
  tail := Or.inl ⟨rfl, by rintro k ⟨m, hm, _⟩; cases hm⟩

/-! ## A message is handed over -/

theorem hand_messages_of_ne {j : Nat} (h : j ≠ k) : (L.hand k m).messages j = L.messages j := Function.update_of_ne h ..

theorem hand_progress_of_ne {j : Nat} (h : j ≠ k) : (L.hand k m).progress j = L.progress j := Function.update_of_ne h ..

/-- A message just handed over is not partly carried, and the others are as before. -/
theorem partial_hand (hk : L.messages k = none) (j : Nat) : (L.hand k m).Partial j ↔ L.Partial j := by
  by_cases hj : j = k
  · subst hj
    constructor
    · rintro ⟨_, _, h0, _⟩
      simp [hand] at h0
    · rintro ⟨m', hm', _⟩
      rw [hk] at hm'
      cases hm'
  · unfold Partial
    rw [hand_messages_of_ne hj, hand_progress_of_ne hj]

/-- Handing over a message under a new number changes nothing of what came out. -/
theorem Framed.hand {whole : List Nat} {tail : List α} (h : L.Framed whole tail) (hk : L.messages k = none) :
    (L.hand k m).Framed whole tail := by
  have hne : ∀ j m', L.messages j = some m' → j ≠ k := by
    rintro j m' hj rfl
    rw [hk] at hj
    cases hj
  refine ⟨h.nodup, ?_, ?_, ?_⟩
  · rw [show (L.hand k m).out = L.out from rfl, h.out]
    congr 1
    refine List.flatMap_congr (fun j hj => ?_)
    obtain ⟨m', hm', _⟩ := h.whole j hj
    rw [message_of_some hm', message_of_some ((hand_messages_of_ne (hne j m' hm')).trans hm')]
  · intro j hj
    obtain ⟨m', hm', hp⟩ := h.whole j hj
    exact ⟨m', (hand_messages_of_ne (hne j m' hm')).trans hm', (hand_progress_of_ne (hne j m' hm')).trans hp⟩
  · rcases h.tail with ⟨rfl, hno⟩ | ⟨j, m', hm', rfl, hpart, hothers⟩
    · exact Or.inl ⟨rfl, fun j hj => hno j ((partial_hand hk j).1 hj)⟩
    · refine Or.inr ⟨j, m', (hand_messages_of_ne (hne j m' hm')).trans hm', ?_, (partial_hand hk j).2 hpart, ?_⟩
      · rw [hand_progress_of_ne (hne j m' hm')]
      · intro i hi hp
        exact hothers i hi ((partial_hand hk i).1 hp)

/-! ## A piece is carried -/

theorem transfer_progress_self (L : Line α) (k : Nat) (m : List α) (n : Nat) :
    (L.transfer k m n).progress k = L.progress k + n := Function.update_self ..

theorem transfer_progress_of_ne {j : Nat} (h : j ≠ k) (n : Nat) : (L.transfer k m n).progress j = L.progress j :=
  Function.update_of_ne h ..

theorem partial_transfer_of_ne {j : Nat} (h : j ≠ k) (n : Nat) : (L.transfer k m n).Partial j ↔ L.Partial j := by
  unfold Partial
  rw [transfer_progress_of_ne h]
  rfl

/-- While no other message is partly carried, what came out ends with what was carried of this one. -/
theorem Framed.tail_of_alone {whole : List Nat} {tail : List α} (h : L.Framed whole tail) (hm : L.messages k = some m)
    (hlt : L.progress k < m.length) (halone : ∀ j, j ≠ k → ¬L.Partial j) : tail = m.take (L.progress k) := by
  rcases h.tail with ⟨rfl, hno⟩ | ⟨j, m', hm', rfl, hpart, -⟩
  · have h0 : L.progress k = 0 := by
      by_contra hpos
      exact hno k ⟨m, hm, Nat.pos_of_ne_zero hpos, hlt⟩
    rw [h0, List.take_zero]
  · have hj : j = k := by
      by_contra hne
      exact halone j hne hpart
    subst hj
    obtain rfl := Option.some.inj (hm'.symm.trans hm)
    rfl

/-- A piece of a message, carried while no other message is partly carried, either completes the message or leaves it as the
only one partly carried. -/
theorem Framed.transfer {whole : List Nat} {tail : List α} (h : L.Framed whole tail) (hm : L.messages k = some m) {n : Nat}
    (hn : 0 < n) (hle : L.progress k + n ≤ m.length) (halone : ∀ j, j ≠ k → ¬L.Partial j) :
    ∃ whole' tail', (L.transfer k m n).Framed whole' tail' := by
  have htail := h.tail_of_alone hm (by omega) halone
  have hout : (L.transfer k m n).out = whole.flatMap L.message ++ m.take (L.progress k + n) := by
    show L.out ++ _ = _
    rw [h.out, htail, List.append_assoc, ← List.take_add]
  have hk : k ∉ whole := by
    intro hmem
    obtain ⟨m', hm', hp⟩ := h.whole k hmem
    obtain rfl := Option.some.inj (hm'.symm.trans hm)
    omega
  have hwhole : ∀ j ∈ whole, ∃ m', (L.transfer k m n).messages j = some m' ∧ (L.transfer k m n).progress j = m'.length := by
    intro j hj
    obtain ⟨m', hm', hp⟩ := h.whole j hj
    have hjk : j ≠ k := by
      rintro rfl
      exact hk hj
    exact ⟨m', hm', (transfer_progress_of_ne hjk n).trans hp⟩
  have hothers : ∀ j, j ≠ k → ¬(L.transfer k m n).Partial j :=
    fun j hj hp => halone j hj ((partial_transfer_of_ne hj n).1 hp)
  by_cases hfull : L.progress k + n = m.length
  · refine ⟨whole ++ [k], [], ?_, ?_, ?_, Or.inl ⟨rfl, ?_⟩⟩
    · rw [List.nodup_append_comm, List.singleton_append, List.nodup_cons]
      exact ⟨hk, h.nodup⟩
    · rw [hout, hfull, List.take_length, List.append_nil, List.flatMap_append, List.flatMap_singleton]
      exact congrArg (_ ++ ·) (message_of_some (L := L.transfer k m n) hm).symm
    · intro j hj
      rcases List.mem_append.1 hj with hj | hj
      · exact hwhole j hj
      · obtain rfl := List.mem_singleton.1 hj
        exact ⟨m, hm, by rw [transfer_progress_self, hfull]⟩
    · intro j hp
      by_cases hj : j = k
      · subst hj
        obtain ⟨m', hm', -, hlt⟩ := hp
        obtain rfl := Option.some.inj (hm'.symm.trans hm)
        rw [transfer_progress_self] at hlt
        omega
      · exact hothers j hj hp
  · refine ⟨whole, m.take (L.progress k + n), h.nodup, hout, hwhole, Or.inr ⟨k, m, hm, ?_, ?_, hothers⟩⟩
    · rw [transfer_progress_self]
    · exact ⟨m, hm, by rw [transfer_progress_self]; omega, by rw [transfer_progress_self]; omega⟩

end Line

end ProjectYJ
