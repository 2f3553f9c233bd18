import ProjectYJ.Lib.Lts
import Mathlib.Data.Finset.Card
import Mathlib.Data.Int.Basic
import Mathlib.Logic.Function.Basic
import Mathlib.Tactic.SplitIfs

/-!
# A set and its counter

Members of a set are taken by users and released by them; with each release the member leaves the set and the counter goes down by
one, whether or not the member was still there. The counter is the size of the set as long as a member is taken only by one user
at a time, and only while it is in the set (`exact_iff_meets`).
-/

namespace ProjectYJ

/-- A set of members, the counter that goes with it, and the users that hold each member. -/
@[ext] structure Roster (α θ : Type) where
  members : Finset α
  count : Int
  holders : α → Finset θ

namespace Roster

variable {α θ : Type} [DecidableEq α] [DecidableEq θ] {s t : Roster α θ}

/-- A new member. -/
def add (s : Roster α θ) (a : α) : Roster α θ := { s with members := insert a s.members, count := s.count + 1 }

/-- A user takes a member. -/
def take (s : Roster α θ) (a : α) (w : θ) : Roster α θ :=
  { s with holders := Function.update s.holders a (insert w (s.holders a)) }

/-- A user releases a member. -/
def release (s : Roster α θ) (a : α) (w : θ) : Roster α θ where
  members := s.members.erase a
  count := s.count - 1
  holders := Function.update s.holders a ((s.holders a).erase w)

theorem take_holders_self (s : Roster α θ) (a : α) (w : θ) : (s.take a w).holders a = insert w (s.holders a) :=
  Function.update_self ..

theorem take_holders_of_ne {a b : α} (h : b ≠ a) (w : θ) : (s.take a w).holders b = s.holders b := Function.update_of_ne h ..

theorem release_holders_self (s : Roster α θ) (a : α) (w : θ) : (s.release a w).holders a = (s.holders a).erase w :=
  Function.update_self ..

theorem release_holders_of_ne {a b : α} (h : b ≠ a) (w : θ) : (s.release a w).holders b = s.holders b :=
  Function.update_of_ne h ..

/-- What a step may do, and the member it takes. -/
inductive Step (s : Roster α θ) : Option α → Roster α θ → Prop where
  | keep : Step s none s
  | add {a} (ha : a ∉ s.members) (hfree : s.holders a = ∅) : Step s none (s.add a)
  | take {a w} (hw : w ∉ s.holders a) : Step s (some a) (s.take a w)
  | release {a w} (hw : w ∈ s.holders a) : Step s none (s.release a w)

/-- The member is in the set, and nobody holds it. -/
def Free (s : Roster α θ) (a : α) : Prop := a ∈ s.members ∧ s.holders a = ∅

/-- The counter is the size of the set, and what is held is in the set and has one holder. -/
structure Exact (s : Roster α θ) : Prop where
  count : s.count = s.members.card
  held : ∀ a, s.holders a ≠ ∅ → a ∈ s.members
  one : ∀ a, (s.holders a).card ≤ 1

instance (s : Roster α θ) (a : α) : Decidable (s.Free a) := inferInstanceAs (Decidable (_ ∧ _))

/-- The counter never gets ahead of the set. -/
theorem Step.count_le {o : Option α} (h : Step s o t) (hs : s.count ≤ s.members.card) : t.count ≤ t.members.card := by
  cases h with
  | keep | take => exact hs
  | @add a ha =>
    simp only [Roster.add, Finset.card_insert_of_notMem ha]
    omega
  | @release a w hw =>
    have := Finset.pred_card_le_card_erase (s := s.members) (a := a)
    simp only [Roster.release]
    omega

/-- A step that takes only what is free keeps the counter exact. -/
theorem Step.exact {o : Option α} (h : Step s o t) (hfree : ∀ a ∈ o, s.Free a) (hs : s.Exact) : t.Exact := by
  cases h with
  | keep => exact hs
  | @add a ha hnone =>
    refine ⟨?_, fun b hb => Finset.mem_insert_of_mem (hs.held b hb), hs.one⟩
    have := hs.count
    simp only [Roster.add, Finset.card_insert_of_notMem ha]
    omega
  | @take a w hw =>
    obtain ⟨hmem, hnone⟩ := hfree a rfl
    refine ⟨hs.count, fun b hb => ?_, fun b => ?_⟩
    · by_cases hba : b = a
      · exact hba ▸ hmem
      · rw [take_holders_of_ne hba] at hb
        exact hs.held b hb
    · by_cases hba : b = a
      · subst hba
        simp [take_holders_self, hnone]
      · rw [take_holders_of_ne hba]
        exact hs.one b
  | @release a w hw =>
    have hmem := hs.held a (Finset.ne_empty_of_mem hw)
    have hlast : (s.holders a).erase w = ∅ := by
      rw [← Finset.card_eq_zero, Finset.card_erase_of_mem hw]
      exact Nat.sub_eq_zero_of_le (hs.one a)
    refine ⟨?_, fun b hb => ?_, fun b => ?_⟩
    · have h1 := Finset.card_erase_of_mem hmem
      have h2 := Finset.card_pos.2 ⟨a, hmem⟩
      have := hs.count
      simp only [Roster.release]
      omega
    · by_cases hba : b = a
      · subst hba
        exact absurd ((release_holders_self ..).trans hlast) hb
      · rw [release_holders_of_ne hba] at hb
        exact Finset.mem_erase_of_ne_of_mem hba (hs.held b hb)
    · by_cases hba : b = a
      · subst hba
        simp [release_holders_self, hlast]
      · rw [release_holders_of_ne hba]
        exact hs.one b

/-- A step that leaves the counter exact found it exact, and took only what was free. -/
theorem Step.exact_back {o : Option α} (h : Step s o t) (hle : s.count ≤ s.members.card) (ht : t.Exact) :
    s.Exact ∧ ∀ a ∈ o, s.Free a := by
  cases h with
  | keep => exact ⟨ht, nofun⟩
  | @add a ha hnone =>
    refine ⟨⟨?_, fun b hb => ?_, ht.one⟩, nofun⟩
    · have := ht.count
      simp only [Roster.add, Finset.card_insert_of_notMem ha] at this
      omega
    · refine (Finset.mem_insert.1 (ht.held b hb)).resolve_left ?_
      rintro rfl
      exact hb hnone
  | @take a w hw =>
    have hmem : a ∈ s.members := ht.held a (by rw [take_holders_self]; exact Finset.insert_ne_empty w _)
    have hnone : s.holders a = ∅ := by
      have hone := ht.one a
      rw [take_holders_self, Finset.card_insert_of_notMem hw] at hone
      exact Finset.card_eq_zero.1 (by omega)
    refine ⟨⟨ht.count, fun b hb => ?_, fun b => ?_⟩, ?_⟩
    · by_cases hba : b = a
      · exact hba ▸ hmem
      · rw [← take_holders_of_ne hba w] at hb
        exact ht.held b hb
    · by_cases hba : b = a
      · subst hba
        simp [hnone]
      · rw [← take_holders_of_ne hba w]
        exact ht.one b
    · rintro b hb
      obtain rfl := Option.some.inj hb
      exact ⟨hmem, hnone⟩
  | @release a w hw =>
    have hcount := ht.count
    -- a release of what is not in the set takes the counter below the size of the set for good
    have hmem : a ∈ s.members := by
      by_contra hno
      simp only [Roster.release, Finset.erase_eq_of_notMem hno] at hcount
      omega
    have hlast : (s.holders a).erase w = ∅ := by
      by_contra hne
      rw [← release_holders_self] at hne
      exact Finset.notMem_erase a s.members (ht.held a hne)
    refine ⟨⟨?_, fun b hb => ?_, fun b => ?_⟩, nofun⟩
    · have h1 := Finset.card_erase_of_mem hmem
      have h2 := Finset.card_pos.2 ⟨a, hmem⟩
      simp only [Roster.release] at hcount
      omega
    · by_cases hba : b = a
      · exact hba ▸ hmem
      · rw [← release_holders_of_ne hba w] at hb
        exact Finset.mem_of_mem_erase (ht.held b hb)
    · by_cases hba : b = a
      · subst hba
        have := Finset.card_erase_of_mem hw
        rw [hlast, Finset.card_empty] at this
        omega
      · rw [← release_holders_of_ne hba w]
        exact ht.one b

omit [DecidableEq α] [DecidableEq θ] in
/-- With no holders left, an exact counter is one that is the size of the set. -/
theorem exact_iff_of_forall_eq_empty (h : ∀ a, s.holders a = ∅) : s.Exact ↔ s.count = s.members.card :=
  ⟨fun hs => hs.count, fun hc => ⟨hc, fun a ha => absurd (h a) ha, fun a => by simp [h a]⟩⟩

section

variable {σ ℓ : Type} {T : Lts σ ℓ} {I : σ → Prop} {roster : σ → Roster α θ} {taken : σ → ℓ → Option α}

/-- The rule for a system whose steps are such steps: the counter is exact after the runs that take only what is free, and after no
others. -/
theorem exact_iff_meets (hI : ∀ s l t, I s → T.step s l = some t → I t)
    (hstep : ∀ s l t, I s → T.step s l = some t → Step (roster s) (taken s l) (roster t)) {s t : σ} {ls : List ℓ}
    (hs : I s) (hinit : (roster s).Exact) (hr : T.run s ls = some t) :
    (roster t).Exact ↔ T.Meets (fun s l => ∀ a ∈ taken s l, (roster s).Free a) s ls := by
  constructor
  · intro ht
    refine (T.meets_of_end (I := fun s => I s ∧ (roster s).count ≤ (roster s).members.card) (P := fun s => (roster s).Exact)
      (fun s l t h hl => ⟨hI s l t h.1 hl, (hstep s l t h.1 hl).count_le h.2⟩)
      (fun s l t h hl hp => (hstep s l t h.1 hl).exact_back h.2 hp) ⟨hs, Int.le_of_eq hinit.count⟩ hr ht).2
  · intro hm
    exact (T.meets_invariant (I := fun s => I s ∧ (roster s).Exact)
      (fun s l t hfree h hl => ⟨hI s l t h.1 hl, (hstep s l t h.1 hl).exact hfree h.2⟩) ⟨hs, hinit⟩ hm hr).2

end

end Roster

end ProjectYJ
