import Mathlib.Data.List.Basic

/-!
# Labelled transition systems

A system is an initial state and a step function: a label that is not enabled in a state has no step. A run is a list of
labels. `Lts.run_invariant` is the rule for invariants, `Lts.meets_invariant` the same rule for the runs whose steps all meet
a condition, `Lts.meets_iff` and `Lts.reached_iff_meets` tell those runs by what they leave and by what holds along them,
`Lts.meets_of_end` by where they end, `Lts.run_relation` is the rule for what holds between the two ends of a run, and
`Lts.run_history` the one for what holds of a state and the labels that led to it.
`Lts.run_simulation`, `Lts.run_lockstep` and `Lts.run_map` take the runs of one system to those of another.
-/

namespace ProjectYJ

universe u v

/-- A labelled transition system: where it starts, and what a label does to a state (`none`: the label is not enabled). -/
structure Lts (σ : Type u) (ℓ : Type v) where
  init : σ
  step : σ → ℓ → Option σ

namespace Lts

variable {σ : Type u} {ℓ : Type v} (T : Lts σ ℓ)

/-- The state after a list of labels, if each of them is enabled in its turn. -/
def run : σ → List ℓ → Option σ
  | s, [] => some s
  | s, l :: ls => (T.step s l).bind (fun t => run t ls)

/-- Every step of the run from `s` under these labels meets `C`, a condition on the label and the state before the step. -/
def Meets (C : σ → ℓ → Prop) : σ → List ℓ → Prop
  | _, [] => True
  | s, l :: ls => C s l ∧ ∀ t, T.step s l = some t → Meets C t ls

@[simp] theorem run_nil (s : σ) : T.run s [] = some s := rfl

@[simp] theorem run_cons (s : σ) (l : ℓ) (ls : List ℓ) :
    T.run s (l :: ls) = (T.step s l).bind (fun t => T.run t ls) := rfl

@[simp] theorem meets_nil (C : σ → ℓ → Prop) (s : σ) : T.Meets C s [] := trivial

/-- Whether a run meets a decidable condition can be decided by running it. -/
instance Meets.decidable (C : σ → ℓ → Prop) [∀ s l, Decidable (C s l)] : (s : σ) → (ls : List ℓ) → Decidable (T.Meets C s ls)
  | _, [] => isTrue trivial
  | s, l :: ls =>
    match h : T.step s l with
    | none =>
      decidable_of_iff (C s l) ⟨fun hc => ⟨hc, fun t ht => by rw [h] at ht; cases ht⟩, fun hm => hm.1⟩
    | some t =>
      have : Decidable (T.Meets C t ls) := Meets.decidable C t ls
      decidable_of_iff (C s l ∧ T.Meets C t ls)
        ⟨fun hc => ⟨hc.1, fun t' ht => by rw [h] at ht; cases ht; exact hc.2⟩, fun hm => ⟨hm.1, hm.2 t h⟩⟩

theorem meets_cons {C : σ → ℓ → Prop} {s : σ} {l : ℓ} {ls : List ℓ} :
    T.Meets C s (l :: ls) ↔ C s l ∧ ∀ t, T.step s l = some t → T.Meets C t ls := Iff.rfl

/-- A run meets a condition when it holds before each of its steps. -/
theorem meets_iff_before {C : σ → ℓ → Prop} {s : σ} {ls : List ℓ} :
    T.Meets C s ls ↔ ∀ ms l r, ms ++ [l] <+: ls → T.run s ms = some r → C r l := by
  induction ls generalizing s with
  | nil =>
    refine iff_of_true trivial ?_
    intro ms l r hms
    exact absurd (List.prefix_nil.1 hms) (List.append_ne_nil_of_right_ne_nil ms (List.cons_ne_nil l []))
  | cons l ls ih =>
    constructor
    · rintro ⟨hl, hrest⟩ ms m r hms hr
      cases ms with
      | nil =>
        obtain rfl := Option.some.inj hr
        obtain rfl : m = l := (List.cons_prefix_cons.1 hms).1
        exact hl
      | cons l' ms =>
        obtain ⟨rfl, hms'⟩ := List.cons_prefix_cons.1 hms
        obtain ⟨t, ht, hr'⟩ := Option.bind_eq_some_iff.1 hr
        exact ih.1 (hrest t ht) ms m r hms' hr'
    · intro hall
      refine ⟨hall [] l s (List.cons_prefix_cons.2 ⟨rfl, List.nil_prefix⟩) rfl, fun t ht => ih.2 ?_⟩
      intro ms m r hms hr
      refine hall (l :: ms) m r (List.cons_prefix_cons.2 ⟨rfl, hms⟩) ?_
      rw [run_cons, ht]
      exact hr

/-- What every step of a run meets, every step of its first part meets. -/
theorem meets_front {C : σ → ℓ → Prop} {s : σ} {ls ms : List ℓ} (h : T.Meets C s ls) (hms : ms <+: ls) : T.Meets C s ms := by
  rw [meets_iff_before] at h ⊢
  exact fun ns l r hns => h ns l r (hns.trans hms)

/-- A run whose first step is known goes on from where that leads. -/
theorem run_step {T : Lts σ ℓ} {s t : σ} {l : ℓ} (h : T.step s l = some t) (ls : List ℓ) :
    T.run s (l :: ls) = T.run t ls := by
  rw [run_cons, h, Option.bind_some]

/-- A run splits at any label: what comes first, and what comes after from where that ended. -/
theorem run_append (s : σ) (ls ms : List ℓ) : T.run s (ls ++ ms) = (T.run s ls).bind (fun t => T.run t ms) := by
  induction ls generalizing s with
  | nil => rfl
  | cons l ls ih =>
    simp only [List.cons_append, run_cons, ih, Option.bind_assoc]

/-- A run whose first part is known goes on from where that leads. -/
theorem run_append_of {T : Lts σ ℓ} {s t : σ} {ls : List ℓ} (h : T.run s ls = some t) (ms : List ℓ) :
    T.run s (ls ++ ms) = T.run t ms := by
  rw [run_append, h, Option.bind_some]

/-- The invariant rule for runs whose steps meet a condition: what every such step keeps holds at the end of the run. -/
theorem meets_invariant {C : σ → ℓ → Prop} {I : σ → Prop}
    (hstep : ∀ s l t, C s l → I s → T.step s l = some t → I t) {s t : σ} {ls : List ℓ} (hs : I s)
    (hC : T.Meets C s ls) (hr : T.run s ls = some t) : I t := by
  induction ls generalizing s with
  | nil =>
    obtain rfl := Option.some.inj hr
    exact hs
  | cons l ls ih =>
    obtain ⟨hl, hrest⟩ := hC
    obtain ⟨r, hr1, hr2⟩ := Option.bind_eq_some_iff.1 hr
    exact ih (hstep s l r hl hs hr1) (hrest r hr1) hr2

/-- The rule for a trace: what a step leaves exactly when it meets a condition is left by the runs that meet it, and no others. -/
theorem meets_iff {C : σ → ℓ → Prop} {P : σ → Prop} (hstep : ∀ s l t, T.step s l = some t → (P t ↔ P s ∧ C s l)) {s t : σ}
    {ls : List ℓ} (hr : T.run s ls = some t) : P t ↔ P s ∧ T.Meets C s ls := by
  induction ls generalizing s with
  | nil =>
    obtain rfl := Option.some.inj hr
    exact (and_iff_left trivial).symm
  | cons l ls ih =>
    obtain ⟨r, hr1, hr2⟩ := Option.bind_eq_some_iff.1 hr
    rw [ih hr2, hstep s l r hr1, and_assoc]
    refine and_congr_right fun _ => and_congr_right fun _ => ⟨fun hm t ht => ?_, fun hm => hm r hr1⟩
    exact Option.some.inj (hr1.symm.trans ht) ▸ hm

/-- A run meets a condition on its labels when all of them do. -/
theorem meets_label_iff {C : ℓ → Prop} {s t : σ} {ls : List ℓ} (hr : T.run s ls = some t) :
    T.Meets (fun _ l => C l) s ls ↔ ∀ l ∈ ls, C l := by
  induction ls generalizing s with
  | nil => exact iff_of_true trivial fun _ h => absurd h List.not_mem_nil
  | cons l ls ih =>
    obtain ⟨r, hr1, hr2⟩ := Option.bind_eq_some_iff.1 hr
    rw [List.forall_mem_cons, ← ih hr2]
    exact and_congr_right fun _ => ⟨fun hm => hm r hr1, fun hm t ht => Option.some.inj (hr1.symm.trans ht) ▸ hm⟩

/-- Where an invariant makes two conditions on a step the same, runs from a state with the invariant meet both or neither. -/
theorem meets_congr {C D : σ → ℓ → Prop} {I : σ → Prop} (hstep : ∀ s l t, I s → T.step s l = some t → I t)
    (hCD : ∀ s l, I s → (C s l ↔ D s l)) {s : σ} (hs : I s) (ls : List ℓ) : T.Meets C s ls ↔ T.Meets D s ls := by
  induction ls generalizing s with
  | nil => exact Iff.rfl
  | cons l ls ih =>
    refine and_congr (hCD s l hs) ?_
    exact forall_congr' fun t => forall_congr' fun ht => ih (hstep s l t hs ht)

/-- The rule for what holds in every state a run reaches: where the steps that meet a condition keep an invariant, and the property
of the next state needs the condition, the runs that have the property throughout are those that meet it. -/
theorem reached_iff_meets {E C : σ → ℓ → Prop} {I P : σ → Prop} (hP : ∀ s, I s → P s)
    (hstep : ∀ s l t, I s → E s l → T.step s l = some t → (C s l → I t) ∧ (P t → C s l)) {s t : σ} {ls : List ℓ} (hs : I s)
    (hE : T.Meets E s ls) (hr : T.run s ls = some t) :
    (∀ ms r, ms <+: ls → T.run s ms = some r → P r) ↔ T.Meets C s ls := by
  induction ls generalizing s with
  | nil =>
    refine iff_of_true ?_ trivial
    intro ms r hms hmr
    obtain rfl := List.prefix_nil.1 hms
    obtain rfl := Option.some.inj hmr
    exact hP s hs
  | cons l ls ih =>
    obtain ⟨hl, hrest⟩ := hE
    obtain ⟨r, hr1, hr2⟩ := Option.bind_eq_some_iff.1 hr
    obtain ⟨hkeep, hneed⟩ := hstep s l r hs hl hr1
    constructor
    · intro hall
      have hC := hneed (hall [l] r (List.prefix_cons_iff.2 (Or.inr ⟨[], rfl, List.nil_prefix⟩)) (run_step hr1 []))
      refine ⟨hC, fun t' ht' => ?_⟩
      obtain rfl := Option.some.inj (hr1.symm.trans ht')
      refine (ih (hkeep hC) (hrest r hr1) hr2).1 fun ms r' hms hmr => ?_
      exact hall (l :: ms) r' (List.prefix_cons_inj l |>.2 hms) ((run_step hr1 ms).trans hmr)
    · rintro ⟨hC, hm⟩ ms r' hms hmr
      rcases List.prefix_cons_iff.1 hms with rfl | ⟨ms', rfl, hms'⟩
      · obtain rfl := Option.some.inj hmr
        exact hP s hs
      · rw [run_step hr1] at hmr
        exact (ih (hkeep hC) (hrest r hr1) hr2).2 (hm r hr1) ms' r' hms' hmr

/-- The rule backwards: where a step that leads to a state with `P` meets the condition and came from a state with `P`, a run that
ends with `P` meets it. -/
theorem meets_of_end {C : σ → ℓ → Prop} {I P : σ → Prop} (hI : ∀ s l t, I s → T.step s l = some t → I t)
    (hback : ∀ s l t, I s → T.step s l = some t → P t → P s ∧ C s l) {s t : σ} {ls : List ℓ} (hs : I s)
    (hr : T.run s ls = some t) (hP : P t) : P s ∧ T.Meets C s ls := by
  induction ls generalizing s with
  | nil =>
    obtain rfl := Option.some.inj hr
    exact ⟨hP, trivial⟩
  | cons l ls ih =>
    obtain ⟨r, hr1, hr2⟩ := Option.bind_eq_some_iff.1 hr
    obtain ⟨hPr, hm⟩ := ih (hI s l r hs hr1) hr2
    obtain ⟨hPs, hC⟩ := hback s l r hs hr1 hPr
    exact ⟨hPs, hC, fun t' ht' => Option.some.inj (hr1.symm.trans ht') ▸ hm⟩

/-- Every run meets the condition that asks for nothing. -/
theorem meets_true (s : σ) (ls : List ℓ) : T.Meets (fun _ _ => True) s ls := by
  induction ls generalizing s with
  | nil => trivial
  | cons l ls ih => exact ⟨trivial, fun t _ => ih t⟩

/-- The invariant rule: what every step keeps holds at the end of every run. -/
theorem run_invariant {I : σ → Prop} (hstep : ∀ s l t, I s → T.step s l = some t → I t) {s t : σ} {ls : List ℓ}
    (hs : I s) (hr : T.run s ls = some t) : I t :=
  T.meets_invariant (fun s l t _ h => hstep s l t h) hs (T.meets_true s ls) hr

/-- The invariant rule for what a state keeps together with the labels that led to it. -/
theorem run_history {I : List ℓ → σ → Prop} (hstep : ∀ ms s l t, I ms s → T.step s l = some t → I (ms ++ [l]) t)
    {ms ls : List ℓ} {s t : σ} (hs : I ms s) (hr : T.run s ls = some t) : I (ms ++ ls) t := by
  induction ls generalizing ms s with
  | nil =>
    obtain rfl := Option.some.inj hr
    rwa [List.append_nil]
  | cons l ls ih =>
    obtain ⟨r, hl, hr'⟩ := Option.bind_eq_some_iff.1 hr
    have hrest := ih (hstep ms s l r hs hl) hr'
    rwa [List.append_assoc, List.singleton_append] at hrest

/-- The rule for two states: what holds between the ends of a step, and can be put together, holds between the ends of a
run. -/
theorem run_relation {I : σ → Prop} {R : σ → σ → Prop} (hrefl : ∀ s, R s s) (htrans : ∀ s t r, R s t → R t r → R s r)
    (hstep : ∀ s l t, I s → T.step s l = some t → I t ∧ R s t) {s t : σ} {ls : List ℓ} (hs : I s)
    (hr : T.run s ls = some t) : R s t := by
  induction ls generalizing s with
  | nil =>
    obtain rfl := Option.some.inj hr
    exact hrefl s
  | cons l ls ih =>
    obtain ⟨r, hr1, hr2⟩ := Option.bind_eq_some_iff.1 hr
    obtain ⟨hI, hR⟩ := hstep s l r hs hr1
    exact htrans s r t hR (ih hI hr2)

/-- The simulation rule: where the second system answers every step of the first by a run that keeps the two states related, it
answers every run. -/
theorem run_simulation {τ κ : Type*} {U : Lts τ κ} {R : σ → τ → Prop}
    (hstep : ∀ s l t p, R s p → T.step s l = some t → ∃ ks q, U.run p ks = some q ∧ R t q) {s t : σ} {ls : List ℓ} {p : τ}
    (hs : R s p) (hr : T.run s ls = some t) : ∃ ks q, U.run p ks = some q ∧ R t q := by
  induction ls generalizing s p with
  | nil =>
    obtain rfl := Option.some.inj hr
    exact ⟨[], p, rfl, hs⟩
  | cons l ls ih =>
    obtain ⟨r, hr1, hr2⟩ := Option.bind_eq_some_iff.1 hr
    obtain ⟨ks, q, hq, hR⟩ := hstep s l r p hs hr1
    obtain ⟨js, u, hu, hRu⟩ := ih hR hr2
    exact ⟨ks ++ js, u, (run_append_of hq js).trans hu, hRu⟩

/-- The simulation rule for systems with the same labels, each answered by itself. -/
theorem run_lockstep {τ : Type*} {U : Lts τ ℓ} {R : σ → τ → Prop}
    (hstep : ∀ s l t p, R s p → T.step s l = some t → ∃ q, U.step p l = some q ∧ R t q) {s t : σ} {ls : List ℓ} {p : τ}
    (hs : R s p) (hr : T.run s ls = some t) : ∃ q, U.run p ls = some q ∧ R t q := by
  induction ls generalizing s p with
  | nil =>
    obtain rfl := Option.some.inj hr
    exact ⟨p, rfl, hs⟩
  | cons l ls ih =>
    obtain ⟨r, hr1, hr2⟩ := Option.bind_eq_some_iff.1 hr
    obtain ⟨q, hq, hR⟩ := hstep s l r p hs hr1
    obtain ⟨u, hu, hRu⟩ := ih hR hr2
    exact ⟨u, (run_step hq ls).trans hu, hRu⟩

/-- The rule for a refinement mapping: where a function takes the steps of one system to the steps of another, from states with an
invariant, it takes runs to runs. -/
theorem run_map {τ : Type*} {U : Lts τ ℓ} {I : σ → Prop} {f : σ → τ}
    (hstep : ∀ s l t, I s → T.step s l = some t → I t ∧ U.step (f s) l = some (f t)) {s t : σ} {ls : List ℓ} (hs : I s)
    (hr : T.run s ls = some t) : I t ∧ U.run (f s) ls = some (f t) := by
  induction ls generalizing s with
  | nil =>
    obtain rfl := Option.some.inj hr
    exact ⟨hs, rfl⟩
  | cons l ls ih =>
    obtain ⟨r, hr1, hr2⟩ := Option.bind_eq_some_iff.1 hr
    obtain ⟨hI, hU⟩ := hstep s l r hs hr1
    obtain ⟨hIt, hrun⟩ := ih hI hr2
    exact ⟨hIt, (run_step hU ls).trans hrun⟩

end Lts

end ProjectYJ
