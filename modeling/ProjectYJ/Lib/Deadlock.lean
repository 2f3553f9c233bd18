import ProjectYJ.Lib.Locks

/-!
# Mutexes that a thread takes again

Code that may lock a mutex which it holds, or take mutexes against the order of a rank, is not `Ordered`. `Bracketed` says the rest of
it: mutexes are unlocked by the thread that owns them, and what they guard is done by that thread. `Owning` carries this through runs,
`Owning.selfWaits_run` says that a thread which waits for itself does so for good, with all that it owns, and `Owning.cycle` names the
threads without which there are no cycles of waits.
-/

namespace ProjectYJ

open Relation

section

variable {τ μ β σ ω γ : Type*} [DecidableEq μ]
variable (nests : μ → μ → Prop) (again : μ → Prop) (guard : β → Option μ) (expands : β → List (Instr μ β) → Prop)

/-- Code that, begun with these mutexes held, unlocks what it holds, does what a mutex guards under that mutex, and ends with nothing
held, up to where it locks a mutex that it holds. `nests` says which mutexes are locked under which, and `again` which are locked under
themselves. -/
inductive Bracketed : List μ → List (Instr μ β) → Prop where
  | nil : Bracketed [] []
  | lock {held m rest} (notMem : m ∉ held) (nested : ∀ m' ∈ held, nests m' m) (next : Bracketed (m :: held) rest) :
      Bracketed held (.lock m :: rest)
  | relock {held m rest} (mem : m ∈ held) (taken : again m) : Bracketed held (.lock m :: rest)
  | unlock {held m rest} (mem : m ∈ held) (next : Bracketed (held.erase m) rest) : Bracketed held (.unlock m :: rest)
  | body {held b rest} (guarded : ∀ m, guard b = some m → m ∈ held)
      (next : ∀ e, expands b e → Bracketed held (e ++ rest)) : Bracketed held (.body b :: rest)

/-- Every thread goes on with bracketed code from what it owns. -/
def Owning (s : LockState τ μ β σ) : Prop :=
  ∀ t, ∃ held, held.Nodup ∧ (∀ m, m ∈ held ↔ s.owner m = some t) ∧ Bracketed nests again guard expands held (s.code t)

variable {nests again guard expands}

/-- A critical section of one instruction that expands to nothing. -/
theorem Bracketed.critical {held : List μ} {m : μ} {b : β} {rest : List (Instr μ β)} (notMem : m ∉ held)
    (nested : ∀ m' ∈ held, nests m' m) (hguard : ∀ k, guard b = some k → k = m) (hexpands : ∀ e, expands b e → e = [])
    (next : Bracketed nests again guard expands held rest) :
    Bracketed nests again guard expands held (.lock m :: .body b :: .unlock m :: rest) := by
  refine .lock notMem nested (.body ?_ ?_)
  · intro k hk
    rw [hguard k hk]
    exact List.mem_cons_self
  · intro e he
    rw [hexpands e he, List.nil_append]
    refine .unlock List.mem_cons_self ?_
    rwa [List.erase_cons_head]

namespace Owning

variable {s t : LockState τ μ β σ}

/-! ## What a thread owns -/

/-- What a mutex guards is done by the thread that owns it. -/
theorem owns (h : Owning nests again guard expands s) {x : τ} {b : β} {rest : List (Instr μ β)}
    (hcode : s.code x = .body b :: rest) {m : μ} (hm : guard b = some m) : s.owner m = some x := by
  obtain ⟨held, -, hheld, hord⟩ := h x
  rw [hcode] at hord
  cases hord with
  | body guarded _ => exact (hheld m).1 (guarded m hm)

/-- A thread owns what it is about to unlock. -/
theorem owns_unlock (h : Owning nests again guard expands s) {x : τ} {m : μ} {rest : List (Instr μ β)}
    (hcode : s.code x = .unlock m :: rest) : s.owner m = some x := by
  obtain ⟨held, -, hheld, hord⟩ := h x
  rw [hcode] at hord
  cases hord with
  | unlock mem _ => exact (hheld m).1 mem

/-- A thread that has nothing to do owns nothing. -/
theorem owns_nothing (h : Owning nests again guard expands s) {x : τ} (hcode : s.code x = []) (m : μ) : s.owner m ≠ some x := by
  obtain ⟨held, -, hheld, hord⟩ := h x
  rw [hcode] at hord
  cases hord with
  | nil => exact fun ho => List.not_mem_nil ((hheld m).2 ho)

/-- A mutex that a thread wants it takes under those it owns, or again. -/
theorem wants_cases (h : Owning nests again guard expands s) {x : τ} {m : μ} (hwants : s.wants x = some m) :
    (∀ m', s.owner m' = some x → nests m' m) ∨ (again m ∧ s.owner m = some x) := by
  obtain ⟨held, -, hheld, hord⟩ := h x
  unfold LockState.wants at hwants
  split at hwants
  · rename_i hcode
    obtain rfl := Option.some.inj hwants
    rw [hcode] at hord
    cases hord with
    | lock _ nested _ => exact Or.inl fun m' hm' => nested m' ((hheld m').2 hm')
    | relock mem taken => exact Or.inr ⟨taken, (hheld _).1 mem⟩
  · cases hwants

/-! ## Cycles -/

omit [DecidableEq μ] in
/-- What lies between the ends of a chain. -/
theorem transGen_between {r : τ → τ → Prop} {x y : τ} (h : TransGen r x y) :
    TransGen (fun c d => r c d ∧ ReflTransGen r x c ∧ ReflTransGen r c y) x y := by
  induction h with
  | single hxy => exact .single ⟨hxy, .refl, .single hxy⟩
  | tail hxb hbc ih =>
    refine .tail (TransGen.mono ?_ _ _ ih) ⟨hbc, hxb.to_reflTransGen, .single hbc⟩
    rintro c d ⟨hcd, hxc, hcb⟩
    exact ⟨hcd, hxc, hcb.tail hbc⟩

/-- On every cycle of waits there is a thread that waits for itself, or one that takes a mutex against the order of the rank. -/
theorem cycle {α : Type*} [Preorder α] (rank : μ → α) (h : Owning nests again guard expands s) {x : τ}
    (hcycle : TransGen (WaitsFor s.owner s.wants) x x) :
    ∃ y m, TransGen (WaitsFor s.owner s.wants) x y ∧ TransGen (WaitsFor s.owner s.wants) y x ∧ s.wants y = some m ∧
      ((again m ∧ s.owner m = some y) ∨ ∃ m', s.owner m' = some y ∧ nests m' m ∧ ¬rank m' < rank m) := by
  classical
  by_contra hnone
  -- the threads on the cycle, and what they want
  let on : τ → Prop := fun y => TransGen (WaitsFor s.owner s.wants) x y ∧ TransGen (WaitsFor s.owner s.wants) y x
  let wants : τ → Option μ := fun y => if on y then s.wants y else none
  have hordered : ∀ y m m', wants y = some m → s.owner m' = some y → rank m' < rank m := by
    intro y m m' hw ho
    obtain ⟨hon, hw⟩ : on y ∧ s.wants y = some m := by simpa [wants] using hw
    by_contra hrank
    refine hnone ⟨y, m, hon.1, hon.2, hw, ?_⟩
    rcases h.wants_cases hw with hnests | hagain
    · exact Or.inr ⟨m', ho, hnests m' ho, hrank⟩
    · exact Or.inl hagain
  refine not_transGen_waitsFor rank hordered x (TransGen.mono ?_ _ _ (transGen_between hcycle))
  rintro c d ⟨⟨m, hw, ho⟩, hxc, hcx⟩
  have hon : on c := ⟨TransGen.trans_left hcycle hxc, TransGen.trans_right hcx hcycle⟩
  exact ⟨m, by simp [wants, hon, hw], ho⟩

/-! ## Steps -/

variable [DecidableEq τ]

/-- One thread goes on, and leaves what the others own. -/
theorem update (h : Owning nests again guard expands s) {x : τ} {owner : μ → Option τ} {code : List (Instr μ β)} {data : σ}
    (hothers : ∀ y ≠ x, ∀ m, owner m = some y ↔ s.owner m = some y) {held : List μ} (hnodup : held.Nodup)
    (hheld : ∀ m, m ∈ held ↔ owner m = some x) (hcode : Bracketed nests again guard expands held code) :
    Owning nests again guard expands { owner := owner, code := Function.update s.code x code, data := data } := by
  intro y
  by_cases hy : y = x
  · subst hy
    exact ⟨held, hnodup, hheld, by simpa using hcode⟩
  · obtain ⟨held', hnodup', hheld', hord⟩ := h y
    refine ⟨held', hnodup', fun m => (hheld' m).trans (hothers y hy m).symm, ?_⟩
    simpa [Function.update_of_ne hy] using hord

/-- A step keeps the brackets, if the operations have them and what an instruction expands to is foreseen. -/
theorem step {P : LockProgram τ μ β σ ω γ} (h : Owning nests again guard expands s)
    (hprogram : ∀ op, Bracketed nests again guard expands [] (P.program op))
    (hexpands : ∀ d x b choice d' e, P.exec d x b choice = some (d', e) → expands b e) {l : LockStep τ ω γ}
    (hstep : P.step s l = some t) : Owning nests again guard expands t := by
  cases l with
  | call x op =>
    obtain ⟨hcode, rfl⟩ := LockProgram.step_call hstep
    refine h.update (fun _ _ _ => Iff.rfl) List.nodup_nil (fun m => ?_) (hprogram op)
    exact iff_of_false List.not_mem_nil (h.owns_nothing hcode m)
  | next x choice =>
    obtain ⟨held, hnodup, hheld, hord⟩ := h x
    obtain ⟨m, rest, hcode, hfree, rfl⟩ | ⟨m, rest, hcode, rfl⟩ | ⟨b, rest, d, e, hcode, hexec, rfl⟩ :=
      LockProgram.step_next hstep
    · rw [hcode] at hord
      have hothers : ∀ y ≠ x, ∀ k, Function.update s.owner m (some x) k = some y ↔ s.owner k = some y := fun y hy k =>
        update_owner_iff (by rw [hfree]; nofun) (fun hxy => hy (Option.some.inj hxy).symm) k
      cases hord with
      | lock notMem _ next =>
        refine h.update hothers (List.nodup_cons.2 ⟨notMem, hnodup⟩) (fun k => ?_) next
        by_cases hk : k = m <;> simp [hk, hheld]
      | relock mem _ =>
        rw [hheld, hfree] at mem
        cases mem
    · have howner := h.owns_unlock hcode
      rw [hcode] at hord
      cases hord with
      | unlock mem next =>
        refine h.update (fun y hy => update_owner_iff ?_ nofun) (hnodup.erase m) (fun k => ?_) next
        · exact fun hm => hy (Option.some.inj (hm.symm.trans howner))
        · rw [hnodup.mem_erase_iff]
          by_cases hk : k = m <;> simp [hk, hheld]
    · rw [hcode] at hord
      cases hord with
      | body _ next => exact h.update (fun _ _ _ => Iff.rfl) hnodup hheld (next e (hexpands _ _ _ _ _ _ hexec))

/-! ## Waiting for oneself -/

variable {P : LockProgram τ μ β σ ω γ} {x : τ}

/-- A step of another thread leaves a thread what it owns. -/
theorem keeps_owner (h : Owning nests again guard expands s) {l : LockStep τ ω γ} (hstep : P.step s l = some t)
    (hl : ∀ choice, l ≠ .next x choice) {m : μ} (howner : s.owner m = some x) : t.owner m = some x := by
  cases l with
  | call y op =>
    obtain ⟨-, rfl⟩ := LockProgram.step_call hstep
    exact howner
  | next y choice =>
    have hy : x ≠ y := fun hxy => hl choice (hxy ▸ rfl)
    obtain ⟨k, rest, -, hfree, rfl⟩ | ⟨k, rest, hcode, rfl⟩ | ⟨b, rest, d, e, -, -, rfl⟩ := LockProgram.step_next hstep
    · refine (Function.update_of_ne ?_ ..).trans howner
      rintro rfl
      rw [hfree] at howner
      cases howner
    · refine (Function.update_of_ne ?_ ..).trans howner
      rintro rfl
      exact hy (Option.some.inj (howner.symm.trans (h.owns_unlock hcode)))
    · exact howner

omit [DecidableEq μ] in
/-- What other threads do to the data leaves alone what a mutex of a thread guards. -/
theorem keeps_data [DecidableEq μ] (h : Owning nests again guard expands s) {same : μ → σ → σ → Prop} (hrefl : ∀ m d, same m d d)
    (hexec : ∀ m d y b choice d' e, guard b ≠ some m → P.exec d y b choice = some (d', e) → same m d d')
    {l : LockStep τ ω γ} (hstep : P.step s l = some t) (hl : ∀ choice, l ≠ .next x choice) {m : μ}
    (howner : s.owner m = some x) : same m s.data t.data := by
  cases l with
  | call y op =>
    obtain ⟨-, rfl⟩ := LockProgram.step_call hstep
    exact hrefl m _
  | next y choice =>
    have hy : x ≠ y := fun hxy => hl choice (hxy ▸ rfl)
    obtain ⟨k, rest, -, -, rfl⟩ | ⟨k, rest, -, rfl⟩ | ⟨b, rest, d, e, hcode, hrun, rfl⟩ := LockProgram.step_next hstep
    · exact hrefl m _
    · exact hrefl m _
    · refine hexec m _ y b choice _ e ?_ hrun
      exact fun hb => hy (Option.some.inj (howner.symm.trans (h.owns hcode hb)))

omit [DecidableEq μ] in
/-- What other threads do leaves a thread where it is, if it has something to do. -/
theorem keeps_code [DecidableEq μ] {l : LockStep τ ω γ} (hstep : P.step s l = some t) (hl : ∀ choice, l ≠ .next x choice)
    (hcode : s.code x ≠ []) : t.code x = s.code x := by
  cases l with
  | call y op =>
    obtain ⟨hnil, rfl⟩ := LockProgram.step_call hstep
    refine Function.update_of_ne ?_ ..
    rintro rfl
    exact hcode hnil
  | next y choice =>
    have hy : x ≠ y := fun hxy => hl choice (hxy ▸ rfl)
    obtain ⟨k, rest, -, -, rfl⟩ | ⟨k, rest, -, rfl⟩ | ⟨b, rest, d, e, -, -, rfl⟩ := LockProgram.step_next hstep <;>
      exact Function.update_of_ne hy ..

/-- A thread that waits for itself takes no step. -/
theorem selfWaits_stuck {m : μ} (hwants : s.wants x = some m) (howner : s.owner m = some x) {l : LockStep τ ω γ}
    (hstep : P.step s l = some t) (choice : γ) : l ≠ .next x choice := by
  rintro rfl
  unfold LockState.wants at hwants
  split at hwants
  · rename_i hcode
    obtain rfl := Option.some.inj hwants
    simp [LockProgram.step, hcode, howner] at hstep
  · cases hwants

/-- A thread that waits for itself does so for good: it stays where it is and keeps what it owns, and nobody changes what that guards. -/
theorem selfWaits_run {init : LockState τ μ β σ} (h : Owning nests again guard expands s)
    (hprogram : ∀ op, Bracketed nests again guard expands [] (P.program op))
    (hexpands : ∀ d x b choice d' e, P.exec d x b choice = some (d', e) → expands b e)
    {same : μ → σ → σ → Prop} (hrefl : ∀ m d, same m d d) (htrans : ∀ m d d' d'', same m d d' → same m d' d'' → same m d d'')
    (hexec : ∀ m d y b choice d' e, guard b ≠ some m → P.exec d y b choice = some (d', e) → same m d d')
    {m : μ} (hwants : s.wants x = some m) (howner : s.owner m = some x) {ms : List (LockStep τ ω γ)}
    (hr : (Lts.mk init P.step).run s ms = some t) :
    t.code x = s.code x ∧ ∀ k, s.owner k = some x → t.owner k = some x ∧ same k s.data t.data := by
  have hinv := (Lts.mk init P.step).run_invariant
    (I := fun r => Owning nests again guard expands r ∧ r.code x = s.code x ∧
      ∀ k, s.owner k = some x → r.owner k = some x ∧ same k s.data r.data) ?_ ?_ hr
  · exact hinv.2
  · rintro r l r' ⟨hr, hcode, hkeeps⟩ hstep
    have hrwants : r.wants x = some m := by
      unfold LockState.wants at hwants ⊢
      rwa [hcode]
    have hl := selfWaits_stuck hrwants (hkeeps m howner).1 hstep
    refine ⟨hr.step hprogram hexpands hstep, ?_, fun k hk => ⟨hr.keeps_owner hstep hl (hkeeps k hk).1, ?_⟩⟩
    · refine (keeps_code hstep hl ?_).trans hcode
      intro hnil
      simp [LockState.wants, hnil] at hrwants
    · exact htrans k _ _ _ (hkeeps k hk).2 (hr.keeps_data hrefl hexec hstep hl (hkeeps k hk).1)
  · exact ⟨h, rfl, fun k hk => ⟨hk, hrefl k _⟩⟩

end Owning

end

end ProjectYJ
