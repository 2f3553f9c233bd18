import ProjectYJ.Lib.Lts
import Mathlib.Data.List.Nodup
import Mathlib.Logic.Function.Basic
import Mathlib.Logic.Relation
import Mathlib.Order.Basic

/-!
# Threads and mutexes

Threads run code that locks and unlocks mutexes and does something in between. Taking mutexes in the order of a rank excludes
deadlock: `not_transGen_waitsFor` says so of one state, and `Disciplined` is the invariant that carries it through runs. A
thread that locks a mutex it holds waits for itself, which is a cycle like any other.
-/

namespace ProjectYJ

universe u

/-! ## Who waits for whom -/

section

variable {τ μ α : Type*} {owner : μ → Option τ} {wants : τ → Option μ}

/-- A thread waits for the one that owns the mutex it wants to lock. -/
def WaitsFor (owner : μ → Option τ) (wants : τ → Option μ) (t t' : τ) : Prop :=
  ∃ m, wants t = some m ∧ owner m = some t'

/-- If every thread ranks the mutex it wants above those it owns, no thread waits for itself, directly or through others. -/
theorem not_transGen_waitsFor [Preorder α] (rank : μ → α)
    (h : ∀ t m m', wants t = some m → owner m' = some t → rank m' < rank m) (t : τ) :
    ¬Relation.TransGen (WaitsFor owner wants) t t := by
  -- along a chain of waits, what the last thread owns ranks at least as high as what the first wants
  have key : ∀ t', Relation.TransGen (WaitsFor owner wants) t t' →
      ∃ m m', wants t = some m ∧ owner m' = some t' ∧ rank m ≤ rank m' := by
    intro t' ht
    induction ht with
    | single hw =>
      obtain ⟨m, hm, ho⟩ := hw
      exact ⟨m, m, hm, ho, le_rfl⟩
    | tail _ hw ih =>
      obtain ⟨m, m', hm, ho, hle⟩ := ih
      obtain ⟨k, hk, hok⟩ := hw
      exact ⟨m, k, hm, hok, hle.trans (h _ k m' hk ho).le⟩
  intro ht
  obtain ⟨m, m', hm, ho, hle⟩ := key t ht
  exact lt_irrefl _ (lt_of_le_of_lt hle (h t m m' hm ho))

end

/-! ## Code with locks -/

/-- An instruction: a lock, an unlock, or something else. -/
inductive Instr (μ β : Type*) where
  | lock (m : μ)
  | unlock (m : μ)
  | body (b : β)
  deriving DecidableEq, Repr

/-- The owners of the mutexes, what each thread has yet to do, and the rest of the state. -/
structure LockState (τ μ β σ : Type*) where
  owner : μ → Option τ
  code : τ → List (Instr μ β)
  data : σ

/-- The code of the operations threads may call, and what an instruction that is no lock does: it changes the data and may put
further code in front of what follows. `γ` stands for what the data does not determine. -/
structure LockProgram (τ μ β σ ω γ : Type*) where
  program : ω → List (Instr μ β)
  exec : σ → τ → β → γ → Option (σ × List (Instr μ β))

/-- A thread that has nothing to do calls an operation, or a thread goes on with its code. -/
inductive LockStep (τ ω γ : Type*) where
  | call (t : τ) (op : ω)
  | next (t : τ) (choice : γ)

section

variable {τ μ β σ ω γ : Type*} [DecidableEq μ]

/-- The mutex a thread is about to lock. -/
def LockState.wants (s : LockState τ μ β σ) (t : τ) : Option μ :=
  match s.code t with
  | .lock m :: _ => some m
  | _ => none

/-! ## The discipline -/

variable {α : Type*} [Preorder α] (rank : μ → α) (guard : β → Option μ) (expands : β → List (Instr μ β) → Prop)

/-- Code that, begun with these mutexes held, locks only mutexes of higher rank than those it holds, unlocks what it holds,
does what a mutex guards under that mutex, and ends with nothing held; whatever its instructions expand to. -/
inductive Ordered : List μ → List (Instr μ β) → Prop where
  | nil : Ordered [] []
  | lock {held m rest} (above : ∀ m' ∈ held, rank m' < rank m) (next : Ordered (m :: held) rest) :
      Ordered held (.lock m :: rest)
  | unlock {held m rest} (mem : m ∈ held) (next : Ordered (held.erase m) rest) : Ordered held (.unlock m :: rest)
  | body {held b rest} (guarded : ∀ m, guard b = some m → m ∈ held)
      (next : ∀ e, expands b e → Ordered held (e ++ rest)) : Ordered held (.body b :: rest)

/-- Every thread goes on with ordered code from what it owns. -/
def Disciplined (s : LockState τ μ β σ) : Prop :=
  ∀ t, ∃ held, held.Nodup ∧ (∀ m, m ∈ held ↔ s.owner m = some t) ∧ Ordered rank guard expands held (s.code t)

variable {rank guard expands}

namespace Disciplined

variable {s : LockState τ μ β σ}

/-- No thread waits for itself, directly or through others. -/
theorem acyclic (h : Disciplined rank guard expands s) (x : τ) : ¬Relation.TransGen (WaitsFor s.owner s.wants) x x := by
  refine not_transGen_waitsFor rank ?_ x
  intro y m m' hw ho
  obtain ⟨held, -, hheld, hord⟩ := h y
  unfold LockState.wants at hw
  split at hw
  · rename_i hcode
    obtain rfl := Option.some.inj hw
    rw [hcode] at hord
    cases hord with
    | lock above _ => exact above m' ((hheld m').2 ho)
  · cases hw

/-- What a mutex guards is done by the thread that owns it. -/
theorem owns (h : Disciplined rank guard expands s) {x : τ} {b : β} {rest : List (Instr μ β)}
    (hcode : s.code x = .body b :: rest) {m : μ} (hm : guard b = some m) : s.owner m = some x := by
  obtain ⟨held, -, hheld, hord⟩ := h x
  rw [hcode] at hord
  cases hord with
  | body guarded _ => exact (hheld m).1 (guarded m hm)

/-- A thread owns what it is about to unlock. -/
theorem owns_unlock (h : Disciplined rank guard expands s) {x : τ} {m : μ} {rest : List (Instr μ β)}
    (hcode : s.code x = .unlock m :: rest) : s.owner m = some x := by
  obtain ⟨held, -, hheld, hord⟩ := h x
  rw [hcode] at hord
  cases hord with
  | unlock mem _ => exact (hheld m).1 mem

end Disciplined

/-- A critical section of one instruction that expands to nothing. -/
theorem Ordered.critical {held : List μ} {m : μ} {b : β} {rest : List (Instr μ β)} (above : ∀ m' ∈ held, rank m' < rank m)
    (hguard : ∀ k, guard b = some k → k = m) (hexpands : ∀ e, expands b e → e = [])
    (next : Ordered rank guard expands held rest) :
    Ordered rank guard expands held (.lock m :: .body b :: .unlock m :: rest) := by
  refine .lock above (.body ?_ ?_)
  · intro k hk
    rw [hguard k hk]
    exact List.mem_cons_self
  · intro e he
    rw [hexpands e he, List.nil_append]
    refine .unlock List.mem_cons_self ?_
    rwa [List.erase_cons_head]

/-- An instruction that no mutex guards and that expands to nothing. -/
theorem Ordered.free {held : List μ} {b : β} {rest : List (Instr μ β)} (hguard : guard b = none)
    (hexpands : ∀ e, expands b e → e = []) (next : Ordered rank guard expands held rest) :
    Ordered rank guard expands held (.body b :: rest) := by
  refine .body ?_ ?_
  · intro k hk
    rw [hguard] at hk
    cases hk
  · intro e he
    rwa [hexpands e he]

/-! ## Steps -/

variable [DecidableEq τ]

/-- The step function. A mutex that has an owner, be it the thread itself, cannot be locked. -/
def LockProgram.step (P : LockProgram τ μ β σ ω γ) (s : LockState τ μ β σ) :
    LockStep τ ω γ → Option (LockState τ μ β σ)
  | .call t op =>
    match s.code t with
    | [] => some { s with code := Function.update s.code t (P.program op) }
    | _ :: _ => none
  | .next t choice =>
    match s.code t with
    | [] => none
    | .lock m :: rest =>
      match s.owner m with
      | none => some { s with owner := Function.update s.owner m (some t), code := Function.update s.code t rest }
      | some _ => none
    | .unlock m :: rest =>
      some { s with owner := Function.update s.owner m none, code := Function.update s.code t rest }
    | .body b :: rest =>
      (P.exec s.data t b choice).map fun r =>
        { s with data := r.1, code := Function.update s.code t (r.2 ++ rest) }

/-- What a call does: a thread with nothing to do has the code of the operation before it. -/
theorem LockProgram.step_call {s t : LockState τ μ β σ} {P : LockProgram τ μ β σ ω γ} {x : τ} {op : ω}
    (h : P.step s (.call x op) = some t) :
    s.code x = [] ∧ t = { s with code := Function.update s.code x (P.program op) } := by
  simp only [LockProgram.step] at h
  split at h
  · rename_i hcode
    exact ⟨hcode, (Option.some.inj h).symm⟩
  · cases h

/-- What the next instruction of a thread does: it locks a mutex that is free, unlocks one, or is executed and expands. -/
theorem LockProgram.step_next {s t : LockState τ μ β σ} {P : LockProgram τ μ β σ ω γ} {x : τ} {choice : γ}
    (h : P.step s (.next x choice) = some t) :
    (∃ m rest, s.code x = .lock m :: rest ∧ s.owner m = none ∧
        t = { s with owner := Function.update s.owner m (some x), code := Function.update s.code x rest }) ∨
      (∃ m rest, s.code x = .unlock m :: rest ∧
        t = { s with owner := Function.update s.owner m none, code := Function.update s.code x rest }) ∨
      ∃ b rest d e, s.code x = .body b :: rest ∧ P.exec s.data x b choice = some (d, e) ∧
        t = { s with data := d, code := Function.update s.code x (e ++ rest) } := by
  simp only [LockProgram.step] at h
  split at h
  · cases h
  · rename_i m rest hcode
    split at h
    · rename_i hfree
      exact Or.inl ⟨m, rest, hcode, hfree, (Option.some.inj h).symm⟩
    · cases h
  · rename_i m rest hcode
    exact Or.inr (Or.inl ⟨m, rest, hcode, (Option.some.inj h).symm⟩)
  · rename_i b rest hcode
    obtain ⟨⟨d, e⟩, hexec, rfl⟩ := Option.map_eq_some_iff.1 h
    exact Or.inr (Or.inr ⟨b, rest, d, e, hcode, hexec, rfl⟩)

omit [DecidableEq τ] in
/-- A mutex that passes between others leaves what a thread owns. -/
theorem update_owner_iff {owner : μ → Option τ} {m : μ} {o : Option τ} {y : τ} (h : owner m ≠ some y) (ho : o ≠ some y) (k : μ) :
    Function.update owner m o k = some y ↔ owner k = some y := by
  by_cases hk : k = m
  · subst hk
    rw [Function.update_self]
    exact iff_of_false ho h
  · rw [Function.update_of_ne hk]

namespace Disciplined

variable {s t : LockState τ μ β σ} {x : τ}

omit [DecidableEq τ] in
/-- A thread goes on as before when others take a step that leaves what it owns. -/
theorem other (h : Disciplined rank guard expands s) {y : τ} (howner : ∀ k, t.owner k = some y ↔ s.owner k = some y)
    (hcode : t.code y = s.code y) :
    ∃ held, held.Nodup ∧ (∀ m, m ∈ held ↔ t.owner m = some y) ∧ Ordered rank guard expands held (t.code y) := by
  obtain ⟨held, hnodup, hheld, hord⟩ := h y
  exact ⟨held, hnodup, fun m => (hheld m).trans (howner m).symm, hcode ▸ hord⟩

/-- A thread with nothing to do owns nothing, and may begin with ordered code. -/
theorem call (h : Disciplined rank guard expands s) (hcode : s.code x = []) {code : List (Instr μ β)}
    (hord : Ordered rank guard expands [] code) :
    Disciplined rank guard expands { s with code := Function.update s.code x code } := by
  intro y
  by_cases hy : y = x
  · subst hy
    obtain ⟨held, hnodup, hheld, hold⟩ := h y
    rw [hcode] at hold
    cases hold
    refine ⟨[], hnodup, hheld, ?_⟩
    simpa using hord
  · exact h.other (fun _ => Iff.rfl) (Function.update_of_ne hy ..)

/-- A free mutex is locked. -/
theorem lock (h : Disciplined rank guard expands s) {m : μ} {rest : List (Instr μ β)} (hcode : s.code x = .lock m :: rest)
    (hfree : s.owner m = none) :
    Disciplined rank guard expands
      { s with owner := Function.update s.owner m (some x), code := Function.update s.code x rest } := by
  intro y
  by_cases hy : y = x
  · subst hy
    obtain ⟨held, hnodup, hheld, hord⟩ := h y
    rw [hcode] at hord
    cases hord with
    | lock above hnext =>
      refine ⟨m :: held, List.nodup_cons.2 ⟨?_, hnodup⟩, ?_, by simpa using hnext⟩
      · rw [hheld, hfree]
        nofun
      · intro k
        by_cases hk : k = m <;> simp [hk, hheld]
  · refine h.other (update_owner_iff (by rw [hfree]; nofun) ?_) (Function.update_of_ne hy ..)
    exact fun hxy => hy (Option.some.inj hxy).symm

/-- The thread that owns a mutex unlocks it. -/
theorem unlock (h : Disciplined rank guard expands s) {m : μ} {rest : List (Instr μ β)}
    (hcode : s.code x = .unlock m :: rest) :
    Disciplined rank guard expands
      { s with owner := Function.update s.owner m none, code := Function.update s.code x rest } := by
  have howner := h.owns_unlock hcode
  intro y
  by_cases hy : y = x
  · subst hy
    obtain ⟨held, hnodup, hheld, hord⟩ := h y
    rw [hcode] at hord
    cases hord with
    | unlock mem hnext =>
      refine ⟨held.erase m, hnodup.erase m, ?_, by simpa using hnext⟩
      intro k
      rw [hnodup.mem_erase_iff]
      by_cases hk : k = m <;> simp [hk, hheld]
  · refine h.other (update_owner_iff ?_ nofun) (Function.update_of_ne hy ..)
    exact fun hm => hy (Option.some.inj (hm.symm.trans howner))

/-- An instruction is executed and expands as foreseen. -/
theorem body (h : Disciplined rank guard expands s) {b : β} {rest e : List (Instr μ β)} {d : σ}
    (hcode : s.code x = .body b :: rest) (he : expands b e) :
    Disciplined rank guard expands { s with data := d, code := Function.update s.code x (e ++ rest) } := by
  intro y
  by_cases hy : y = x
  · subst hy
    obtain ⟨held, hnodup, hheld, hord⟩ := h y
    rw [hcode] at hord
    cases hord with
    | body _ hnext => exact ⟨held, hnodup, hheld, by simpa using hnext e he⟩
  · exact h.other (fun _ => Iff.rfl) (Function.update_of_ne hy ..)

/-- A step keeps the discipline, if the operations are ordered and what an instruction expands to is foreseen. -/
theorem step {P : LockProgram τ μ β σ ω γ} (h : Disciplined rank guard expands s)
    (hprogram : ∀ op, Ordered rank guard expands [] (P.program op)) {l : LockStep τ ω γ}
    (hexpands : ∀ x choice b rest d e, l = .next x choice → s.code x = .body b :: rest →
      P.exec s.data x b choice = some (d, e) → expands b e)
    (hstep : P.step s l = some t) : Disciplined rank guard expands t := by
  cases l with
  | call x op =>
    obtain ⟨hcode, rfl⟩ := LockProgram.step_call hstep
    exact h.call hcode (hprogram op)
  | next x choice =>
    obtain ⟨m, rest, hcode, hfree, rfl⟩ | ⟨m, rest, hcode, rfl⟩ | ⟨b, rest, d, e, hcode, hexec, rfl⟩ :=
      LockProgram.step_next hstep
    · exact h.lock hcode hfree
    · exact h.unlock hcode
    · exact h.body hcode (hexpands x choice b rest d e rfl hcode hexec)

end Disciplined

end

end ProjectYJ
