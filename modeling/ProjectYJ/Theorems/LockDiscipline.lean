import ProjectYJ.ServerLocks
import Mathlib.Order.Nat

/-!
# The lock discipline of the server

`CloseSession` takes the mutex of the manager and then that of the service under the mutex of its session; nothing else is
nested, except that `Pop` from an empty pool takes the mutex of the pool again for its log line, and that `CloseService`
closes sessions under the mutex of the service. Where these two do not happen the mutexes are taken in the order of
`lockRank`.
-/

namespace ProjectYJ

open Mutex

/-- The order in which the mutexes are taken. -/
def lockRank : Mutex → Nat
  | .session _ => 0
  | .packetBuffer => 0
  | .service => 1
  | .manager => 2
  | .pool => 2

/-- The mutex under which something is done. -/
def ServerBody.guard : ServerBody → Option Mutex
  | .popTop | .newObject | .pushObject _ => some .pool
  | .insertCurrent | .insertSession _ | .eraseSession _ | .closeSessions | .clearSessions | .stop => some .service
  | .closeSocket a => some (.session a)
  | .addManaged _ | .removeManaged _ | .getManaged _ => some .manager
  | .addData _ | .processBuffer _ => some .packetBuffer
  | .initSession | .setSessionUID | .resetSession _ => none

/-- What an instruction may go on with, `Pop` from an empty pool and a loop of `CloseService` over sessions apart. -/
def ServerBody.Expands : ServerBody → List (Instr Mutex ServerBody) → Prop
  | .closeSocket a, e => e = [] ∨ e = removeSessionCode a ++ releaseSessionCode a
  | .clearSessions, e => ∃ dropped : List Nat, e = dropped.flatMap pushCode
  | _, e => e = []

/-- The code is ordered for the server's mutexes. -/
abbrev ServerOrdered : List Mutex → List (Instr Mutex ServerBody) → Prop :=
  Ordered lockRank ServerBody.guard ServerBody.Expands

/-- The steps that are provided for: `Pop` finds a free session, and `CloseService` comes to its loop when there are no
sessions. -/
def Provided (s : LockState Nat Mutex ServerBody ServerData) : LockStep Nat ServerOp (List Nat) → Prop
  | .call _ _ => True
  | .next t _ =>
    ((s.code t).head? = some (.body .popTop) → s.data.pool ≠ []) ∧
      ((s.code t).head? = some (.body .closeSessions) → s.data.sessions = [])

instance (s : LockState Nat Mutex ServerBody ServerData) (l : LockStep Nat ServerOp (List Nat)) : Decidable (Provided s l) :=
  match l with
  | .call _ _ => inferInstanceAs (Decidable True)
  | .next _ _ => inferInstanceAs (Decidable ((_ → _) ∧ (_ → _)))

/-! ## The operations are ordered -/

section

variable {held : List Mutex} {rest : List (Instr Mutex ServerBody)}

theorem ordered_removeSession (a : Nat) (above : ∀ m ∈ held, lockRank m < 2) (next : ServerOrdered held rest) :
    ServerOrdered held (removeSessionCode a ++ rest) :=
  Ordered.critical above (fun _ hk => (Option.some.inj hk).symm) (fun _ he => he) next

theorem ordered_releaseSession (a : Nat) (above : ∀ m ∈ held, lockRank m < 1) (next : ServerOrdered held rest) :
    ServerOrdered held (releaseSessionCode a ++ rest) :=
  Ordered.critical above (fun _ hk => (Option.some.inj hk).symm) (fun _ he => he) next

theorem ordered_push (a : Nat) (above : ∀ m ∈ held, lockRank m < 2) (next : ServerOrdered held rest) :
    ServerOrdered held (pushCode a ++ rest) :=
  Ordered.critical above (fun _ hk => (Option.some.inj hk).symm) (fun _ he => he) next

/-- The deleters that run under the mutex of the service. -/
theorem ordered_pushes (dropped : List Nat) (above : ∀ m ∈ held, lockRank m < 2) (next : ServerOrdered held rest) :
    ServerOrdered held (dropped.flatMap pushCode ++ rest) := by
  induction dropped with
  | nil => exact next
  | cons a dropped ih =>
    rw [List.flatMap_cons, List.append_assoc]
    exact ordered_push a above ih

theorem ordered_closeSession (a : Nat) : ServerOrdered [] (closeSessionCode a) := by
  have habove : ∀ m ∈ [session a], lockRank m < 1 := by
    intro m hm
    rw [List.mem_singleton.1 hm]
    exact Nat.zero_lt_one
  have hunlock : ServerOrdered [session a] [.unlock (session a)] := by
    refine .unlock List.mem_cons_self ?_
    rw [List.erase_cons_head]
    exact .nil
  refine .lock nofun (.body ?_ ?_)
  · intro m hm
    rw [← Option.some.inj hm]
    exact List.mem_cons_self
  · rintro e (rfl | rfl)
    · exact hunlock
    · rw [List.append_assoc]
      exact ordered_removeSession a (fun m hm => Nat.lt_succ_of_lt (habove m hm)) (ordered_releaseSession a habove hunlock)

/-- The end of `CloseService`, from where its sessions are dropped. -/
theorem ordered_clearSessions : ServerOrdered [service] [.body .clearSessions, .body .stop, .unlock service] := by
  have hservice : ∀ {b : ServerBody}, b.guard = some service → ∀ m, b.guard = some m → m ∈ [service] := by
    intro b hb m hm
    rw [hb] at hm
    exact Option.some.inj hm ▸ List.mem_cons_self
  refine .body (hservice rfl) ?_
  rintro e ⟨dropped, rfl⟩
  refine ordered_pushes dropped ?_ (.body (hservice rfl) ?_)
  · intro m hm
    rw [List.mem_singleton.1 hm]
    exact Nat.one_lt_two
  · rintro e rfl
    refine .unlock List.mem_cons_self ?_
    rw [List.erase_cons_head]
    exact .nil

theorem ordered_closeService : ServerOrdered [] (serverCode .closeService) := by
  refine .lock nofun (.body ?_ ?_)
  · intro m hm
    rw [← Option.some.inj hm]
    exact List.mem_cons_self
  · rintro e rfl
    exact ordered_clearSessions

theorem ordered_createSession : ServerOrdered [] (serverCode .createSession) :=
  Ordered.critical nofun (fun _ hk => (Option.some.inj hk).symm) (fun _ he => he)
    (.free rfl (fun _ he => he)
      (Ordered.critical nofun (fun _ hk => (Option.some.inj hk).symm) (fun _ he => he)
        (.free rfl (fun _ he => he) .nil)))

end

/-- Every operation takes its mutexes in order. -/
theorem ordered_serverCode (op : ServerOp) : ServerOrdered [] (serverCode op) := by
  cases op with
  | createSession => exact ordered_createSession
  | closeSession a => exact ordered_closeSession a
  | closeService => exact ordered_closeService
  | push | addSession | releaseSession | managerAdd | managerRemove | managerGet | addData | processSessionBuffer =>
    exact Ordered.critical nofun (fun _ hk => (Option.some.inj hk).symm) (fun _ he => he) .nil

/-- What an instruction goes on with, where it is provided for. -/
theorem execBody_expands {d d' : ServerData} {t : Nat} {b : ServerBody} {dropped : List Nat}
    {e : List (Instr Mutex ServerBody)} (hpop : b = .popTop → d.pool ≠ []) (hclose : b = .closeSessions → d.sessions = [])
    (h : execBody d t b dropped = some (d', e)) : b.Expands e := by
  cases b with
  | popTop =>
    simp only [execBody] at h
    split at h
    · cases h
      rfl
    · rename_i hnil
      exact absurd hnil (hpop rfl)
  | closeSessions =>
    simp only [execBody, hclose rfl] at h
    cases h
    rfl
  | clearSessions =>
    obtain ⟨-, ⟨⟩⟩ := Option.ite_none_right_eq_some.1 h
    exact ⟨dropped, rfl⟩
  | closeSocket a =>
    cases h
    by_cases hs : d.socket a = true
    · exact Or.inr (if_pos hs)
    · exact Or.inl (if_neg hs)
  | addManaged a =>
    simp only [execBody] at h
    split at h <;> cases h <;> rfl
  | _ =>
    cases h
    rfl

/-- What is not done under the mutex of the service leaves `m_Sessions` alone. -/
theorem execBody_sessions {d d' : ServerData} {t : Nat} {b : ServerBody} {dropped : List Nat}
    {e : List (Instr Mutex ServerBody)} (hb : b.guard ≠ some service) (h : execBody d t b dropped = some (d', e)) :
    d'.sessions = d.sessions := by
  cases b with
  | insertCurrent | insertSession | eraseSession | closeSessions | clearSessions | stop => exact absurd rfl hb
  | popTop | addManaged =>
    simp only [execBody] at h
    split at h <;> cases h <;> rfl
  | _ =>
    cases h
    rfl

/-! ## Runs -/

/-- The code of `CloseService` from where its sessions have been dropped: deleters that have yet to run, and the end. -/
def AfterClear (code : List (Instr Mutex ServerBody)) : Prop :=
  ∃ pre, code = pre ++ [.body .stop, .unlock service] ∧
    ∀ i ∈ pre, i = .lock pool ∨ i = .unlock pool ∨ ∃ a, i = .body (.pushObject a)

/-- Where a thread may be in `CloseService`: not in it or at its end, before its loop, behind it, or behind the clear, where
it owns the mutex of the service and there are no sessions. -/
def Closing (s : LockState Nat Mutex ServerBody ServerData) (t : Nat) : Prop :=
  .body .stop ∉ s.code t ∨ s.code t = serverCode .closeService ∨
    s.code t = [.body .closeSessions, .body .clearSessions, .body .stop, .unlock service] ∨
    s.code t = [.body .clearSessions, .body .stop, .unlock service] ∨
    (AfterClear (s.code t) ∧ s.owner service = some t ∧ s.data.sessions = [])

/-- What holds in every state of a run whose steps are provided for. -/
structure LockInv (s : LockState Nat Mutex ServerBody ServerData) : Prop where
  disciplined : Disciplined lockRank ServerBody.guard ServerBody.Expands s
  closing : ∀ t, Closing s t

variable {s s' : LockState Nat Mutex ServerBody ServerData}

/-- A provided step expands as foreseen. -/
theorem expands_of_provided {x : Nat} {choice : List Nat} (hC : Provided s (.next x choice)) {b : ServerBody}
    {rest e : List (Instr Mutex ServerBody)} {d : ServerData} (hcode : s.code x = .body b :: rest)
    (hexec : execBody s.data x b choice = some (d, e)) : b.Expands e := by
  have hhead : (s.code x).head? = some (.body b) := by
    rw [hcode]
    rfl
  refine execBody_expands ?_ ?_ hexec
  · rintro rfl
    exact hC.1 hhead
  · rintro rfl
    exact hC.2 hhead

/-- The first instruction behind the clear, and the code after it. -/
theorem AfterClear.cases {i : Instr Mutex ServerBody} {rest : List (Instr Mutex ServerBody)} (h : AfterClear (i :: rest)) :
    (i = .body .stop ∧ rest = [.unlock service]) ∨
      (AfterClear rest ∧ (i = .lock pool ∨ i = .unlock pool ∨ ∃ a, i = .body (.pushObject a))) := by
  obtain ⟨pre, heq, hpre⟩ := h
  cases pre with
  | nil =>
    obtain ⟨rfl, rfl⟩ := List.cons_eq_cons.1 heq
    exact Or.inl ⟨rfl, rfl⟩
  | cons j pre =>
    obtain ⟨rfl, rfl⟩ := List.cons_eq_cons.1 heq
    exact Or.inr ⟨⟨pre, rfl, fun k hk => hpre k (List.mem_cons_of_mem _ hk)⟩, hpre i List.mem_cons_self⟩

/-- Code that an instruction expands to does not contain the end of `CloseService`. -/
theorem stop_notMem_of_expands {b : ServerBody} {e : List (Instr Mutex ServerBody)} (h : b.Expands e) :
    (.body .stop : Instr Mutex ServerBody) ∉ e := by
  cases b with
  | closeSocket a =>
    rcases h with rfl | rfl <;> simp [removeSessionCode, releaseSessionCode, guarding]
  | clearSessions =>
    obtain ⟨dropped, rfl⟩ := h
    simp [pushCode, guarding]
  | _ =>
    obtain rfl := h
    simp

/-- What other threads do keeps a thread where it is in `CloseService`. -/
theorem Closing.frame {t : Nat} (h : Closing s t) (hcode : s'.code t = s.code t)
    (hkeep : s.owner service = some t → s'.owner service = some t ∧ s'.data.sessions = s.data.sessions) : Closing s' t := by
  unfold Closing at h ⊢
  rw [hcode]
  rcases h with h | h | h | h | ⟨hafter, howner, hsessions⟩
  · exact Or.inl h
  · exact Or.inr (Or.inl h)
  · exact Or.inr (Or.inr (Or.inl h))
  · exact Or.inr (Or.inr (Or.inr (Or.inl h)))
  · obtain ⟨ho, hs⟩ := hkeep howner
    exact Or.inr (Or.inr (Or.inr (Or.inr ⟨hafter, ho, hs.trans hsessions⟩)))

/-- A step of the thread itself that goes on with code behind the clear. -/
theorem Closing.after {t : Nat} (hafter : AfterClear (s.code t)) (howner : s.owner service = some t)
    (hsessions : s.data.sessions = []) : Closing s t :=
  Or.inr (Or.inr (Or.inr (Or.inr ⟨hafter, howner, hsessions⟩)))

namespace LockInv

/-- A thread that calls an operation. -/
theorem call (h : LockInv s) {x : Nat} {op : ServerOp} (hstep : serverProgram.step s (.call x op) = some s') :
    ∀ t, Closing s' t := by
  obtain ⟨-, rfl⟩ := LockProgram.step_call hstep
  intro t
  by_cases ht : t = x
  · subst ht
    cases op with
    | closeService => exact Or.inr (Or.inl (by simp [serverProgram]))
    | _ =>
      refine Or.inl ?_
      simp [serverProgram, serverCode, removeSessionCode, releaseSessionCode, closeSessionCode, pushCode, guarding]
  · exact (h.closing t).frame (Function.update_of_ne ht ..) fun ho => ⟨ho, rfl⟩

/-- A thread that locks a mutex: in `CloseService`, that of the service at its begin or that of the pool behind the clear. -/
theorem lock (h : LockInv s) {x : Nat} {m : Mutex} {rest : List (Instr Mutex ServerBody)}
    (hcode : s.code x = .lock m :: rest) (hfree : s.owner m = none) (t : Nat) :
    Closing { s with owner := Function.update s.owner m (some x), code := Function.update s.code x rest } t := by
  by_cases ht : t = x
  · subst ht
    have hrest : Function.update s.code t rest t = rest := Function.update_self ..
    rcases h.closing t with hc | hc | hc | hc | ⟨hc, howner, hsessions⟩ <;> rw [hcode] at hc
    · refine Or.inl ?_
      simp only [hrest]
      exact fun hmem => hc (List.mem_cons_of_mem _ hmem)
    · refine Or.inr (Or.inr (Or.inl ?_))
      simp only [hrest]
      exact (List.cons_eq_cons.1 hc).2
    · cases hc
    · cases hc
    · rcases hc.cases with ⟨hi, -⟩ | ⟨hafter, hi⟩
      · cases hi
      · have hm : m ≠ service := by
          rintro rfl
          rw [hfree] at howner
          cases howner
        refine Closing.after ?_ ?_ hsessions
        · simpa only [hrest] using hafter
        · exact (Function.update_of_ne hm.symm ..).trans howner
  · refine (h.closing t).frame (Function.update_of_ne ht ..) fun ho => ⟨?_, rfl⟩
    refine (update_owner_iff (by rw [hfree]; nofun) ?_ service).2 ho
    exact fun hxt => ht (Option.some.inj hxt).symm

/-- A thread that unlocks a mutex: in `CloseService`, that of the pool behind the clear. -/
theorem unlock (h : LockInv s) {x : Nat} {m : Mutex} {rest : List (Instr Mutex ServerBody)}
    (hcode : s.code x = .unlock m :: rest) (t : Nat) :
    Closing { s with owner := Function.update s.owner m none, code := Function.update s.code x rest } t := by
  have hown := h.disciplined.owns_unlock hcode
  by_cases ht : t = x
  · subst ht
    have hrest : Function.update s.code t rest t = rest := Function.update_self ..
    rcases h.closing t with hc | hc | hc | hc | ⟨hc, howner, hsessions⟩ <;> rw [hcode] at hc
    · refine Or.inl ?_
      simp only [hrest]
      exact fun hmem => hc (List.mem_cons_of_mem _ hmem)
    · cases hc
    · cases hc
    · cases hc
    · rcases hc.cases with ⟨hi, -⟩ | ⟨hafter, hi⟩
      · cases hi
      · have hm : service ≠ m := by
          rintro rfl
          simp at hi
        refine Closing.after ?_ ?_ hsessions
        · simpa only [hrest] using hafter
        · exact (Function.update_of_ne hm ..).trans howner
  · refine (h.closing t).frame (Function.update_of_ne ht ..) fun ho => ⟨?_, rfl⟩
    refine (update_owner_iff (o := none) ?_ nofun service).2 ho
    exact fun hm => ht (Option.some.inj (hm.symm.trans hown))

/-- A thread that does something between its locks. -/
theorem body (h : LockInv s) {x : Nat} {b : ServerBody} {choice : List Nat} {rest e : List (Instr Mutex ServerBody)}
    {d : ServerData} (hC : Provided s (.next x choice)) (hcode : s.code x = .body b :: rest)
    (hexec : execBody s.data x b choice = some (d, e)) (t : Nat) :
    Closing { s with data := d, code := Function.update s.code x (e ++ rest) } t := by
  have he := expands_of_provided hC hcode hexec
  by_cases ht : t = x
  · subst ht
    have hrest : Function.update s.code t (e ++ rest) t = e ++ rest := Function.update_self ..
    rcases h.closing t with hc | hc | hc | hc | ⟨hc, howner, hsessions⟩ <;> rw [hcode] at hc
    · refine Or.inl ?_
      simp only [hrest, List.mem_append]
      rintro (hmem | hmem)
      · exact stop_notMem_of_expands he hmem
      · exact hc (List.mem_cons_of_mem _ hmem)
    · cases hc
    · obtain ⟨hb, rfl⟩ := List.cons_eq_cons.1 hc
      obtain rfl := Instr.body.inj hb
      obtain rfl : e = [] := he
      refine Or.inr (Or.inr (Or.inr (Or.inl ?_)))
      simp only [hrest]
      rfl
    · obtain ⟨hb, rfl⟩ := List.cons_eq_cons.1 hc
      obtain rfl := Instr.body.inj hb
      have hown := h.disciplined.owns hcode (show ServerBody.guard .clearSessions = some service from rfl)
      obtain ⟨-, ⟨⟩⟩ := Option.ite_none_right_eq_some.1 hexec
      refine Closing.after ?_ hown rfl
      simp only [hrest]
      refine ⟨choice.flatMap pushCode, rfl, ?_⟩
      intro i hi
      obtain ⟨a, -, hi⟩ := List.mem_flatMap.1 hi
      simp only [pushCode, guarding, List.mem_cons, List.not_mem_nil, or_false] at hi
      rcases hi with rfl | rfl | rfl
      · exact Or.inl rfl
      · exact Or.inr (Or.inr ⟨a, rfl⟩)
      · exact Or.inr (Or.inl rfl)
    · rcases hc.cases with ⟨hb, rfl⟩ | ⟨hafter, hi⟩
      · obtain rfl := Instr.body.inj hb
        obtain rfl : e = [] := he
        refine Or.inl ?_
        simp only [hrest]
        simp
      · obtain ⟨a, rfl⟩ : ∃ a, b = .pushObject a := by simpa using hi
        obtain rfl : e = [] := he
        have hsame := execBody_sessions (by simp [ServerBody.guard]) hexec
        refine Closing.after ?_ howner (hsame.trans hsessions)
        simpa only [show Function.update s.code t ([] ++ rest) t = rest from hrest] using hafter
  · refine (h.closing t).frame (Function.update_of_ne ht ..) fun ho => ⟨ho, ?_⟩
    refine execBody_sessions ?_ hexec
    intro hb
    exact ht (Option.some.inj (ho.symm.trans (h.disciplined.owns hcode hb)))

/-- A step that is provided for keeps the discipline. -/
theorem step (h : LockInv s) {l : LockStep Nat ServerOp (List Nat)} (hC : Provided s l)
    (hstep : serverProgram.step s l = some s') : LockInv s' := by
  refine ⟨h.disciplined.step ordered_serverCode ?_ hstep, ?_⟩
  · rintro x choice b rest d e rfl hcode hexec
    exact expands_of_provided hC hcode hexec
  · cases l with
    | call x op => exact h.call hstep
    | next x choice =>
      obtain ⟨m, rest, hcode, hfree, rfl⟩ | ⟨m, rest, hcode, rfl⟩ | ⟨b, rest, d, e, hcode, hexec, rfl⟩ :=
        LockProgram.step_next hstep
      · exact h.lock hcode hfree
      · exact h.unlock hcode
      · exact h.body hC hcode hexec

theorem init (count : Nat) : LockInv (lockSystem count).init where
  disciplined _ := ⟨[], List.nodup_nil, fun _ => by simp [lockSystem], .nil⟩
  closing _ := Or.inl List.not_mem_nil

end LockInv

/-- In every run of the operations on any number of threads in which no `Pop` finds the session pool empty and `CloseService`
comes to its loop only when there are no sessions: no thread locks a mutex it owns, no threads wait for one another in a
cycle, and where `CloseService` ends there are no sessions. -/
theorem lock_discipline (count : Nat) (ls : List (LockStep Nat ServerOp (List Nat)))
    (s : LockState Nat Mutex ServerBody ServerData) (hC : (lockSystem count).Meets Provided (lockSystem count).init ls)
    (hr : (lockSystem count).run (lockSystem count).init ls = some s) :
    (∀ t m, s.wants t = some m → s.owner m ≠ some t) ∧
      (∀ t, ¬Relation.TransGen (WaitsFor s.owner s.wants) t t) ∧
      ∀ t rest, s.code t = .body .stop :: rest → s.data.sessions = [] := by
  have h : LockInv s :=
    (lockSystem count).meets_invariant (fun _ _ _ hC hI hstep => hI.step hC hstep) (LockInv.init count) hC hr
  have hacyclic := h.disciplined.acyclic
  refine ⟨?_, hacyclic, ?_⟩
  · intro t m hw ho
    exact hacyclic t (.single ⟨m, hw, ho⟩)
  · intro t rest hcode
    rcases h.closing t with hc | hc | hc | hc | ⟨-, -, hsessions⟩
    · rw [hcode] at hc
      exact absurd List.mem_cons_self hc
    · rw [hcode] at hc
      cases hc
    · rw [hcode] at hc
      cases hc
    · rw [hcode] at hc
      cases hc
    · exact hsessions

/-- From a state such a run reaches, a `Pop` that finds the pool empty leaves its thread waiting for itself. -/
theorem LockInv.popTop_selfWaits (h : LockInv s) {t : Nat} {rest : List (Instr Mutex ServerBody)} {choice : List Nat}
    (hcode : s.code t = .body .popTop :: rest) (hempty : s.data.pool = [])
    (hstep : serverProgram.step s (.next t choice) = some s') : WaitsFor s'.owner s'.wants t t := by
  have howner := h.disciplined.owns hcode (show ServerBody.guard .popTop = some pool from rfl)
  simp only [LockProgram.step, hcode, serverProgram, execBody, hempty, Option.map_some, Option.some.injEq] at hstep
  subst hstep
  refine ⟨pool, ?_, howner⟩
  simp [LockState.wants]

/-- A thread calls an operation and goes on for `n` instructions. -/
def runOp (t : Nat) (op : ServerOp) (n : Nat) : List (LockStep Nat ServerOp (List Nat)) :=
  .call t op :: List.replicate n (.next t [])

/-- A session is created and closed, and another thread closes the service, up to its end. -/
def closesEmptyService : List (LockStep Nat ServerOp (List Nat)) :=
  runOp 0 .createSession 8 ++ runOp 0 (.closeSession 0) 9 ++ runOp 1 .closeService 3

/-- `lock_discipline` at `closesEmptyService`. -/
theorem lock_discipline_closesEmptyService :
    ∃ s, (lockSystem 1).run (lockSystem 1).init closesEmptyService = some s ∧ s.owner service = some 1 ∧
      s.data.sessions = [] ∧ ¬Relation.TransGen (WaitsFor s.owner s.wants) 1 1 := by
  obtain ⟨s, hs, hf⟩ := Option.map_eq_some_iff.1
    (show ((lockSystem 1).run (lockSystem 1).init closesEmptyService).map (fun s => (s.owner service, s.code 1)) =
      some (some 1, [.body .stop, .unlock service]) by decide)
  obtain ⟨howner, hcode⟩ := Prod.mk.injEq .. ▸ hf
  have h := lock_discipline 1 closesEmptyService s (by decide) hs
  exact ⟨s, hs, howner, h.2.2 1 _ hcode, h.2.1 1⟩

/-- Not every run keeps the discipline: `Pop` from an empty pool locks the mutex of the pool twice, and `CloseService` with a
session in `m_Sessions` that of the service. -/
theorem not_every_lock_disciplined :
    (∃ s, (lockSystem 0).run (lockSystem 0).init (runOp 0 .createSession 2) = some s ∧ s.wants 0 = some pool ∧
      s.owner pool = some 0) ∧
    ∃ s, (lockSystem 1).run (lockSystem 1).init (runOp 0 .createSession 8 ++ runOp 1 .closeService 10) = some s ∧
      s.wants 1 = some service ∧ s.owner service = some 1 ∧ s.data.sessions = [0] := by
  constructor
  · exact ⟨_, rfl, by decide, by decide⟩
  · exact ⟨_, rfl, by decide, by decide, by decide⟩

end ProjectYJ
