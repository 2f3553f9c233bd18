import ProjectYJ.Lib.Deadlock
import ProjectYJ.Theorems.LockDiscipline

/-!
# When the server locks itself up

Nothing is provided for here: `Pop` may find the pool empty, and `CloseService` may come to its loop with sessions. Still every thread
unlocks what it owns and does under a mutex what the mutex guards (`guarded_in_every_run`). To lock a mutex twice, which `std::mutex`
leaves undefined, is to wait for oneself. Where threads wait for one another in a cycle, one of them waits for itself, or is
`CloseService` at the mutex of a session (`cycle_passes_through`); a thread that waits for itself does so for good
(`self_wait_is_final`); and `CloseService` with a session in its loop never returns (`closeService_never_returns`).
-/

namespace ProjectYJ

open Mutex Relation

/-- The mutex under which something is done, also what only the loop of `CloseService` does. -/
def ServerBody.under : ServerBody → Option Mutex
  | .resetSession _ => some service
  | b => b.guard

/-- Which mutex is locked under which: in the order of `lockRank`, and that of a session in the loop of `CloseService`. -/
def LocksUnder (m' m : Mutex) : Prop := lockRank m' < lockRank m ∨ (m' = service ∧ ∃ a, m = session a)

/-- The mutexes that are locked under themselves: in `Pop`, and in `CloseSession` in the loop of `CloseService`. -/
def LockedAgain (m : Mutex) : Prop := m = pool ∨ m = service

/-- The instructions that lock nothing themselves. -/
def ServerBody.locksNothing : ServerBody → Bool
  | .popTop | .closeSocket _ | .closeSessions | .clearSessions => false
  | _ => true

/-- What an instruction may go on with. -/
def MayExpand (b : ServerBody) (e : List (Instr Mutex ServerBody)) : Prop := ∃ d t dropped d', execBody d t b dropped = some (d', e)

/-- The brackets of the server's code. -/
abbrev ServerBracketed : List Mutex → List (Instr Mutex ServerBody) → Prop :=
  Bracketed LocksUnder LockedAgain ServerBody.under MayExpand

/-- The data that a mutex guards is the same. -/
def SameUnder : Mutex → ServerData → ServerData → Prop
  | .pool, d, d' => d'.pool = d.pool ∧ d'.created = d.created
  | .service, d, d' => d'.sessions = d.sessions
  | .session _, _, _ => True
  | .manager, d, d' => d'.manager = d.manager
  | .packetBuffer, d, d' => d'.sessionBuffers = d.sessionBuffers

/-! ## The operations are bracketed -/

section

variable {held : List Mutex} {rest : List (Instr Mutex ServerBody)}

/-- An instruction that locks nothing goes on with nothing. -/
theorem eq_nil_of_mayExpand {b : ServerBody} {e : List (Instr Mutex ServerBody)} (h : MayExpand b e)
    (hquiet : b.locksNothing = true) : e = [] := by
  obtain ⟨d, t, dropped, d', hexec⟩ := h
  cases b with
  | popTop | clearSessions | closeSessions | closeSocket => cases hquiet
  | addManaged a =>
    simp only [execBody] at hexec
    split at hexec <;> cases hexec <;> rfl
  | _ =>
    cases hexec
    rfl

/-- A critical section of an instruction that locks nothing, under mutexes of lower rank. -/
theorem bracketed_guarding {m : Mutex} {b : ServerBody} (hrank : ∀ m' ∈ held, lockRank m' < lockRank m) (hunder : b.under = some m)
    (hquiet : b.locksNothing = true) (next : ServerBracketed held rest) :
    ServerBracketed held (m.guarding b ++ rest) := by
  refine Bracketed.critical ?_ (fun m' hm' => Or.inl (hrank m' hm')) ?_ (fun e he => eq_nil_of_mayExpand he hquiet) next
  · exact fun hmem => Nat.lt_irrefl _ (hrank m hmem)
  · exact fun k hk => (Option.some.inj (hunder.symm.trans hk)).symm

theorem bracketed_removeSession (a : Nat) (hrank : ∀ m ∈ held, lockRank m < 2) (next : ServerBracketed held rest) :
    ServerBracketed held (removeSessionCode a ++ rest) :=
  bracketed_guarding hrank rfl rfl next

theorem bracketed_push (a : Nat) (hrank : ∀ m ∈ held, lockRank m < 2) (next : ServerBracketed held rest) :
    ServerBracketed held (pushCode a ++ rest) :=
  bracketed_guarding hrank rfl rfl next

/-- The deleters that run under the mutex of the service. -/
theorem bracketed_pushes (dropped : List Nat) (hrank : ∀ m ∈ held, lockRank m < 2) (next : ServerBracketed held rest) :
    ServerBracketed held (dropped.flatMap pushCode ++ rest) := by
  induction dropped with
  | nil => exact next
  | cons a dropped ih =>
    rw [List.flatMap_cons, List.append_assoc]
    exact bracketed_push a hrank ih

/-- `CloseSession`, by itself or in the loop of `CloseService`, where it takes the mutex of the service again. -/
theorem bracketed_closeSession (a : Nat) (hheld : held = [] ∨ held = [service]) (next : ServerBracketed held rest) :
    ServerBracketed held (closeSessionCode a ++ rest) := by
  have hnot : session a ∉ held := by
    rcases hheld with rfl | rfl <;> simp
  have hunlock : ServerBracketed (session a :: held) (.unlock (session a) :: rest) := by
    refine .unlock List.mem_cons_self ?_
    rwa [List.erase_cons_head]
  have hrank : ∀ m ∈ session a :: held, lockRank m < 2 := by
    rcases hheld with rfl | rfl <;> simp [lockRank]
  refine .lock hnot ?_ (.body ?_ ?_)
  · rcases hheld with rfl | rfl
    · simp
    · intro m hm
      exact Or.inr ⟨List.mem_singleton.1 hm, a, rfl⟩
  · rintro m ⟨⟩
    exact List.mem_cons_self
  · rintro e ⟨d, t, dropped, d', hexec⟩
    cases hexec
    by_cases hsocket : d.socket a = true
    · rw [if_pos hsocket, List.append_assoc]
      refine bracketed_removeSession a hrank ?_
      rcases hheld with rfl | rfl
      · refine bracketed_guarding ?_ rfl rfl hunlock
        simp [lockRank]
      · exact .relock (by simp) (Or.inr rfl)
    · rw [if_neg hsocket]
      exact hunlock

/-- The loop of `CloseService`, for any sessions. -/
theorem bracketed_loop (sessions : List Nat) (next : ServerBracketed [service] rest) :
    ServerBracketed [service] (sessions.flatMap (fun a => disconnectCode a ++ [.body (.resetSession a)]) ++ rest) := by
  induction sessions with
  | nil => exact next
  | cons a sessions ih =>
    have hreset : ServerBracketed [service] (.body (.resetSession a) ::
        (sessions.flatMap (fun a => disconnectCode a ++ [.body (.resetSession a)]) ++ rest)) := by
      refine .body ?_ ?_
      · rintro m ⟨⟩
        exact List.mem_cons_self
      · intro e he
        rw [eq_nil_of_mayExpand he rfl]
        exact ih
    simp only [List.flatMap_cons, disconnectCode, List.append_assoc]
    exact bracketed_removeSession a (by simp [lockRank]) (bracketed_closeSession a (Or.inr rfl) hreset)

theorem bracketed_closeService : ServerBracketed [] (serverCode .closeService) := by
  have hservice : ∀ {b : ServerBody}, b.under = some service → ∀ m, b.under = some m → m ∈ [service] := by
    intro b hb m hm
    rw [hb] at hm
    exact Option.some.inj hm ▸ List.mem_cons_self
  have hend : ServerBracketed [service] [.unlock service] := .unlock List.mem_cons_self .nil
  refine .lock (by simp) (by simp) (.body (hservice rfl) ?_)
  rintro e ⟨d, t, dropped, d', hexec⟩
  cases hexec
  refine bracketed_loop d.sessions (.body (hservice rfl) ?_)
  rintro e ⟨d, t, dropped, d', hexec⟩
  obtain ⟨-, ⟨⟩⟩ := Option.ite_none_right_eq_some.1 hexec
  refine bracketed_pushes dropped (by simp [lockRank]) (.body (hservice rfl) ?_)
  intro e he
  rw [eq_nil_of_mayExpand he rfl]
  exact hend

/-- `Pop`, which takes the mutex of the pool again when the pool is empty. -/
theorem bracketed_pop (next : ServerBracketed [] rest) : ServerBracketed [] (pool.guarding .popTop ++ rest) := by
  refine .lock (by simp) (by simp) (.body ?_ ?_)
  · rintro m ⟨⟩
    exact List.mem_cons_self
  · rintro e ⟨d, t, dropped, d', hexec⟩
    simp only [execBody] at hexec
    split at hexec
    · cases hexec
      exact .unlock List.mem_cons_self next
    · cases hexec
      exact .relock List.mem_cons_self (Or.inl rfl)

/-- What is done under no mutex and locks nothing. -/
theorem bracketed_free {b : ServerBody} (hunder : b.under = none) (hquiet : b.locksNothing = true)
    (next : ServerBracketed [] rest) : ServerBracketed [] (.body b :: rest) := by
  refine .body ?_ ?_
  · intro m hm
    rw [hunder] at hm
    cases hm
  · intro e he
    rw [eq_nil_of_mayExpand he hquiet]
    exact next

theorem bracketed_createSession : ServerBracketed [] (serverCode .createSession) := by
  refine bracketed_pop (bracketed_free rfl rfl ?_)
  exact bracketed_guarding (by simp) rfl rfl (bracketed_free rfl rfl .nil)

end

/-- Every operation has its brackets. -/
theorem bracketed_serverCode (op : ServerOp) : ServerBracketed [] (serverCode op) := by
  cases op with
  | createSession => exact bracketed_createSession
  | closeSession a => simpa [serverCode] using bracketed_closeSession a (Or.inl rfl) Bracketed.nil
  | closeService => exact bracketed_closeService
  | push | addSession | releaseSession | managerAdd | managerRemove | managerGet | addData | processSessionBuffer =>
    exact bracketed_guarding (by simp) rfl rfl .nil

/-! ## Every run -/

section

variable {count : Nat} {ls ms : List (LockStep Nat ServerOp (List Nat))} {s t : LockState Nat Mutex ServerBody ServerData}

theorem mayExpand_of_exec (d : ServerData) (x : Nat) (b : ServerBody) (choice : List Nat) (d' : ServerData)
    (e : List (Instr Mutex ServerBody)) (h : serverProgram.exec d x b choice = some (d', e)) : MayExpand b e :=
  ⟨d, x, choice, d', h⟩

/-- In every run every thread owns what its code needs. -/
theorem lockSystem_owning (h : (lockSystem count).run (lockSystem count).init ls = some s) :
    Owning LocksUnder LockedAgain ServerBody.under MayExpand s := by
  refine (lockSystem count).run_invariant (fun r l r' hr hstep => ?_) ?_ h
  · exact hr.step bracketed_serverCode mayExpand_of_exec hstep
  · exact fun x => ⟨[], List.nodup_nil, fun _ => by simp [lockSystem], .nil⟩

theorem sameUnder_refl (m : Mutex) (d : ServerData) : SameUnder m d d := by
  cases m <;> simp [SameUnder]

theorem sameUnder_trans (m : Mutex) (d d' d'' : ServerData) (h : SameUnder m d d') (h' : SameUnder m d' d'') :
    SameUnder m d d'' := by
  cases m <;> simp_all [SameUnder]

/-- What is not done under a mutex leaves alone what the mutex guards. -/
theorem sameUnder_of_exec (m : Mutex) (d : ServerData) (x : Nat) (b : ServerBody) (choice : List Nat) (d' : ServerData)
    (e : List (Instr Mutex ServerBody)) (hb : b.under ≠ some m) (h : serverProgram.exec d x b choice = some (d', e)) :
    SameUnder m d d' := by
  replace h : execBody d x b choice = some (d', e) := h
  cases b with
  | popTop | addManaged =>
    simp only [execBody] at h
    split at h <;> cases h <;> cases m <;> simp_all [SameUnder, ServerBody.under, ServerBody.guard]
  | clearSessions =>
    obtain ⟨-, ⟨⟩⟩ := Option.ite_none_right_eq_some.1 h
    cases m <;> simp_all [SameUnder, ServerBody.under, ServerBody.guard]
  | _ =>
    cases h
    cases m <;> simp_all [SameUnder, ServerBody.under, ServerBody.guard]

/-- For every run of the operations on any number of threads: what a mutex guards is done by the thread that owns the mutex, and by no
other; a thread unlocks only what it owns; and a thread whose operation has returned owns nothing. -/
theorem guarded_in_every_run (h : (lockSystem count).run (lockSystem count).init ls = some s) :
    (∀ x b rest m, s.code x = .body b :: rest → b.under = some m → ∀ y, s.owner m = some y ↔ y = x) ∧
      (∀ x m rest, s.code x = .unlock m :: rest → s.owner m = some x) ∧
      ∀ x, s.code x = [] → ∀ m, s.owner m ≠ some x := by
  have howning := lockSystem_owning h
  refine ⟨fun x b rest m hcode hunder y => ?_, fun x m rest => howning.owns_unlock, fun x => howning.owns_nothing⟩
  rw [howning.owns hcode hunder, Option.some.injEq]
  exact eq_comm

/-- One thread has taken a session from the pool and owns its mutex, another has begun to close the service. -/
def popAndClose : List (LockStep Nat ServerOp (List Nat)) := runOp 0 .createSession 2 ++ runOp 1 .closeService 1

theorem guarded_in_every_run_popAndClose : ∃ s, (lockSystem 1).run (lockSystem 1).init popAndClose = some s ∧
    (s.owner pool = some 0 ∧ s.owner service = some 1) ∧
      (∀ x b rest m, s.code x = .body b :: rest → b.under = some m → ∀ y, s.owner m = some y ↔ y = x) ∧
      (∀ x m rest, s.code x = .unlock m :: rest → s.owner m = some x) ∧
      ∀ x, s.code x = [] → ∀ m, s.owner m ≠ some x := by
  obtain ⟨s, hs, howner⟩ := Option.map_eq_some_iff.1
    (show ((lockSystem 1).run (lockSystem 1).init popAndClose).map (fun s => (s.owner pool, s.owner service)) = some (some 0, some 1) by
      decide)
  exact ⟨s, hs, Prod.mk.inj howner, guarded_in_every_run hs⟩

/-- For every run: on every cycle of threads that wait for one another there is a thread that waits for itself, at the mutex of the pool
or of the service, or one that owns the mutex of the service and wants that of a session. -/
theorem cycle_passes_through (h : (lockSystem count).run (lockSystem count).init ls = some s) {x : Nat}
    (hcycle : TransGen (WaitsFor s.owner s.wants) x x) :
    ∃ y m, TransGen (WaitsFor s.owner s.wants) x y ∧ TransGen (WaitsFor s.owner s.wants) y x ∧ s.wants y = some m ∧
      (((m = pool ∨ m = service) ∧ s.owner m = some y) ∨ ((∃ a, m = session a) ∧ s.owner service = some y)) := by
  obtain ⟨y, m, hxy, hyx, hwants, hcase⟩ := (lockSystem_owning h).cycle lockRank hcycle
  refine ⟨y, m, hxy, hyx, hwants, ?_⟩
  rcases hcase with hagain | ⟨m', howner, hunder, hrank⟩
  · exact Or.inl hagain
  · rcases hunder with hlt | ⟨rfl, hsession⟩
    · exact absurd hlt hrank
    · exact Or.inr ⟨hsession, howner⟩

/-- A session is closed by one thread while another closes the service: each has the mutex that the other wants. -/
def crossedClose : List (LockStep Nat ServerOp (List Nat)) :=
  runOp 0 .createSession 8 ++ runOp 0 (.closeSession 0) 5 ++ runOp 1 .closeService 5

theorem cycle_passes_through_crossedClose : ∃ s,
    (lockSystem 1).run (lockSystem 1).init crossedClose = some s ∧ TransGen (WaitsFor s.owner s.wants) 0 0 ∧
    ∃ y m, TransGen (WaitsFor s.owner s.wants) 0 y ∧ TransGen (WaitsFor s.owner s.wants) y 0 ∧ s.wants y = some m ∧
      (((m = pool ∨ m = service) ∧ s.owner m = some y) ∨ ((∃ a, m = session a) ∧ s.owner service = some y)) := by
  obtain ⟨s, hs, hf⟩ := Option.map_eq_some_iff.1
    (show ((lockSystem 1).run (lockSystem 1).init crossedClose).map (fun s => (s.wants 0, s.owner service, s.wants 1,
      s.owner (session 0))) = some (some service, some 1, some (session 0), some 0) by decide)
  simp only [Prod.mk.injEq] at hf
  obtain ⟨hwants, howner, hwants', howner'⟩ := hf
  have hcycle : TransGen (WaitsFor s.owner s.wants) 0 0 := .tail (.single ⟨service, hwants, howner⟩) ⟨session 0, hwants', howner'⟩
  exact ⟨s, hs, hcycle, cycle_passes_through hs hcycle⟩

/-- For every run to a state in which a thread wants a mutex that it owns, and every run that follows: the thread is where it was, it
owns what it owned, and what its mutexes guard is as it was. -/
theorem self_wait_is_final (h : (lockSystem count).run (lockSystem count).init ls = some s) {x : Nat} {m : Mutex}
    (hwants : s.wants x = some m) (howner : s.owner m = some x) (ht : (lockSystem count).run s ms = some t) :
    t.code x = s.code x ∧ ∀ k, s.owner k = some x → t.owner k = some x ∧ SameUnder k s.data t.data :=
  (lockSystem_owning h).selfWaits_run bracketed_serverCode mayExpand_of_exec sameUnder_refl sameUnder_trans sameUnder_of_exec
    hwants howner ht

/-- A thread finds the pool empty; what follows is another thread that gives a session back to the pool, as far as it comes. -/
theorem self_wait_is_final_emptyPool : ∃ s t,
    (lockSystem 0).run (lockSystem 0).init (runOp 0 .createSession 2) = some s ∧ s.wants 0 = some pool ∧ s.owner pool = some 0 ∧
    (lockSystem 0).run s (runOp 1 (.push 3) 0) = some t ∧
    t.code 0 = s.code 0 ∧ ∀ k, s.owner k = some 0 → t.owner k = some 0 ∧ SameUnder k s.data t.data := by
  obtain ⟨s, hs, hf⟩ := Option.map_eq_some_iff.1
    (show ((lockSystem 0).run (lockSystem 0).init (runOp 0 .createSession 2)).map (fun s => (s.wants 0, s.owner pool)) =
      some (some pool, some 0) by decide)
  obtain ⟨hwants, howner⟩ := Prod.mk.injEq .. ▸ hf
  obtain ⟨t, ht⟩ := Option.isSome_iff_exists.1
    (show ((lockSystem 0).run (lockSystem 0).init (runOp 0 .createSession 2 ++ runOp 1 (.push 3) 0)).isSome = true by decide)
  rw [Lts.run_append_of hs] at ht
  exact ⟨s, t, hs, hwants, howner, ht, self_wait_is_final hs hwants howner ht⟩

/-! ## `CloseService` with sessions -/

/-- Code of `CloseService` that comes to a lock of the mutex of the service, at the session `a`, if it has a socket, at the latest. -/
inductive Doomed (a : Nat) : List (Instr Mutex ServerBody) → Prop where
  | loop {rest} : Doomed a (.body .closeSessions :: rest)
  | relock {rest} : Doomed a (.lock service :: rest)
  | close {rest} : Doomed a (.body (.closeSocket a) :: rest)
  | lock {m rest} (next : Doomed a rest) : Doomed a (.lock m :: rest)
  | unlock {m rest} (hm : m ≠ service) (next : Doomed a rest) : Doomed a (.unlock m :: rest)
  | remove {b rest} (next : Doomed a rest) : Doomed a (.body (.removeManaged b) :: rest)
  | closeOther {b rest} (next : Doomed a rest) : Doomed a (.body (.closeSocket b) :: rest)
  | reset {b rest} (hb : b ≠ a) (next : Doomed a rest) : Doomed a (.body (.resetSession b) :: rest)

namespace Doomed

variable {a : Nat} {rest : List (Instr Mutex ServerBody)}

theorem ne_nil {code : List (Instr Mutex ServerBody)} (h : Doomed a code) : code ≠ [] := by
  cases h <;> exact List.cons_ne_nil _ _

theorem removeSession (b : Nat) (next : Doomed a rest) : Doomed a (removeSessionCode b ++ rest) :=
  .lock (.remove (.unlock (by simp) next))

/-- Where `CloseSession` finds a socket. -/
theorem releases (b : Nat) : Doomed a ((removeSessionCode b ++ releaseSessionCode b) ++ rest) := by
  rw [List.append_assoc]
  exact removeSession b .relock

/-- The loop, when the session is in it. -/
theorem of_mem {sessions : List Nat} (h : a ∈ sessions) :
    Doomed a (sessions.flatMap (fun b => disconnectCode b ++ [.body (.resetSession b)]) ++ rest) := by
  induction sessions with
  | nil => cases h
  | cons b sessions ih =>
    simp only [List.flatMap_cons, disconnectCode, List.append_assoc]
    refine removeSession b (.lock ?_)
    by_cases hb : b = a
    · subst hb
      exact .close
    · have hmem : a ∈ sessions := (List.mem_cons.1 h).resolve_left (Ne.symm hb)
      exact .closeOther (.unlock (by simp) (.reset hb (ih hmem)))

end Doomed

/-- What holds of a thread in `CloseService` once it has begun its loop with the session `a`, which has a socket. -/
structure ClosesForGood (x a : Nat) (found : List Nat) (s : LockState Nat Mutex ServerBody ServerData) : Prop where
  owner : s.owner service = some x
  sessions : s.data.sessions = found
  mem : a ∈ found
  socket : s.data.socket a = true
  code : Doomed a (s.code x)

/-- A socket that is there goes only when the loop of `CloseService` resets its session. -/
theorem socket_of_exec {d d' : ServerData} {x a : Nat} {b : ServerBody} {choice : List Nat} {e : List (Instr Mutex ServerBody)}
    (hb : b ≠ .resetSession a) (h : execBody d x b choice = some (d', e)) (hsocket : d.socket a = true) : d'.socket a = true := by
  cases b with
  | popTop | addManaged =>
    simp only [execBody] at h
    split at h <;> cases h <;> exact hsocket
  | clearSessions =>
    obtain ⟨-, ⟨⟩⟩ := Option.ite_none_right_eq_some.1 h
    exact hsocket
  | initSession =>
    cases h
    by_cases ha : a = d.current x <;> simp [Function.update, ha, hsocket]
  | resetSession b =>
    cases h
    have hne : a ≠ b := fun hab => hb (hab ▸ rfl)
    simp [Function.update, hne, hsocket]
  | _ =>
    cases h
    exact hsocket

namespace ClosesForGood

variable {x a : Nat} {sessions : List Nat}

/-- A step of another thread. -/
theorem other (h : ClosesForGood x a sessions s) (howning : Owning LocksUnder LockedAgain ServerBody.under MayExpand s)
    {l : LockStep Nat ServerOp (List Nat)} (hstep : serverProgram.step s l = some t) (hl : ∀ choice, l ≠ .next x choice) :
    ClosesForGood x a sessions t where
  owner := howning.keeps_owner hstep hl h.owner
  sessions := (howning.keeps_data sameUnder_refl sameUnder_of_exec hstep hl h.owner).trans h.sessions
  mem := h.mem
  socket := by
    cases l with
    | call y op =>
      obtain ⟨-, rfl⟩ := LockProgram.step_call hstep
      exact h.socket
    | next y choice =>
      have hy : x ≠ y := fun hxy => hl choice (hxy ▸ rfl)
      obtain ⟨k, rest, -, -, rfl⟩ | ⟨k, rest, -, rfl⟩ | ⟨b, rest, d, e, hcode, hexec, rfl⟩ := LockProgram.step_next hstep
      · exact h.socket
      · exact h.socket
      · refine socket_of_exec ?_ hexec h.socket
        -- another thread would own the mutex of the service
        rintro rfl
        exact hy (Option.some.inj (h.owner.symm.trans (howning.owns hcode rfl)))
  code := by
    rw [Owning.keeps_code hstep hl h.code.ne_nil]
    exact h.code

/-- A step of the thread itself. -/
theorem own (h : ClosesForGood x a sessions s) {choice : List Nat} (hstep : serverProgram.step s (.next x choice) = some t) :
    ClosesForGood x a sessions t := by
  have hdoomed := h.code
  obtain ⟨m, rest, hcode, hfree, rfl⟩ | ⟨m, rest, hcode, rfl⟩ | ⟨b, rest, d, e, hcode, hexec, rfl⟩ :=
    LockProgram.step_next hstep
  · have hm : service ≠ m := by
      rintro rfl
      rw [h.owner] at hfree
      cases hfree
    rw [hcode] at hdoomed
    cases hdoomed with
    | relock => exact absurd rfl hm
    | lock next =>
      exact ⟨(Function.update_of_ne hm ..).trans h.owner, h.sessions, h.mem, h.socket, by simpa using next⟩
  · rw [hcode] at hdoomed
    cases hdoomed with
    | unlock hm next =>
      exact ⟨(Function.update_of_ne hm.symm ..).trans h.owner, h.sessions, h.mem, h.socket, by simpa using next⟩
  · replace hexec : execBody s.data x b choice = some (d, e) := hexec
    rw [hcode] at hdoomed
    cases hdoomed with
    | loop =>
      cases hexec
      refine ⟨h.owner, h.sessions, h.mem, h.socket, ?_⟩
      simpa using Doomed.of_mem (h.sessions.symm ▸ h.mem)
    | close =>
      cases hexec
      refine ⟨h.owner, h.sessions, h.mem, h.socket, ?_⟩
      simpa [h.socket] using Doomed.releases a
    | remove next =>
      cases hexec
      exact ⟨h.owner, h.sessions, h.mem, h.socket, by simpa using next⟩
    | @closeOther b _ next =>
      cases hexec
      refine ⟨h.owner, h.sessions, h.mem, h.socket, ?_⟩
      by_cases hb : s.data.socket b = true
      · simpa [hb] using Doomed.releases b
      · simpa [hb] using next
    | reset hb next =>
      have hsocket := socket_of_exec (a := a) (fun h => hb (ServerBody.resetSession.inj h)) hexec h.socket
      cases hexec
      exact ⟨h.owner, h.sessions, h.mem, hsocket, by simpa using next⟩

end ClosesForGood

/-- For every run to a state in which `CloseService` begins its loop with a session that has a socket, and every run that follows: it
has not returned, it owns the mutex of the service, and `m_Sessions` is as it was. -/
theorem closeService_never_returns (h : (lockSystem count).run (lockSystem count).init ls = some s) {x a : Nat}
    {rest : List (Instr Mutex ServerBody)} (hcode : s.code x = .body .closeSessions :: rest) (ha : a ∈ s.data.sessions)
    (hsocket : s.data.socket a = true) (ht : (lockSystem count).run s ms = some t) :
    t.code x ≠ [] ∧ t.owner service = some x ∧ t.data.sessions = s.data.sessions := by
  have howning := lockSystem_owning h
  have hinv := (lockSystem count).run_invariant
    (I := fun r => Owning LocksUnder LockedAgain ServerBody.under MayExpand r ∧ ClosesForGood x a s.data.sessions r) ?_ ?_ ht
  · exact ⟨hinv.2.code.ne_nil, hinv.2.owner, hinv.2.sessions⟩
  · rintro r l r' ⟨hr, hcloses⟩ hstep
    refine ⟨hr.step bracketed_serverCode mayExpand_of_exec hstep, ?_⟩
    by_cases hl : ∃ choice, l = .next x choice
    · obtain ⟨choice, rfl⟩ := hl
      exact hcloses.own hstep
    · exact hcloses.other hr hstep fun choice hchoice => hl ⟨choice, hchoice⟩
  · exact ⟨howning, howning.owns hcode rfl, rfl, ha, hsocket, hcode ▸ Doomed.loop⟩

/-- The service is closed while there is a session, and the next session is made meanwhile, as far as both come. -/
theorem closeService_never_returns_oneSession : ∃ s t,
    (lockSystem 2).run (lockSystem 2).init (runOp 0 .createSession 8 ++ runOp 1 .closeService 1) = some s ∧
    (lockSystem 2).run s (List.replicate 9 (.next 1 []) ++ runOp 0 .createSession 4) = some t ∧
    t.code 1 ≠ [] ∧ t.owner service = some 1 ∧ t.data.sessions = s.data.sessions := by
  obtain ⟨s, hs, hf⟩ := Option.map_eq_some_iff.1
    (show ((lockSystem 2).run (lockSystem 2).init (runOp 0 .createSession 8 ++ runOp 1 .closeService 1)).map
      (fun s => (s.code 1, s.data.sessions, s.data.socket 1)) =
      some ([.body .closeSessions, .body .clearSessions, .body .stop, .unlock service], [1], true) by decide)
  simp only [Prod.mk.injEq] at hf
  obtain ⟨hcode, hsessions, hsocket⟩ := hf
  obtain ⟨t, ht⟩ := Option.isSome_iff_exists.1
    (show ((lockSystem 2).run (lockSystem 2).init ((runOp 0 .createSession 8 ++ runOp 1 .closeService 1) ++
      (List.replicate 9 (.next 1 []) ++ runOp 0 .createSession 4))).isSome = true by decide)
  rw [Lts.run_append_of hs] at ht
  refine ⟨s, t, hs, ht, closeService_never_returns (a := 1) hs hcode ?_ hsocket ht⟩
  rw [hsessions]
  exact List.mem_singleton.2 rfl

end

end ProjectYJ
