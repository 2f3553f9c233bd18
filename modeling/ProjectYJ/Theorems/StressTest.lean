import ProjectYJ.Lib.Threads
import ProjectYJ.StressTest
import Mathlib.Data.List.Perm.Basic

/-!
# Rounds of the stress test

`run` goes up once, when the last session is there, and the first thread that runs the case `Send` takes it down. Threads that have
tested it before that send too, each once: what is sent is one message to every session, from each thread that comes to it
(`stressTest_rounds`). A thread that is still at the condition variable then stays there, and `WinMain` waits for it
(`stressTest_waits_forever`).
-/

namespace ProjectYJ

namespace StressThread

/-- How many sessions a thread has made, or would have if it had not ended. -/
def made (maxSessionCnt : Nat) : StressThread → Nat
  | starting n => n
  | _ => maxSessionCnt

/-- The thread may come to a case of the loop before it tests `run` again. -/
def mayRun : StressThread → Bool
  | atSwitch => true
  | inCase _ => true
  | _ => false

/-- The thread is not in the loop. -/
def idle : StressThread → Bool
  | starting _ => true
  | waiting => true
  | ended => true
  | _ => false

/-- What a thread that is not in the loop may come to while `run` is down: still not the loop, and from the condition variable nothing. -/
def StaysOut (th th' : StressThread) : Prop := th'.idle = true ∧ (th = waiting → th' = waiting)

end StressThread

/-- The states that `m_RunningState` takes. -/
def RunningState.Reached (state : RunningState) : Prop := state ≠ .Disconnect ∧ state ≠ .Reconnect

/-- Threads make no more sessions than they are to, all of which have different UIDs. -/
structure Bounded (T M : Nat) (s : StressTest) : Prop where
  length : s.threads.length = T
  starting : ∀ (t k : Nat), s.threads[t]? = some (StressThread.starting k) → k ≤ M
  made : s.sessions.length + s.connected.length + s.connecting ≤ (s.threads.map (StressThread.made M)).sum
  nodup : (s.sessions ++ s.connected).Nodup
  below : ∀ uid ∈ s.sessions ++ s.connected, uid < s.nextUID
  state : s.runningState.Reached
  inCase : ∀ (t : Nat) (state : RunningState), s.threads[t]? = some (StressThread.inCase state) → state.Reached

/-- Before the last session is there: no thread is in the loop. -/
structure Expecting (T M : Nat) (s : StressTest) : Prop where
  run : s.run = false
  sent : s.sent = []
  idle : ∀ (t : Nat) (th : StressThread), s.threads[t]? = some th → th.idle = true
  sessions : s.sessions.length = T * M → s.sessions = []

/-- When all sessions are there: each of these threads sent a round, and will send no other. -/
structure Full (T M : Nat) (senders : List Nat) (s : StressTest) : Prop where
  sessions : s.sessions.length = T * M
  ne_nil : s.sessions ≠ []
  sent : s.sent = senders.flatMap fun t => s.sessions.map fun uid => (t, uid)
  nodup : senders.Nodup
  once : ∀ t ∈ senders, ∃ th, s.threads[t]? = some th ∧ th.mayRun = false
  run : s.run = true ↔ senders = []

/-- What holds in every state of the stress test. -/
structure StressInv (T M : Nat) (s : StressTest) : Prop where
  bounded : Bounded T M s
  phase : Expecting T M s ∨ ∃ senders, Full T M senders s

section

variable {T M : Nat} {s u : StressTest} {senders : List Nat} {t : Nat} {th th' : StressThread}

/-! ## A thread goes on -/

theorem Bounded.go (h : Bounded T M s) (hth : s.threads[t]? = some th) (c : Nat) (hmade : th.made M + c ≤ th'.made M)
    (hstarting : ∀ k, th' = .starting k → k ≤ M) (hcase : ∀ state, th' = .inCase state → state.Reached) :
    Bounded T M ({ s with connecting := s.connecting + c }.setThread t th') where
  length := by
    rw [StressTest.setThread, List.length_set]
    exact h.length
  starting i k hi :=
    forall_getElem?_set (Q := fun x => ∀ k, x = .starting k → k ≤ M) (l := s.threads)
      (fun i x hx k hk => h.starting i k (hk ▸ hx)) hth hstarting i _ hi k rfl
  made := by
    have hsum := sum_map_set (StressThread.made M) hth th'
    have hold := h.made
    show s.sessions.length + s.connected.length + (s.connecting + c) ≤ ((s.threads.set t th').map (StressThread.made M)).sum
    omega
  nodup := h.nodup
  below := h.below
  state := h.state
  inCase i state hi :=
    forall_getElem?_set (Q := fun x => ∀ state, x = .inCase state → state.Reached) (l := s.threads)
      (fun i x hx state hs => h.inCase i state (hs ▸ hx)) hth hcase i _ hi state rfl

theorem Expecting.go (h : Expecting T M s) (hth : s.threads[t]? = some th) (c : Nat) (hidle : th'.idle = true) :
    Expecting T M ({ s with connecting := s.connecting + c }.setThread t th') where
  run := h.run
  sent := h.sent
  idle := forall_getElem?_set h.idle hth hidle
  sessions := h.sessions

/-- A thread that may run no case goes on to where it may run none. -/
theorem once_set (honce : ∀ t ∈ senders, ∃ th, s.threads[t]? = some th ∧ th.mayRun = false) (hth : s.threads[t]? = some th)
    (hmay : t ∈ senders → th'.mayRun = false) (i : Nat) (hi : i ∈ senders) :
    ∃ x, (s.threads.set t th')[i]? = some x ∧ x.mayRun = false := by
  rw [getElem?_set_of_some hth]
  split
  · rename_i hit
    subst hit
    exact ⟨th', rfl, hmay hi⟩
  · exact honce i hi

theorem Full.go (h : Full T M senders s) (hth : s.threads[t]? = some th) (c : Nat) (hmay : th.mayRun = false → th'.mayRun = false) :
    Full T M senders ({ s with connecting := s.connecting + c }.setThread t th') where
  sessions := h.sessions
  ne_nil := h.ne_nil
  sent := h.sent
  nodup := h.nodup
  once := by
    refine once_set h.once hth fun ht => hmay ?_
    obtain ⟨x, hx, hxmay⟩ := h.once t ht
    obtain rfl := Option.some.inj (hth.symm.trans hx)
    exact hxmay
  run := h.run

/-- The threads make no more sessions than are expected. -/
theorem Bounded.sum_made_le (h : Bounded T M s) : (s.threads.map (StressThread.made M)).sum ≤ T * M := by
  have hle : ∀ l : List StressThread, (∀ x ∈ l, x.made M ≤ M) → (l.map (StressThread.made M)).sum ≤ l.length * M := by
    intro l
    induction l with
    | nil => simp
    | cons x l ih =>
      intro hl
      have hx := hl x List.mem_cons_self
      have hrest := ih fun y hy => hl y (List.mem_cons_of_mem x hy)
      simp only [List.map_cons, List.sum_cons, List.length_cons, Nat.add_one_mul]
      omega
  rw [← h.length]
  refine hle s.threads fun x hx => ?_
  obtain ⟨i, hi⟩ := List.mem_iff_getElem?.1 hx
  cases x with
  | starting k => exact h.starting i k hi
  | _ => exact Nat.le_refl M

/-- When all sessions are there, none is on its way. -/
theorem Bounded.none_left (h : Bounded T M s) (hfull : s.sessions.length = T * M) : s.connected = [] ∧ s.connecting = 0 := by
  have hmade := h.made
  have hle := h.sum_made_le
  exact ⟨List.eq_nil_of_length_eq_zero (by omega), by omega⟩

/-! ## A session is connected -/

/-- The next `SessionUID` is new. -/
theorem Bounded.connects (h : Bounded T M s) (hpos : 0 < s.connecting) :
    Bounded T M { s with connecting := s.connecting - 1, nextUID := s.nextUID + 1, connected := s.connected ++ [s.nextUID] } where
  length := h.length
  starting := h.starting
  made := by
    have hmade := h.made
    simp only [List.length_append, List.length_singleton]
    omega
  nodup := by
    rw [← List.append_assoc, List.nodup_append_comm, List.singleton_append, List.nodup_cons]
    exact ⟨fun hmem => Nat.lt_irrefl _ (h.below _ hmem), h.nodup⟩
  below uid huid := by
    rw [← List.append_assoc] at huid
    rcases List.mem_append.1 huid with huid | huid
    · exact Nat.lt_succ_of_lt (h.below uid huid)
    · rw [List.mem_singleton.1 huid]
      exact Nat.lt_succ_self _
  state := h.state
  inCase := h.inCase

/-- `Init` for a session: there is one session more. -/
theorem clientInit_new {j uid : Nat} (h : Bounded T M s) (hj : s.connected[j]? = some uid) (expected : Nat) :
    ({ s with connected := s.connected.eraseIdx j }.clientInit expected uid).sessions =
      s.sessions.orderedInsert (· ≤ ·) uid := by
  have hnot : uid ∉ s.sessions := fun hmem =>
    (List.nodup_append.1 h.nodup).2.2 uid hmem uid (List.mem_of_getElem? hj) rfl
  simp [StressTest.clientInit, hnot]

theorem Bounded.init {j uid : Nat} (h : Bounded T M s) (hj : s.connected[j]? = some uid) (expected : Nat) :
    Bounded T M ({ s with connected := s.connected.eraseIdx j }.clientInit expected uid) := by
  have hnew := clientInit_new h hj expected
  obtain ⟨hlt, hget⟩ := List.getElem?_eq_some_iff.1 hj
  -- the session passes from the ones that are connected to the ones of the `ClientManager`
  have hperm : (s.sessions.orderedInsert (· ≤ ·) uid ++ s.connected.eraseIdx j).Perm (s.sessions ++ s.connected) := by
    refine ((List.perm_orderedInsert (· ≤ ·) uid s.sessions).append_right _).trans ?_
    rw [List.cons_append]
    refine List.perm_middle.symm.trans (List.Perm.append_left _ ?_)
    rw [← hget]
    exact List.getElem_cons_eraseIdx_perm hlt
  refine ⟨h.length, h.starting, ?_, ?_, ?_, by simp [StressTest.clientInit, RunningState.Reached], h.inCase⟩
  · have hmade := h.made
    have hlen := hperm.length_eq
    simp only [List.length_append] at hlen
    rw [hnew]
    show (s.sessions.orderedInsert (· ≤ ·) uid).length + (s.connected.eraseIdx j).length + s.connecting ≤
      (s.threads.map (StressThread.made M)).sum
    omega
  · rw [hnew]
    exact hperm.nodup_iff.2 h.nodup
  · rw [hnew]
    exact fun u hu => h.below u (hperm.mem_iff.1 hu)

/-- The last session puts `run` up; before it nothing is to be seen. -/
theorem Expecting.init {j uid : Nat} (he : Expecting T M s) (h : Bounded T M s) (hj : s.connected[j]? = some uid) :
    Expecting T M ({ s with connected := s.connected.eraseIdx j }.clientInit (T * M) uid) ∨
      Full T M [] ({ s with connected := s.connected.eraseIdx j }.clientInit (T * M) uid) := by
  have hnew := clientInit_new h hj (T * M)
  have hlen : (s.sessions.orderedInsert (· ≤ ·) uid).length = s.sessions.length + 1 := List.orderedInsert_length ..
  by_cases hfull : s.sessions.length + 1 = T * M
  · refine Or.inr ⟨by rw [hnew, hlen, hfull], ?_, he.sent, List.nodup_nil, nofun, ?_⟩
    · rw [hnew]
      exact List.ne_nil_of_length_eq_add_one hlen
    · have hrun : ({ s with connected := s.connected.eraseIdx j }.clientInit (T * M) uid).run = true := by
        have hlength := congrArg List.length hnew
        simp only [StressTest.clientInit] at hlength ⊢
        rw [if_pos (hlength.trans (hlen.trans hfull))]
      simp [hrun]
  · refine Or.inl ⟨?_, he.sent, he.idle, fun hsessions => ?_⟩
    · have hlength := congrArg List.length hnew
      simp only [StressTest.clientInit] at hlength ⊢
      rw [if_neg fun hc => hfull (hlen.symm.trans (hlength.symm.trans hc))]
      exact he.run
    · rw [hnew, hlen] at hsessions
      exact absurd hsessions hfull

/-! ## A case of the loop -/

/-- The cases that are reached leave the sessions and what is on its way to them. -/
theorem Bounded.dummyClientProcess (h : Bounded T M s) {state : RunningState} (hstate : state.Reached) :
    Bounded T M (s.dummyClientProcess M t state) := by
  cases state with
  | Disconnect => exact absurd rfl hstate.1
  | Reconnect => exact absurd rfl hstate.2
  | Connect => exact ⟨h.length, h.starting, h.made, h.nodup, h.below, ⟨nofun, nofun⟩, h.inCase⟩
  | None | Send | Recv => exact ⟨h.length, h.starting, h.made, h.nodup, h.below, h.state, h.inCase⟩

/-- A thread that has run a case has sent a round, its first, or nothing. -/
theorem Full.runCase (h : Full T M senders s) {state : RunningState} (hstate : state.Reached)
    (hth : s.threads[t]? = some (.inCase state)) :
    ∃ senders', Full T M senders' ((s.dummyClientProcess M t state).setThread t .atWhile) := by
  have honce : ∀ i ∈ senders, ∃ x, (s.threads.set t .atWhile)[i]? = some x ∧ x.mayRun = false := once_set h.once hth fun _ => rfl
  cases state with
  | Disconnect => exact absurd rfl hstate.1
  | Reconnect => exact absurd rfl hstate.2
  | Send =>
    have hnew : t ∉ senders := by
      intro ht
      obtain ⟨x, hx, hmay⟩ := h.once t ht
      obtain rfl := Option.some.inj (hth.symm.trans hx)
      cases hmay
    refine ⟨senders ++ [t], h.sessions, h.ne_nil, ?_, ?_, fun i hi => ?_, ?_⟩
    · show s.sent ++ s.sessions.map (fun uid => (t, uid)) = _
      rw [h.sent, List.flatMap_append, List.flatMap_singleton]
      rfl
    · exact h.nodup.append (List.nodup_singleton t) (List.disjoint_singleton.2 hnew)
    · rcases List.mem_append.1 hi with hi | hi
      · exact honce i hi
      · obtain rfl := List.mem_singleton.1 hi
        refine ⟨.atWhile, ?_, rfl⟩
        exact (getElem?_set_of_some hth _ _).trans (if_pos rfl)
    · simp [StressTest.dummyClientProcess, StressTest.setThread]
  | None | Connect | Recv => exact ⟨senders, h.sessions, h.ne_nil, h.sent, h.nodup, honce, h.run⟩

/-! ## Every run -/

theorem StressInv.init (T M : Nat) : StressInv T M (stressTest T M).init where
  bounded := by
    refine ⟨List.length_replicate, fun t k hk => ?_, Nat.zero_le _, List.nodup_nil, by simp [stressTest],
      by simp [stressTest, RunningState.Reached], fun t state hs => ?_⟩
    · have hfirst : StressThread.starting k = .starting 0 := List.eq_of_mem_replicate (List.mem_of_getElem? hk)
      rw [StressThread.starting.inj hfirst]
      exact Nat.zero_le M
    · have hfirst : StressThread.inCase state = .starting 0 := List.eq_of_mem_replicate (List.mem_of_getElem? hs)
      cases hfirst
  phase := by
    refine Or.inl ⟨rfl, rfl, fun t th hth => ?_, fun _ => rfl⟩
    have hfirst : th = .starting 0 := List.eq_of_mem_replicate (List.mem_of_getElem? hth)
    rw [hfirst]
    rfl

/-- A thread goes on to where it may not come to a case before it tests `run`. -/
theorem StressInv.go (h : StressInv T M s) (hth : s.threads[t]? = some th) (c : Nat) (hmade : th.made M + c ≤ th'.made M)
    (hstarting : ∀ k, th' = .starting k → k ≤ M) (hcase : ∀ state, th' = .inCase state → state.Reached)
    (hidle : th.idle = true → s.run = false → th'.idle = true) (hmay : th.mayRun = false → th'.mayRun = false) :
    StressInv T M ({ s with connecting := s.connecting + c }.setThread t th') where
  bounded := h.bounded.go hth c hmade hstarting hcase
  phase := by
    rcases h.phase with he | ⟨senders, hf⟩
    · exact Or.inl (he.go hth c (hidle (he.idle t th hth) he.run))
    · exact Or.inr ⟨senders, hf.go hth c hmay⟩

/-- A step of the stress test. -/
theorem StressInv.step (h : StressInv T M s) {l : StressStep} (hstep : stressStep T M s l = some u) : StressInv T M u := by
  cases l with
  | create t =>
    simp only [stressStep] at hstep
    split at hstep
    · rename_i k hth
      obtain ⟨hk, ⟨⟩⟩ := Option.ite_none_right_eq_some.1 hstep
      exact h.go hth 1 (Nat.le_refl _) (fun k' hk' => StressThread.starting.inj hk' ▸ hk) nofun (fun _ _ => rfl) (fun _ => rfl)
    · cases hstep
  | throws t =>
    simp only [stressStep] at hstep
    split at hstep
    · rename_i k hth
      obtain ⟨hk, ⟨⟩⟩ := Option.ite_none_right_eq_some.1 hstep
      exact h.go hth 0 (Nat.le_of_lt hk) nofun nofun (fun _ _ => rfl) (fun _ => rfl)
    · cases hstep
  | started t =>
    simp only [stressStep] at hstep
    split at hstep
    · rename_i k hth
      obtain ⟨-, ⟨⟩⟩ := Option.ite_none_left_eq_some.1 hstep
      exact h.go hth 0 (h.bounded.starting t k hth) nofun nofun (fun _ _ => rfl) (fun _ => rfl)
    · cases hstep
  | connects =>
    obtain ⟨hpos, ⟨⟩⟩ := Option.ite_none_right_eq_some.1 hstep
    refine ⟨h.bounded.connects hpos, h.phase.imp (fun he => ⟨he.run, he.sent, he.idle, he.sessions⟩) ?_⟩
    exact fun ⟨senders, hf⟩ => ⟨senders, hf.sessions, hf.ne_nil, hf.sent, hf.nodup, hf.once, hf.run⟩
  | connectFails =>
    obtain ⟨hpos, ⟨⟩⟩ := Option.ite_none_right_eq_some.1 hstep
    have hb := h.bounded
    have hmade := hb.made
    refine ⟨⟨hb.length, hb.starting, ?_, hb.nodup, hb.below, hb.state, hb.inCase⟩,
      h.phase.imp (fun he => ⟨he.run, he.sent, he.idle, he.sessions⟩) ?_⟩
    · show s.sessions.length + s.connected.length + (s.connecting - 1) ≤ (s.threads.map (StressThread.made M)).sum
      omega
    · exact fun ⟨senders, hf⟩ => ⟨senders, hf.sessions, hf.ne_nil, hf.sent, hf.nodup, hf.once, hf.run⟩
  | init j =>
    obtain ⟨uid, hj, rfl⟩ := Option.map_eq_some_iff.1 hstep
    refine ⟨h.bounded.init hj _, ?_⟩
    rcases h.phase with he | ⟨senders, hf⟩
    · exact (he.init h.bounded hj).imp id fun hfull => ⟨[], hfull⟩
    · -- no session is left to come
      rw [(h.bounded.none_left hf.sessions).1] at hj
      cases hj
  | wake t =>
    simp only [stressStep] at hstep
    split at hstep
    · rename_i hth
      obtain ⟨hrun, ⟨⟩⟩ := Option.ite_none_right_eq_some.1 hstep
      refine h.go hth 0 (Nat.le_refl _) nofun nofun (fun _ hdown => ?_) (fun _ => rfl)
      rw [hrun] at hdown
      cases hdown
    · cases hstep
  | test t =>
    simp only [stressStep] at hstep
    split at hstep
    · rename_i hth
      cases hstep
      by_cases hrun : s.run = true
      · rw [if_pos hrun]
        refine ⟨h.bounded.go hth 0 (Nat.le_refl _) nofun nofun, ?_⟩
        rcases h.phase with he | ⟨senders, hf⟩
        · cases he.run.symm.trans hrun
        · -- no round was sent yet
          obtain rfl := hf.run.1 hrun
          exact Or.inr ⟨[], hf.sessions, hf.ne_nil, hf.sent, hf.nodup, nofun, hf.run⟩
      · rw [if_neg hrun]
        exact h.go hth 0 (Nat.le_refl _) nofun nofun (fun _ _ => rfl) (fun _ => rfl)
    · cases hstep
  | choose t =>
    simp only [stressStep] at hstep
    split at hstep
    · rename_i hth
      cases hstep
      refine h.go hth 0 (Nat.le_refl _) nofun ?_ nofun nofun
      rintro state ⟨⟩
      exact h.bounded.state
    · cases hstep
  | runCase t =>
    simp only [stressStep] at hstep
    split at hstep
    · rename_i state hth
      cases hstep
      have hstate := h.bounded.inCase t state hth
      have hthreads : (s.dummyClientProcess M t state).threads = s.threads := by cases state <;> rfl
      refine ⟨(h.bounded.dummyClientProcess hstate).go (hthreads ▸ hth) 0 (Nat.le_refl _) nofun nofun, ?_⟩
      rcases h.phase with he | ⟨senders, hf⟩
      · cases he.idle t _ hth
      · exact Or.inr (hf.runCase hstate hth)
    · cases hstep

/-! ## After the first round -/

/-- When something was sent, `run` is down. -/
theorem StressInv.run_down (h : StressInv T M s) (hsent : s.sent ≠ []) : s.run = false := by
  rcases h.phase with he | ⟨senders, hf⟩
  · exact absurd he.sent hsent
  · refine Bool.eq_false_iff.2 fun hrun => hsent ?_
    rw [hf.sent, hf.run.1 hrun]
    rfl

/-- Nothing that was sent is taken back. -/
theorem sent_grows {l : StressStep} (hstep : stressStep T M s l = some u) : s.sent <+: u.sent := by
  cases l with
  | create t | throws t | wake t =>
    simp only [stressStep] at hstep
    split at hstep
    · obtain ⟨-, ⟨⟩⟩ := Option.ite_none_right_eq_some.1 hstep
      exact List.prefix_rfl
    · cases hstep
  | started t =>
    simp only [stressStep] at hstep
    split at hstep
    · obtain ⟨-, ⟨⟩⟩ := Option.ite_none_left_eq_some.1 hstep
      exact List.prefix_rfl
    · cases hstep
  | test t | choose t =>
    simp only [stressStep] at hstep
    split at hstep
    · cases hstep
      exact List.prefix_rfl
    · cases hstep
  | connects | connectFails =>
    obtain ⟨-, ⟨⟩⟩ := Option.ite_none_right_eq_some.1 hstep
    exact List.prefix_rfl
  | init j =>
    obtain ⟨uid, -, rfl⟩ := Option.map_eq_some_iff.1 hstep
    exact List.prefix_rfl
  | runCase t =>
    simp only [stressStep] at hstep
    split at hstep
    · rename_i state _
      cases hstep
      cases state with
      | Send => exact List.prefix_append s.sent _
      | None | Connect | Disconnect | Reconnect | Recv => exact List.prefix_rfl
    · cases hstep

/-- While `run` is down, no thread comes into the loop, and none leaves the condition variable. -/
theorem idle_step {l : StressStep} (hstep : stressStep T M s l = some u) (hdown : s.run = false) {i : Nat}
    (hi : s.threads[i]? = some th) (hidle : th.idle = true) :
    ∃ th', u.threads[i]? = some th' ∧ th.StaysOut th' := by
  -- a thread that goes on is another one, or leaves `Start`
  have hgo : ∀ {t : Nat} {x x' : StressThread} (v : StressTest), v.threads = s.threads → s.threads[t]? = some x →
      (x.idle = true → x'.idle = true ∧ x ≠ .waiting) →
      ∃ th', (v.setThread t x').threads[i]? = some th' ∧ th.StaysOut th' := by
    intro t x x' v hv hx hleaves
    rw [← hv] at hx hi
    rw [StressTest.setThread, getElem?_set_of_some hx]
    split
    · rename_i hit
      subst hit
      obtain rfl := Option.some.inj (hi.symm.trans hx)
      exact ⟨x', rfl, (hleaves hidle).1, fun hw => absurd hw (hleaves hidle).2⟩
    · exact ⟨th, hi, hidle, id⟩
  cases l with
  | create t =>
    simp only [stressStep] at hstep
    split at hstep
    · rename_i hth
      obtain ⟨-, ⟨⟩⟩ := Option.ite_none_right_eq_some.1 hstep
      exact hgo { s with connecting := s.connecting + 1 } rfl hth fun _ => ⟨rfl, by simp⟩
    · cases hstep
  | throws t =>
    simp only [stressStep] at hstep
    split at hstep
    · rename_i hth
      obtain ⟨-, ⟨⟩⟩ := Option.ite_none_right_eq_some.1 hstep
      exact hgo s rfl hth fun _ => ⟨rfl, by simp⟩
    · cases hstep
  | started t =>
    simp only [stressStep] at hstep
    split at hstep
    · rename_i hth
      obtain ⟨-, ⟨⟩⟩ := Option.ite_none_left_eq_some.1 hstep
      exact hgo s rfl hth fun _ => ⟨rfl, by simp⟩
    · cases hstep
  | connects | connectFails =>
    obtain ⟨-, ⟨⟩⟩ := Option.ite_none_right_eq_some.1 hstep
    exact ⟨th, hi, hidle, id⟩
  | init j =>
    obtain ⟨uid, -, rfl⟩ := Option.map_eq_some_iff.1 hstep
    exact ⟨th, hi, hidle, id⟩
  | wake t =>
    simp only [stressStep] at hstep
    split at hstep
    · obtain ⟨hrun, -⟩ := Option.ite_none_right_eq_some.1 hstep
      cases hdown.symm.trans hrun
    · cases hstep
  | test t | choose t =>
    simp only [stressStep] at hstep
    split at hstep
    · rename_i hth
      cases hstep
      exact hgo s rfl hth fun hloop => by cases hloop
    · cases hstep
  | runCase t =>
    simp only [stressStep] at hstep
    split at hstep
    · rename_i state hth
      cases hstep
      refine hgo (s.dummyClientProcess M t state) ?_ hth fun hloop => by cases hloop
      cases state <;> rfl
    · cases hstep

end

/-- For every run of the stress test: the messages sent are rounds over all sessions, each from another thread; there is none before
all sessions are there, and there is one when `run` is down again. -/
theorem stressTest_rounds {T M : Nat} {ls : List StressStep} {s : StressTest}
    (h : (stressTest T M).run (stressTest T M).init ls = some s) :
    ∃ senders : List Nat, senders.Nodup ∧ (∀ t ∈ senders, t < T) ∧
      s.sent = senders.flatMap (fun t => s.sessions.map fun uid => (t, uid)) ∧ (senders ≠ [] → s.sessions.length = T * M) ∧
      (s.sessions.length = T * M → s.sessions ≠ [] → s.run = false → senders ≠ []) := by
  have hinv : StressInv T M s := (stressTest T M).run_invariant (fun _ _ _ hs hstep => hs.step hstep) (StressInv.init T M) h
  rcases hinv.phase with he | ⟨senders, hf⟩
  · refine ⟨[], List.nodup_nil, nofun, he.sent, fun hne => absurd rfl hne, fun hfull hne _ => ?_⟩
    exact absurd (he.sessions hfull) hne
  · refine ⟨senders, hf.nodup, fun t ht => ?_, hf.sent, fun _ => hf.sessions, fun _ _ hdown hnone => ?_⟩
    · obtain ⟨th, hth, -⟩ := hf.once t ht
      obtain ⟨hlt, -⟩ := List.getElem?_eq_some_iff.1 hth
      rwa [hinv.bounded.length] at hlt
    · rw [hf.run.2 hnone] at hdown
      cases hdown

/-- Two threads with a session each: both are in the loop before `run` is down, and both come to the case `Send`. -/
def twoRounds : List StressStep :=
  [.create 0, .started 0, .create 1, .started 1, .connects, .connects, .init 1, .init 0, .wake 0, .wake 1, .test 0, .choose 0, .runCase 0,
    .test 0, .test 1, .choose 1, .choose 0, .runCase 0, .runCase 1, .test 0, .test 1]

theorem stressTest_rounds_twoRounds : ∃ s, (stressTest 2 1).run (stressTest 2 1).init twoRounds = some s ∧
    s.sent = [(0, 0), (0, 1), (1, 0), (1, 1)] ∧
    ∃ senders : List Nat, senders.Nodup ∧ (∀ t ∈ senders, t < 2) ∧
      s.sent = senders.flatMap (fun t => s.sessions.map fun uid => (t, uid)) ∧ (senders ≠ [] → s.sessions.length = 2 * 1) ∧
      (s.sessions.length = 2 * 1 → s.sessions ≠ [] → s.run = false → senders ≠ []) := by
  obtain ⟨s, hs, hsent⟩ := Option.map_eq_some_iff.1
    (show ((stressTest 2 1).run (stressTest 2 1).init twoRounds).map StressTest.sent = some [(0, 0), (0, 1), (1, 0), (1, 1)] by decide)
  exact ⟨s, hs, hsent, stressTest_rounds hs⟩

/-- For every run of the stress test to a state in which something was sent, and every run that follows: `run` is down, no thread that was
not in the loop is in it, and a thread at the condition variable is still there. -/
theorem stressTest_waits_forever {T M : Nat} {ls ms : List StressStep} {s u : StressTest}
    (h : (stressTest T M).run (stressTest T M).init ls = some s) (hsent : s.sent ≠ []) (hu : (stressTest T M).run s ms = some u) :
    u.run = false ∧ ∀ (t : Nat) (th : StressThread), s.threads[t]? = some th → th.idle = true →
      ∃ th', u.threads[t]? = some th' ∧ th.StaysOut th' := by
  have hinv : StressInv T M s := (stressTest T M).run_invariant (fun _ _ _ hs hstep => hs.step hstep) (StressInv.init T M) h
  let After (v : StressTest) : Prop := StressInv T M v ∧ v.sent ≠ [] ∧
    ∀ (t : Nat) (th : StressThread), s.threads[t]? = some th → th.idle = true → ∃ th', v.threads[t]? = some th' ∧ th.StaysOut th'
  have hafter : After u := by
    refine (stressTest T M).run_invariant (I := After) ?_ ⟨hinv, hsent, fun t th hth hidle => ⟨th, hth, hidle, id⟩⟩ hu
    rintro v l w ⟨hv, hvsent, hstays⟩ hstep
    refine ⟨hv.step hstep, (sent_grows hstep).ne_nil hvsent, fun t th hth hidle => ?_⟩
    obtain ⟨x, hx, hxidle, hxwaits⟩ := hstays t th hth hidle
    obtain ⟨y, hy, hyidle, hywaits⟩ := idle_step hstep (hv.run_down hvsent) hx hxidle
    exact ⟨y, hy, hyidle, fun hw => hywaits (hxwaits hw)⟩
  exact ⟨hafter.1.run_down hafter.2.1, hafter.2.2⟩

/-- The second thread comes to the condition variable when the first has already sent. -/
def lateThread : List StressStep :=
  [.create 0, .started 0, .create 1, .connects, .connects, .init 0, .init 0, .wake 0, .test 0, .choose 0, .runCase 0, .test 0, .choose 0,
    .runCase 0, .started 1]

theorem stressTest_waits_forever_lateThread : ∃ s u, (stressTest 2 1).run (stressTest 2 1).init lateThread = some s ∧
    (stressTest 2 1).run s [.test 0] = some u ∧ u.threads = [.ended, .waiting] ∧ u.run = false ∧
    ∀ (t : Nat) (th : StressThread), s.threads[t]? = some th → th.idle = true →
      ∃ th', u.threads[t]? = some th' ∧ th.StaysOut th' := by
  obtain ⟨s, hs, hsent⟩ := Option.map_eq_some_iff.1
    (show ((stressTest 2 1).run (stressTest 2 1).init lateThread).map StressTest.sent = some [(0, 0), (0, 1)] by decide)
  obtain ⟨u, hu, hthreads⟩ := Option.map_eq_some_iff.1
    (show ((stressTest 2 1).run (stressTest 2 1).init (lateThread ++ [.test 0])).map StressTest.threads = some [.ended, .waiting] by
      decide)
  rw [Lts.run_append_of hs] at hu
  exact ⟨s, u, hs, hu, hthreads, stressTest_waits_forever hs (by simp [hsent]) hu⟩

end ProjectYJ
