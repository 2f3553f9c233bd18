import ProjectYJ.Lemmas.Disconnect
import ProjectYJ.Lib.Roster
import ProjectYJ.Theorems.Drain

/-!
# The session count

`CloseSession` leaves nothing behind that marks a session as closed, and `ReleaseSession` counts down whether or not the session was
still in `m_Sessions`. So `m_SessionCount` is the size of `m_Sessions` as long as a thread takes a session to close it only while no
other thread is closing it and while it has not been closed. `ProcessDisconnect` does not see to that: the read and the write of a
session may both pass its test, and both push a task.
-/

namespace ProjectYJ

open Server

namespace SessionTables

/-- The threads that hold a session to close it. The packet workers, which are the first threads, hold sessions for other reasons. -/
def closers (s : SessionTables) (numWorkers numThreads session : Nat) : Finset Nat :=
  (Finset.range numThreads).filter (fun w => numWorkers ≤ w ∧ (s.hand w).Holds session)

/-- `m_Sessions` and `m_SessionCount`, with the threads that are closing each session. -/
def roster (s : SessionTables) (numWorkers numThreads : Nat) : Roster Nat Nat where
  members := s.sessions
  count := s.sessionCount
  holders := s.closers numWorkers numThreads

end SessionTables

/-- The session that a step takes to close it: the one `GetSession` finds for a task, or the one `Disconnect` is called on. -/
def Server.taken (s : Server) : DisconnectStep → Option Nat
  | .server (.processIoTask w) => (s.task w).bind (fun task => s.conns.tables.getSession task.sessionUID)
  | .disconnect _ session => some session
  | _ => none

/-- The step takes a session to close it only if it is in `m_Sessions` and no other thread is closing it. -/
def TakesOnce (numWorkers numThreads : Nat) (s : Server) (l : DisconnectStep) : Prop :=
  ∀ a ∈ s.taken l, (s.conns.tables.roster numWorkers numThreads).Free a

instance (numWorkers numThreads : Nat) (s : Server) (l : DisconnectStep) : Decidable (TakesOnce numWorkers numThreads s l) :=
  inferInstanceAs (Decidable (∀ a ∈ s.taken l, _))

/-! ## Steps of the roster -/

section

variable {n N : Nat} {s t : SessionTables}

theorem mem_closers {w a : Nat} : w ∈ s.closers n N a ↔ w < N ∧ n ≤ w ∧ (s.hand w).Holds a := by
  simp [SessionTables.closers]

/-- A step that leaves the table, the counter and what the closing threads hold. -/
theorem roster_keep (hsess : t.sessions = s.sessions ∧ t.sessionCount = s.sessionCount)
    (hhand : ∀ w, n ≤ w → ∀ a, (t.hand w).Holds a ↔ (s.hand w).Holds a) :
    Roster.Step (s.roster n N) none (t.roster n N) := by
  have h : t.roster n N = s.roster n N := by
    ext
    · rw [SessionTables.roster, hsess.1]
      rfl
    · exact hsess.2
    · rename_i a w
      simp only [SessionTables.roster, mem_closers]
      exact and_congr_right fun _ => and_congr_right fun hw => hhand w hw a
  rw [h]
  exact .keep

theorem roster_add {a : Nat} (ha : a ∉ s.sessions) (hfree : ∀ w, ¬(s.hand w).Holds a) (stage : Stage) :
    Roster.Step (s.roster n N) none (((s.addSession a).setStage a stage).roster n N) := by
  refine .add ha (Finset.eq_empty_of_forall_notMem fun w hw => ?_)
  exact hfree w (mem_closers.1 hw).2.2

theorem roster_take {w a : Nat} (hw : n ≤ w ∧ w < N) (hidle : s.hand w = .idle) (hsess : t.sessions = s.sessions)
    (hcount : t.sessionCount = s.sessionCount) (hhand : t.hand = Function.update s.hand w (.got a)) :
    Roster.Step (s.roster n N) (some a) (t.roster n N) := by
  have h : t.roster n N = (s.roster n N).take a w := by
    ext
    · rw [SessionTables.roster, hsess]
      rfl
    · exact hcount
    · rename_i b v
      simp only [SessionTables.roster, Roster.take, Function.update_apply]
      split
      · rename_i hba
        subst hba
        rw [Finset.mem_insert, mem_closers, mem_closers, hhand, Function.update_apply]
        by_cases hvw : v = w
        · subst hvw
          simp [hw]
        · simp [hvw]
      · rename_i hba
        rw [mem_closers, mem_closers, hhand, Function.update_apply]
        by_cases hvw : v = w
        · subst hvw
          simp [hidle, Ne.symm hba]
        · simp [hvw]
  rw [h]
  refine .take fun hmem => ?_
  have := (mem_closers.1 hmem).2.2
  simp [hidle] at this

/-- A thread goes on in `CloseSession`, with the session it had. -/
theorem roster_removeSession {w a : Nat} (hgot : s.hand w = .got a) :
    Roster.Step (s.roster n N) none (((s.removeSession w a).setHand w (.removed a)).roster n N) := by
  refine roster_keep ⟨rfl, rfl⟩ fun v _ b => ?_
  by_cases hvw : v = w
  · subst hvw
    simp [SessionTables.setHand, hgot]
  · simp [SessionTables.setHand, SessionTables.removeSession, hvw]

theorem roster_release {w a : Nat} (hw : n ≤ w ∧ w < N) (hremoved : s.hand w = .removed a) :
    Roster.Step (s.roster n N) none (((s.releaseSession a).setHand w .idle).roster n N) := by
  have h : ((s.releaseSession a).setHand w .idle).roster n N = (s.roster n N).release a w := by
    ext
    · rfl
    · rfl
    · rename_i b v
      simp only [SessionTables.roster, Roster.release, Function.update_apply]
      split
      · rename_i hba
        subst hba
        rw [Finset.mem_erase, mem_closers, mem_closers]
        by_cases hvw : v = w
        · subst hvw
          simp [SessionTables.setHand]
        · simp [SessionTables.setHand, SessionTables.releaseSession, hvw]
      · rename_i hba
        rw [mem_closers, mem_closers]
        by_cases hvw : v = w
        · subst hvw
          simp [SessionTables.setHand, hremoved, Ne.symm hba]
        · simp [SessionTables.setHand, SessionTables.releaseSession, hvw]
  rw [h]
  refine .release (mem_closers.2 ⟨hw.2, hw.1, ?_⟩)
  simp [hremoved]

end

/-! ## The invariant -/

section

variable {stringToUTF8 : String → String} {n m k : Nat} {s t : Server}

/-- What holds in every state: what holds of the server; the stages of the sessions in `m_Sessions`; no packet worker closes a
session; and every task is a disconnect. -/
structure CloseInv (n m : Nat) (s : Server) : Prop where
  server : ServerInv n m s
  listed : s.conns.tables.Listed
  removed : ∀ w a, s.conns.tables.hand w = .removed a → n ≤ w
  tasks : ∀ task, s.HasTask task → task.state = .Disconnect

/-- With disconnects only, `ProcessIoTask` sets no `NetState`. -/
theorem CloseInv.setNetState_none (hs : CloseInv n m s) (w : Nat) :
    serverStep stringToUTF8 n m s (.setNetState w) = none := by
  simp only [serverStep]
  split
  · rename_i task a htask _
    exact if_pos (hs.tasks task (Or.inr ⟨w, htask⟩))
  · rfl

theorem CloseInv.serverStep (hs : CloseInv n m s) {l : ServerStep} (h : serverStep stringToUTF8 n m s l = some t) :
    CloseInv n m t := by
  have hmove := serverStep_moves h
  refine ⟨hs.server.moves hmove, ?_, ?_, fun task htask => ?_⟩
  · rcases hmove.conns with hconns | ⟨l', hconns⟩
    · rw [hconns]
      exact hs.listed
    · exact hs.listed.step hs.server.conns.pool (connStep_tables hconns).1
  · intro w a ha
    have hstep : ∀ {l'}, connStep (n + m) s.conns l' = some t.conns → l' ≠ .removeSession w → n ≤ w :=
      fun hl hne => hs.removed w a ((tablesStep_removed (connStep_tables hl).1 ha).resolve_right hne)
    cases hmove with
    | maker hc | addSession hc | setSessionUID hc | processRecv hc | drop _ hc | find _ hc | handled _ hc | taskDrop _ hc
    | taskFind _ hc | reconnect _ hc | setNetState _ hc | releaseSession hc | recycle _ _ hc => exact hstep hc (by simp)
    | @removeSession v task conns hv hc =>
      by_cases hvw : v = w
      · exact hvw ▸ (hs.server.task v (by rw [hv]; exact nofun)).1
      · exact hstep hc (by simpa using hvw)
    | readError | writeError =>
      rw [processDisconnect_eq] at ha
      exact hs.removed w a ha
    | _ => exact hs.removed w a ha
  · rcases ServerMoves.hasTask hs.server hmove htask with hold | ⟨a, -, rfl⟩
    · exact hs.tasks task hold
    · rfl

/-- A step of the server is one of its roster: only the worker that gets the session of its task takes one. -/
theorem CloseInv.roster_serverStep (hs : CloseInv n m s) {l : ServerStep} (h : ProjectYJ.serverStep stringToUTF8 n m s l = some t) :
    Roster.Step (s.conns.tables.roster n (n + m)) (s.taken (.server l)) (t.conns.tables.roster n (n + m)) := by
  have hkeep : ∀ {l' conns}, connStep (n + m) s.conns l' = some conns → (∀ a, l' ≠ .addSession a) →
      (∀ w, l' ≠ .releaseSession w) → (∀ w, l'.thread? = some w → w < n) →
      Roster.Step (s.conns.tables.roster n (n + m)) none (conns.tables.roster n (n + m)) := by
    intro l' conns hl hadd hrelease hthread
    refine roster_keep (tablesStep_sessions (connStep_tables hl).1 hadd hrelease) fun w hw a => ?_
    rw [connStep_hand hl fun hlw => Nat.not_lt_of_le hw (hthread w hlw)]
  have hmove := serverStep_moves h
  cases hmove with
  | maker hc | setSessionUID hc | processRecv hc | recycle _ _ hc => exact hkeep hc (by simp) (by simp) (by simp [TablesStep.thread?])
  | @addSession a conns hc =>
    obtain ⟨ha, ht⟩ := tablesStep_addSession (connStep_tables hc).1
    simp only [ht]
    refine roster_add (fun hmem => (hs.listed a hmem).2 ha) (fun w hw => ?_) .listed
    exact absurd (ha.symm.trans (hs.server.conns.holds w a hw).2) (by simp)
  | @drop w _ _ hw hc | @find w _ _ _ hw hc | @handled w _ _ hw hc =>
    refine hkeep hc (by simp) (by simp) fun v hv => ?_
    obtain rfl := Option.some.inj hv
    exact hs.server.worker w (by simp [hw])
  | @taskDrop w task conns hw hc hg =>
    have htaken : s.taken (.server (.processIoTask w)) = none := by simp [Server.taken, hw, hg]
    obtain ⟨-, -, ⟨-, ht⟩ | ⟨a, ha, -⟩⟩ := tablesStep_getSession (connStep_tables hc).1
    · rw [htaken]
      simp only [Server.setTask, ht]
      exact .keep
    · cases hg.symm.trans ha
  | @taskFind w task a conns hw hc hg =>
    have htaken : s.taken (.server (.processIoTask w)) = some a := by simp [Server.taken, hw, hg]
    obtain ⟨-, hidle, ⟨hnone, -⟩ | ⟨b, hb, ht⟩⟩ := tablesStep_getSession (connStep_tables hc).1
    · cases hg.symm.trans hnone
    · obtain rfl := Option.some.inj (hg.symm.trans hb)
      rw [htaken]
      simp only [ht]
      exact roster_take (hs.server.task w (by simp [hw])) hidle rfl rfl rfl
  | @reconnect w | @setNetState w =>
    rw [hs.setNetState_none w] at h
    cases h
  | @removeSession w task conns hw hc =>
    obtain ⟨a, ha, -, ht⟩ := tablesStep_removeSession (connStep_tables hc).1
    simp only [ht]
    exact roster_removeSession ha
  | @releaseSession w conns hc =>
    obtain ⟨a, ha, ht⟩ := tablesStep_releaseSession (connStep_tables hc).1
    simp only [Server.setTask, ht]
    exact roster_release ⟨hs.removed w a ha, (hs.server.conns.holds w a (Or.inr ha)).1⟩ ha
  | readError | writeError =>
    rw [processDisconnect_eq]
    exact .keep
  | _ => exact .keep

theorem CloseInv.step (hs : CloseInv n (m + k) s) {l : DisconnectStep} (h : disconnectStep stringToUTF8 n m k s l = some t) :
    CloseInv n (m + k) t := by
  rcases disconnectStep_cases h with ⟨l', -, hl⟩ | ⟨w, a, -, hw, -, ha, rfl⟩ | ⟨w, conns, -, hw, hconns, rfl⟩
  · exact hs.serverStep hl
  · refine ⟨hs.server.disconnect hw ha, hs.listed, fun v b hb => ?_, hs.tasks⟩
    by_cases hvw : v = w
    · exact hvw ▸ hw.1
    · exact hs.removed v b ((Function.update_of_ne hvw ..).symm.trans hb)
  · have htables := (connStep_tables hconns).1
    refine ⟨hs.server.conns_step hconns (fun v item hv hfound => ?_) nofun, hs.listed.step hs.server.conns.pool htables,
      fun v b hb => ?_, hs.tasks⟩
    · obtain rfl := Option.some.inj hv
      exact Nat.not_lt_of_le hw (hs.server.worker w (by rw [hfound]; exact nofun))
    · rcases tablesStep_removed htables hb with hold | hvw
      · exact hs.removed v b hold
      · exact TablesStep.removeSession.inj hvw ▸ hw

theorem CloseInv.roster_step (hs : CloseInv n (m + k) s) {l : DisconnectStep}
    (h : disconnectStep stringToUTF8 n m k s l = some t) :
    Roster.Step (s.conns.tables.roster n (n + (m + k))) (s.taken l) (t.conns.tables.roster n (n + (m + k))) := by
  rcases disconnectStep_cases h with ⟨l', rfl, hl⟩ | ⟨w, a, rfl, hw, hidle, -, rfl⟩ | ⟨w, conns, rfl, -, hconns, rfl⟩
  · exact hs.roster_serverStep hl
  · exact roster_take hw hidle rfl rfl rfl
  · obtain ⟨a, ha, -, ht⟩ := tablesStep_removeSession (connStep_tables hconns).1
    simp only [ht]
    exact roster_removeSession ha

theorem CloseInv.init (n m poolSize : Nat) : CloseInv n m (Server.init poolSize) where
  server := ServerInv.init n m poolSize
  listed a ha := absurd ha (Finset.notMem_empty a)
  removed _ _ ha := nomatch ha
  tasks task h := by
    rcases h with h | ⟨w, hw⟩
    · cases h
    · cases hw

/-- Before the first step nobody closes a session. -/
theorem exact_init (n N poolSize : Nat) : ((Server.init poolSize).conns.tables.roster n N).Exact := by
  have hnone : ∀ a, ((Server.init poolSize).conns.tables.roster n N).holders a = ∅ := by
    intro a
    refine Finset.eq_empty_of_forall_notMem fun w hw => ?_
    exact Hand.not_holds_idle a (mem_closers.1 hw).2.2
  exact (Roster.exact_iff_of_forall_eq_empty hnone).2 rfl

/-- The count is exact, with every session closed by at most one thread and only while it is in `m_Sessions`, after the runs that
take a session only once, and after no others. -/
theorem exact_iff_takesOnce {poolSize : Nat} {ls : List DisconnectStep}
    (hr : (disconnectSystem stringToUTF8 n m k poolSize).run (Server.init poolSize) ls = some s) :
    (s.conns.tables.roster n (n + (m + k))).Exact ↔
      (disconnectSystem stringToUTF8 n m k poolSize).Meets (TakesOnce n (n + (m + k))) (Server.init poolSize) ls :=
  Roster.exact_iff_meets (T := disconnectSystem stringToUTF8 n m k poolSize) (I := CloseInv n (m + k))
    (fun _ _ _ hs h => hs.step h) (fun _ _ _ hs h => hs.roster_step h) (CloseInv.init n (m + k) poolSize)
    (exact_init n (n + (m + k)) poolSize) hr

end

/-- In every run that takes a session to close it only while it is in `m_Sessions` and no other thread is closing it,
`m_SessionCount` is the size of `m_Sessions` in every state reached; and a run that ends with no thread closing a session ends with the
right count only if it is such a run. -/
theorem sessionCount_iff (stringToUTF8 : String → String) (numWorkers numTaskWorkers numCallers poolSize : Nat)
    {ls : List DisconnectStep} {s : Server}
    (hr : (disconnectSystem stringToUTF8 numWorkers numTaskWorkers numCallers poolSize).run (Server.init poolSize) ls = some s) :
    ((disconnectSystem stringToUTF8 numWorkers numTaskWorkers numCallers poolSize).Meets
        (TakesOnce numWorkers (numWorkers + (numTaskWorkers + numCallers))) (Server.init poolSize) ls →
      ∀ ms r, ms <+: ls →
        (disconnectSystem stringToUTF8 numWorkers numTaskWorkers numCallers poolSize).run (Server.init poolSize) ms = some r →
        r.conns.tables.sessionCount = r.conns.tables.sessions.card) ∧
    ((∀ w, numWorkers ≤ w → s.conns.tables.hand w = .idle) →
      (s.conns.tables.sessionCount = s.conns.tables.sessions.card ↔
        (disconnectSystem stringToUTF8 numWorkers numTaskWorkers numCallers poolSize).Meets
          (TakesOnce numWorkers (numWorkers + (numTaskWorkers + numCallers))) (Server.init poolSize) ls)) := by
  refine ⟨fun hm ms r hms hmr => ((exact_iff_takesOnce hmr).2 (Lts.meets_front _ hm hms)).count, fun hidle => ?_⟩
  have hfree : ∀ a, (s.conns.tables.roster numWorkers (numWorkers + (numTaskWorkers + numCallers))).holders a = ∅ := by
    intro a
    refine Finset.eq_empty_of_forall_notMem fun w hw => ?_
    obtain ⟨-, hle, hholds⟩ := mem_closers.1 hw
    rw [hidle w hle] at hholds
    exact Hand.not_holds_idle a hholds
  rw [← exact_iff_takesOnce hr]
  exact (Roster.exact_iff_of_forall_eq_empty hfree).symm

/-- A client connects; its session is disconnected directly, and its read ends after that, when no task worker finds the session. -/
def disconnectsFirst : List DisconnectStep :=
  [.server .maker, .server (.addSession 0), .server (.setSessionUID 0), .server (.processRecv 0), .disconnect 2 0,
    .closeSession 2, .server (.releaseSession 2), .server (.readError 0), .server (.pushTask 0), .server (.popTask 1),
    .server (.processIoTask 1)]

/-- `sessionCount_iff` at the run `disconnectsFirst`. -/
theorem sessionCount_iff_disconnectsFirst : ∃ s, (disconnectSystem id 1 1 1 1).run (Server.init 1) disconnectsFirst = some s ∧
    s.conns.closed = [0] ∧ s.conns.tables.sessionCount = s.conns.tables.sessions.card := by
  have hrun : ((disconnectSystem id 1 1 1 1).run (Server.init 1) disconnectsFirst).map
      (fun s : Server => s.conns.closed) = some [0] := by decide
  obtain ⟨s, hs, hclosed⟩ := Option.map_eq_some_iff.1 hrun
  have htakes : (disconnectSystem id 1 1 1 1).Meets (TakesOnce 1 3) (Server.init 1) disconnectsFirst := by decide
  exact ⟨s, hs, hclosed, (sessionCount_iff id 1 1 1 1 hs).1 htakes disconnectsFirst s (List.prefix_refl _) hs⟩

/-- A client connects, sends a packet and goes away; the handlers of the read and of the answer's write both get past the test of
`ProcessDisconnect`, and two task workers get the session before either closes it. -/
def closesTwice : List DisconnectStep :=
  [.maker, .addSession 0, .setSessionUID 0, .processRecv 0, .handleRead 0, .dispatch 0, .popPacket 0, .getSession 0,
    .handlePacket 0 (some (.DummyPacketReq "")), .handled 0, .doRead 0, .readError 0, .handleWrite 0 true, .pushTask 0, .pushTask 0,
    .popTask 1, .popTask 2, .processIoTask 1, .processIoTask 2, .removeSession 1, .releaseSession 1, .removeSession 2,
    .releaseSession 2].map .server

/-- Then `m_SessionCount` is -1 and `m_Sessions` is empty. -/
theorem sessionCount_negative : ∃ s, (disconnectSystem id 1 2 0 1).run (Server.init 1) closesTwice = some s ∧
    s.conns.tables.sessionCount = -1 ∧ s.conns.tables.sessions = ∅ ∧
    ¬∀ ms r, ms <+: closesTwice → (disconnectSystem id 1 2 0 1).run (Server.init 1) ms = some r →
      r.conns.tables.sessionCount = r.conns.tables.sessions.card := by
  have hrun : ((disconnectSystem id 1 2 0 1).run (Server.init 1) closesTwice).map
      (fun s : Server => (s.conns.tables.sessionCount, s.conns.tables.sessions)) = some (-1, ∅) := by decide
  obtain ⟨s, hs, hfields⟩ := Option.map_eq_some_iff.1 hrun
  obtain ⟨hcount, hsessions⟩ := Prod.mk.inj hfields
  refine ⟨s, hs, hcount, hsessions, fun hall => ?_⟩
  have hexact := hall closesTwice s (List.prefix_refl _) hs
  rw [hcount, hsessions] at hexact
  exact absurd hexact (by decide)

end ProjectYJ
