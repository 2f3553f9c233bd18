import ProjectYJ.Lemmas.SessionTables

/-!
# The session tables agree

`AsioService::m_Sessions` and the `SessionManager` are changed at different moments of an accept and of a close, and a
session may be closed by several threads. Outside its accept and its close a session is in both tables or in neither.
-/

namespace ProjectYJ

open SessionTables

namespace SessionTables

/-- `HandleAccept` has an object for the session and has not registered it yet. -/
def AcceptInProgress (s : SessionTables) (a : Nat) : Prop :=
  s.stage a = .popped ∨ s.stage a = .listed ∨ s.stage a = .numbered

/-- Some thread is between `OnDisconnected` and the end of `CloseSession` on the session. -/
def CloseInProgress (s : SessionTables) (a : Nat) : Prop := ∃ w, s.hand w = .removed a

/-- The session is accepted, and in one of the tables. -/
def Registered (s : SessionTables) (a : Nat) : Prop :=
  ¬s.AcceptInProgress a ∧ (a ∈ s.sessions ∨ ∃ u, s.getSession u = some a)

end SessionTables

section

variable {n : Nat} {s : SessionTables}

/-- An accepted session in one of the tables is connected. -/
theorem TablesInv.connected_of_registered (hs : TablesInv n s) {a : Nat} (ha : s.Registered a) : s.stage a = .connected := by
  obtain ⟨hno, hsess | ⟨u, hu⟩⟩ := ha
  · rcases hs.tables.sessions a hsess with (h | h) | h
    · exact absurd (Or.inr (Or.inl h)) hno
    · exact absurd (Or.inr (Or.inr h)) hno
    · exact h
  · exact (hs.tables.manager u a hu).1

/-- Outside its accept and its close a session is in both tables or in neither. -/
theorem TablesInv.mem_sessions_iff (hs : TablesInv n s) {a : Nat} (hacc : ¬s.AcceptInProgress a)
    (hclose : ¬s.CloseInProgress a) : a ∈ s.sessions ↔ s.getSession (s.uid a) = some a := by
  constructor
  · intro ha
    have hcon := hs.connected_of_registered ⟨hacc, Or.inl ha⟩
    refine hs.tables.listed a ha hcon ?_
    cases hm : s.mutex a with
    | none => rfl
    | some w => exact absurd ⟨w, (hs.hands.mutex w a).1 hm⟩ hclose
  · intro ha
    exact (hs.tables.manager _ a ha).2.2

end

/-- In every run that creates fewer than `2 ^ 31` sessions: a session that is neither being accepted nor being closed is in
`m_Sessions` exactly when the `SessionManager` has it under its UID; two registered sessions have two UIDs; the key of an
entry of the `SessionManager` is the UID of its session; and the UID of a session that was closed is not found by
`GetSession` however the run goes on. -/
theorem session_tables_agree (numThreads poolSize : Nat) {ls : List TablesStep} {s : SessionTables}
    (hr : (tablesSystem numThreads poolSize).run (SessionTables.init poolSize) ls = some s) (hc : s.created < 2147483648) :
    (∀ a, ¬s.AcceptInProgress a → ¬s.CloseInProgress a → (a ∈ s.sessions ↔ s.getSession (s.uid a) = some a)) ∧
      (∀ a b, s.Registered a → s.Registered b → s.uid a = s.uid b → a = b) ∧
      (∀ u a, s.getSession u = some a → s.uid a = u) ∧
      ∀ u ∈ s.closed, ∀ ms t, (tablesSystem numThreads poolSize).run s ms = some t → t.created < 2147483648 →
        t.getSession u = none := by
  have hinv := ((TablesInv.init numThreads poolSize).run hr hc).1
  refine ⟨fun a => hinv.mem_sessions_iff, ?_, ?_, ?_⟩
  · intro a b ha hb huid
    exact hinv.uids.inj a b (Or.inr (hinv.connected_of_registered ha)) (Or.inr (hinv.connected_of_registered hb)) huid
  · intro u a ha
    exact (hinv.tables.manager u a ha).2.1
  · intro u hu ms t hms ht
    obtain ⟨hinvt, hsub⟩ := hinv.run hms ht
    exact (hinvt.tables.closed u (hsub hu)).1

/-- One session is accepted, closed by two threads that both got it before, recycled and accepted again. -/
def closeTwice : List TablesStep :=
  [.maker, .addSession 0, .setSessionUID 0, .onConnected 0, .getSession 0 0, .getSession 1 0, .removeSession 0,
    .releaseSession 0, .removeSession 1, .releaseSession 1, .recycle 0, .maker, .addSession 0, .setSessionUID 0, .onConnected 0]

/-- `session_tables_agree` at the run `closeTwice`: the object has its second UID, and the first is not found again. -/
theorem session_tables_agree_closeTwice : ∃ s, (tablesSystem 2 1).run (SessionTables.init 1) closeTwice = some s ∧
    s.uid 0 = 1 ∧ (0 ∈ s.sessions ↔ s.getSession (s.uid 0) = some 0) ∧
    ∀ ms t, (tablesSystem 2 1).run s ms = some t → t.created < 2147483648 → t.getSession 0 = none := by
  have hrun : ((tablesSystem 2 1).run (SessionTables.init 1) closeTwice).map
      (fun s => (s.created, s.uid 0, s.stage 0, s.mutex 0, s.closed)) = some (2, 1, .connected, none, {0}) := by decide
  obtain ⟨s, hs, hfields⟩ := Option.map_eq_some_iff.1 hrun
  simp only [Prod.mk.injEq] at hfields
  obtain ⟨hcr, huid, hst, hm, hcl⟩ := hfields
  obtain ⟨hiff, -, -, hgone⟩ := session_tables_agree 2 1 hs (by omega)
  refine ⟨s, hs, huid, hiff 0 ?_ ?_, hgone 0 (by rw [hcl]; exact Finset.mem_singleton_self 0)⟩
  · rintro (h | h | h) <;> rw [hst] at h <;> cases h
  · rintro ⟨w, hw⟩
    have hinv := ((TablesInv.init 2 1).run hs (by omega)).1
    rw [(hinv.hands.mutex w 0).2 hw] at hm
    cases hm

end ProjectYJ
