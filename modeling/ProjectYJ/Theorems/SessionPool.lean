import ProjectYJ.Theorems.Teardown

/-!
# Whether the session objects come back

An object goes back to the session pool when its last `shared_ptr` is gone. A player holds the session it belongs to, the
session holds its player, and the deleter destroys no object: after a login the two keep each other, whatever is closed. Nothing
else keeps the object of a closed connection.
-/

namespace ProjectYJ

open Server

namespace Server

/-- Each accepted connection was closed, no accept, handler or worker has a session, and there is none left whose last `shared_ptr`
is gone and which the deleter has not pushed yet. -/
def Quiescent (stringToUTF8 : String → String) (numWorkers numTaskWorkers : Nat) (s : Server) : Prop :=
  (∀ c < s.conns.tables.created, c ∈ s.conns.closed) ∧
    (∀ a < s.conns.tables.made, (s.conns.tables.stage a = .pooled ∨ s.conns.tables.stage a = .connected) ∧ ¬s.Held a ∧
      ∀ w < numWorkers + numTaskWorkers, ¬(s.conns.tables.hand w).Holds a) ∧
    ∀ a < s.conns.tables.made, (serverStep stringToUTF8 numWorkers numTaskWorkers s (.recycle a)).isNone

instance (stringToUTF8 : String → String) (numWorkers numTaskWorkers : Nat) (s : Server) :
    Decidable (s.Quiescent stringToUTF8 numWorkers numTaskWorkers) := inferInstanceAs (Decidable (_ ∧ _ ∧ _))

/-- Every object that was made is on the stack of the session pool. -/
def Conserved (s : Server) : Prop := ∀ a < s.conns.tables.made, a ∈ s.conns.tables.pool

instance (s : Server) : Decidable s.Conserved := inferInstanceAs (Decidable (∀ a < _, _))

end Server

/-- The step handles no `LoginReq`. -/
def ServerStep.NoLogin : ServerStep → Prop
  | .handlePacket _ (some (.LoginReq _ _)) => False
  | _ => True

section

variable {stringToUTF8 : String → String} {n m : Nat} {s t : Server}

/-- The first player comes with the first login, and players stay. -/
theorem serverStep_playersMade {l : ServerStep} (h : serverStep stringToUTF8 n m s l = some t) :
    t.chat.playersMade = 0 ↔ s.chat.playersMade = 0 ∧ l.NoLogin := by
  cases serverStep_moves h with
  | @handlePacket w item a request out _ _ hout =>
    rcases handle_owners hout with ⟨⟨id, password, rfl⟩, hnew⟩ | ⟨hno, hsame⟩
    · refine iff_of_false ?_ fun hl => hl.2
      simp only [Server.setWorker, Server.answer, hnew.playersMade]
      exact Nat.succ_ne_zero _
    · simp only [Server.setWorker, Server.answer, hsame.playersMade]
      refine (and_iff_left ?_).symm
      cases request with
      | LoginReq id password => exact hno id password rfl
      | _ => trivial
  | readError | writeError =>
    rw [processDisconnect_eq]
    exact (and_iff_left trivial).symm
  | _ => exact (and_iff_left trivial).symm

namespace ServerInv

/-- The session of a player is not in the pool. -/
theorem not_conserved (hs : ServerInv n m s) {p : Nat} (hp : p < s.chat.playersMade) : ¬s.Conserved := by
  intro hall
  have hst := (hs.players p hp).1
  obtain hlt | hle := Nat.lt_or_ge (s.chat.player p).ownerSession s.conns.tables.made
  · rw [(hs.conns.pool.pooled _ (hall _ hlt)).1] at hst
    cases hst
  · rw [hs.conns.pool.unmade _ hle] at hst
    cases hst

/-- Nothing but a player, a handler or a worker refers to the session of a closed connection. -/
theorem unreferenced (hs : ServerInv n m s) {a c : Nat} (hc : s.conns.conn a = some c) (hclosed : c ∈ s.conns.closed)
    (hhand : ∀ w < n + m, ¬(s.conns.tables.hand w).Holds a) : s.conns.tables.Unreferenced (n + m) a := by
  have h := hs.conns.serves a c hc
  refine ⟨fun hsess => h.sessions hsess hclosed, ?_, hhand⟩
  rintro ⟨u, b⟩ hmem rfl
  have hg : s.conns.tables.getSession u = some b := AList.mem_lookup_iff.2 hmem
  exact h.manager ((hs.conns.manager u b hg).2 ▸ hg) (hs.conns.closed c hclosed)

/-- Without players, every object has come back once all is quiet. -/
theorem conserved (hs : ServerInv n m s) (hq : s.Quiescent stringToUTF8 n m) (hno : s.chat.playersMade = 0) :
    s.Conserved := by
  intro a ha
  obtain ⟨hclosed, hidle, hsettled⟩ := hq
  obtain ⟨hpooled | hst, hheld, hhand⟩ := hidle a ha
  · exact hs.conns.back a hpooled ha
  · obtain ⟨c, hc⟩ := hs.conns.conn_of_connected hst
    have hfree := hs.unreferenced hc (hclosed c (hs.conns.serves a c hc).lt) hhand
    have howned : ¬s.Owned a := by
      rintro ⟨p, hp, -⟩
      rw [hno] at hp
      exact Nat.not_lt_zero p hp
    have hsome := hsettled a ha
    simp [serverStep, hheld, howned, Server.connStep, ProjectYJ.connStep, tablesStep, hst, hfree] at hsome

end ServerInv

end

/-- In every quiescent state that a run reaches, every session object ever made is back on the stack of the pool exactly when no
`LoginReq` was handled in the run. -/
theorem conserved_iff (stringToUTF8 : String → String) (numWorkers numTaskWorkers poolSize : Nat) {ls : List ServerStep}
    {s : Server}
    (hr : (serverSystem stringToUTF8 numWorkers numTaskWorkers poolSize).run (Server.init poolSize) ls = some s)
    (hq : s.Quiescent stringToUTF8 numWorkers numTaskWorkers) :
    s.Conserved ↔ ∀ l ∈ ls, l.NoLogin := by
  have hinv := ServerInv.run hr
  have hlogin : s.chat.playersMade = 0 ↔ ∀ l ∈ ls, l.NoLogin := by
    have hiff := (serverSystem stringToUTF8 numWorkers numTaskWorkers poolSize).meets_iff
      (P := fun r => r.chat.playersMade = 0) (fun _ _ _ h => serverStep_playersMade h) hr
    rw [hiff, Lts.meets_label_iff _ hr]
    exact and_iff_right rfl
  rw [← hlogin]
  constructor
  · intro hall
    exact Nat.eq_zero_of_not_pos fun hp => hinv.not_conserved hp hall
  · exact hinv.conserved hq

/-- `conserved_iff` at the run `closesSilently`. -/
theorem conserved_iff_closesSilently : ∃ s, (serverSystem id 1 1 1).run (Server.init 1) closesSilently = some s ∧
    s.conns.tables.pool = [0] ∧ (s.Conserved ↔ ∀ l ∈ closesSilently, l.NoLogin) := by
  have hrun : ((serverSystem id 1 1 1).run (Server.init 1) closesSilently).map
      (fun s => (s.conns.tables.pool, decide (s.Quiescent id 1 1))) = some ([0], true) := by decide
  obtain ⟨s, hs, hfields⟩ := Option.map_eq_some_iff.1 hrun
  simp only [Prod.mk.injEq, decide_eq_true_eq] at hfields
  exact ⟨s, hs, hfields.1, conserved_iff id 1 1 1 hs hfields.2⟩

/-- A client connects, logs in and goes away; its session is closed. -/
def closesLoggedIn : List ServerStep :=
  [.maker, .addSession 0, .setSessionUID 0, .processRecv 0, .handleRead 0, .dispatch 0, .doRead 0, .popPacket 0, .getSession 0,
    .handlePacket 0 (some (.LoginReq "a" "b")), .handled 0, .handleWrite 0 false, .readError 0, .pushTask 0, .popTask 1,
    .processIoTask 1, .removeSession 1, .releaseSession 1]

/-- Not every quiet state has its objects in the pool: at the end of `closesLoggedIn` all is quiet, and the one session object is
not there. -/
theorem not_every_quiescent_conserved : ¬∀ (ls : List ServerStep) (s : Server),
    (serverSystem id 1 1 1).run (Server.init 1) ls = some s → s.Quiescent id 1 1 → s.Conserved := by
  intro hall
  have hrun : ((serverSystem id 1 1 1).run (Server.init 1) closesLoggedIn).map
      (fun s => (decide (s.Quiescent id 1 1), decide s.Conserved)) = some (true, false) := by decide
  obtain ⟨s, hs, hfields⟩ := Option.map_eq_some_iff.1 hrun
  simp only [Prod.mk.injEq, decide_eq_true_eq, decide_eq_false_iff_not] at hfields
  exact hfields.2 (hall closesLoggedIn s hs hfields.1)

end ProjectYJ
