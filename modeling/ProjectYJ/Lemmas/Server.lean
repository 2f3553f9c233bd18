import ProjectYJ.Lemmas.Chat
import ProjectYJ.Lemmas.Connections
import ProjectYJ.Server

/-!
# Steps of the server

`ServerMoves` says what each step does and when it can happen, one branch at a time. `ServerInv` is what holds in every state
that can be reached, whatever the UIDs are: what a handler, a worker or a player refers to is still the session it was.
-/

namespace ProjectYJ

open Server

open RecvState (workerIndex)

/-- What a step does, and when. -/
inductive ServerMoves (stringToUTF8 : String → String) (n m : Nat) (s : Server) : ServerStep → Server → Prop where
  | maker {conns} (h : connStep (n + m) s.conns .maker = some conns) :
      ServerMoves stringToUTF8 n m s .maker { s with conns := conns }
  | addSession {a conns} (h : connStep (n + m) s.conns (.addSession a) = some conns) :
      ServerMoves stringToUTF8 n m s (.addSession a) { s with conns := conns }
  | setSessionUID {a conns} (h : connStep (n + m) s.conns (.setSessionUID a) = some conns) :
      ServerMoves stringToUTF8 n m s (.setSessionUID a)
        ({ s with conns := conns }.setSession a { s.chat.session a with sessionUID := s.conns.tables.nextUID })
  | processRecv {a conns} (h : connStep (n + m) s.conns (.onConnected a) = some conns) :
      ServerMoves stringToUTF8 n m s (.processRecv a) ({ s with conns := conns }.setReading a .waiting)
  | handleRead {a} (h : s.reading a = .waiting) :
      ServerMoves stringToUTF8 n m s (.handleRead a)
        ({ s with sessionBuffers := insert (s.uid a) s.sessionBuffers }.setReading a .receiving)
  | overflow {a} (h : s.reading a = .receiving) :
      ServerMoves stringToUTF8 n m s (.overflow a) (s.setReading a .overflowing)
  | pushOverflow {a} (h : s.reading a = .overflowing) :
      ServerMoves stringToUTF8 n m s (.pushOverflow a) ((s.pushTask a).setReading a .receiving)
  | dispatch {a c} (h : s.reading a = .receiving) (hkey : s.uid a ∈ s.sessionBuffers) (hc : s.conns.conn a = some c) :
      ServerMoves stringToUTF8 n m s (.dispatch a) (s.dispatch n a c)
  | doRead {a} (h : s.reading a = .receiving) : ServerMoves stringToUTF8 n m s (.doRead a) (s.setReading a .waiting)
  | readError {a} (h : s.reading a = .waiting) :
      ServerMoves stringToUTF8 n m s (.readError a) ((s.processDisconnect a).setReading a .idle)
  | handleWrite {a} (h : 0 < s.writes a) :
      ServerMoves stringToUTF8 n m s (.handleWrite a false)
        { s with writes := Function.update s.writes a (s.writes a - 1) }
  | writeError {a} (h : 0 < s.writes a) :
      ServerMoves stringToUTF8 n m s (.handleWrite a true)
        { s.processDisconnect a with
          writes := Function.update (s.processDisconnect a).writes a ((s.processDisconnect a).writes a - 1) }
  | pushTask {a} (h : 0 < s.disconnecting a) :
      ServerMoves stringToUTF8 n m s (.pushTask a)
        { s.pushTask a with disconnecting := Function.update s.disconnecting a (s.disconnecting a - 1) }
  | popPacket {w item rest} (hw : w < n) (h : s.worker w = .idle) (hq : s.packetQueue w = item :: rest) :
      ServerMoves stringToUTF8 n m s (.popPacket w)
        ({ s with packetQueue := Function.update s.packetQueue w rest }.setWorker w (.popped item))
  | drop {w item conns} (hw : s.worker w = .popped item)
      (h : connStep (n + m) s.conns (.getSession w item.sessionId) = some conns)
      (hg : s.conns.tables.getSession item.sessionId = none) :
      ServerMoves stringToUTF8 n m s (.getSession w)
        ({ s with conns := conns, dropped := s.dropped ++ [item] }.setWorker w .idle)
  | find {w item a conns} (hw : s.worker w = .popped item)
      (h : connStep (n + m) s.conns (.getSession w item.sessionId) = some conns)
      (hg : s.conns.tables.getSession item.sessionId = some a) :
      ServerMoves stringToUTF8 n m s (.getSession w) ({ s with conns := conns }.setWorker w (.found item))
  | handleNothing {w item a} (hw : s.worker w = .found item) (ha : s.conns.tables.hand w = .got a) :
      ServerMoves stringToUTF8 n m s (.handlePacket w none)
        ({ s with handled := s.handled ++ [item] }.setWorker w (.handling item))
  | handlePacket {w item a request out} (hw : s.worker w = .found item) (ha : s.conns.tables.hand w = .got a)
      (h : s.chat.handle stringToUTF8 a request = .ok out) :
      ServerMoves stringToUTF8 n m s (.handlePacket w (some request))
        ({ s.answer out with handled := s.handled ++ [item] }.setWorker w (.handling item))
  | handled {w item conns} (hw : s.worker w = .handling item) (h : connStep (n + m) s.conns (.letGo w) = some conns) :
      ServerMoves stringToUTF8 n m s (.handled w) ({ s with conns := conns }.setWorker w .idle)
  | popTask {w task rest} (hw : n ≤ w ∧ w < n + m) (h : s.task w = none) (hq : s.taskQueue = task :: rest) :
      ServerMoves stringToUTF8 n m s (.popTask w) ({ s with taskQueue := rest }.setTask w (some task))
  | taskDrop {w task conns} (hw : s.task w = some task)
      (h : connStep (n + m) s.conns (.getSession w task.sessionUID) = some conns)
      (hg : s.conns.tables.getSession task.sessionUID = none) :
      ServerMoves stringToUTF8 n m s (.processIoTask w) ({ s with conns := conns }.setTask w none)
  | taskFind {w task a conns} (hw : s.task w = some task)
      (h : connStep (n + m) s.conns (.getSession w task.sessionUID) = some conns)
      (hg : s.conns.tables.getSession task.sessionUID = some a) :
      ServerMoves stringToUTF8 n m s (.processIoTask w) { s with conns := conns }
  | reconnect {w task conns} (hw : s.task w = some task) (h : connStep (n + m) s.conns (.letGo w) = some conns) :
      ServerMoves stringToUTF8 n m s (.setNetState w) ({ s with conns := conns }.setTask w none)
  | setNetState {w task a netState conns} (hw : s.task w = some task)
      (h : connStep (n + m) s.conns (.letGo w) = some conns) :
      ServerMoves stringToUTF8 n m s (.setNetState w)
        (({ s with conns := conns }.setSession a { s.chat.session a with netState := netState }).setTask w none)
  | removeSession {w task conns} (hw : s.task w = some task)
      (h : connStep (n + m) s.conns (.removeSession w) = some conns) :
      ServerMoves stringToUTF8 n m s (.removeSession w) { s with conns := conns }
  | releaseSession {w conns} (h : connStep (n + m) s.conns (.releaseSession w) = some conns) :
      ServerMoves stringToUTF8 n m s (.releaseSession w) ({ s with conns := conns }.setTask w none)
  | recycle {a conns} (hheld : ¬s.Held a) (howned : ¬s.Owned a) (h : connStep (n + m) s.conns (.recycle a) = some conns) :
      ServerMoves stringToUTF8 n m s (.recycle a) { s with conns := conns }

section

variable {stringToUTF8 : String → String} {n m : Nat} {s t : Server}

theorem connStep_eq_some {N : Nat} {l : TablesStep} {f : Server → Server} :
    s.connStep N l f = some t ↔ ∃ conns, ProjectYJ.connStep N s.conns l = some conns ∧ f { s with conns := conns } = t :=
  Option.map_eq_some_iff

/-- `ProcessDisconnect` goes on or ends there. -/
theorem Server.processDisconnect_eq (s : Server) (a : Nat) :
    s.processDisconnect a = { s with disconnecting := (s.processDisconnect a).disconnecting } := by
  unfold Server.processDisconnect
  split <;> rfl

/-- The moves are all a step can do. -/
theorem serverStep_moves {l : ServerStep} (h : serverStep stringToUTF8 n m s l = some t) :
    ServerMoves stringToUTF8 n m s l t := by
  cases l with
  | maker =>
    obtain ⟨conns, hc, rfl⟩ := connStep_eq_some.1 h
    exact .maker hc
  | addSession a =>
    obtain ⟨conns, hc, rfl⟩ := connStep_eq_some.1 h
    exact .addSession hc
  | setSessionUID a =>
    simp only [serverStep] at h
    obtain ⟨conns, hc, rfl⟩ := connStep_eq_some.1 h
    exact .setSessionUID hc
  | processRecv a =>
    simp only [serverStep] at h
    obtain ⟨conns, hc, rfl⟩ := connStep_eq_some.1 h
    exact .processRecv hc
  | handleRead a =>
    obtain ⟨hr, ⟨⟩⟩ := Option.ite_none_right_eq_some.1 h
    exact .handleRead hr
  | overflow a =>
    obtain ⟨⟨hr, -⟩, ⟨⟩⟩ := Option.ite_none_right_eq_some.1 h
    exact .overflow hr
  | pushOverflow a =>
    obtain ⟨hr, ⟨⟩⟩ := Option.ite_none_right_eq_some.1 h
    exact .pushOverflow hr
  | dispatch a =>
    obtain ⟨⟨hr, hkey⟩, h⟩ := Option.ite_none_right_eq_some.1 h
    obtain ⟨c, hc, rfl⟩ := Option.map_eq_some_iff.1 h
    exact .dispatch hr hkey hc
  | doRead a =>
    obtain ⟨hr, ⟨⟩⟩ := Option.ite_none_right_eq_some.1 h
    exact .doRead hr
  | readError a =>
    obtain ⟨hr, ⟨⟩⟩ := Option.ite_none_right_eq_some.1 h
    exact .readError hr
  | handleWrite a error =>
    obtain ⟨hw, h⟩ := Option.ite_none_right_eq_some.1 h
    cases error with
    | false =>
      cases h
      exact .handleWrite hw
    | true =>
      cases h
      exact .writeError hw
  | pushTask a =>
    obtain ⟨hd, ⟨⟩⟩ := Option.ite_none_right_eq_some.1 h
    exact .pushTask hd
  | popPacket w =>
    obtain ⟨⟨hw, hi⟩, h⟩ := Option.ite_none_right_eq_some.1 h
    split at h
    · cases h
    · rename_i item rest hq
      cases h
      exact .popPacket hw hi hq
  | getSession w =>
    simp only [serverStep] at h
    split at h
    · rename_i item hw
      obtain ⟨conns, hc, rfl⟩ := connStep_eq_some.1 h
      cases hg : s.conns.tables.getSession item.sessionId with
      | none => exact .drop hw hc hg
      | some a => exact .find hw hc hg
    · cases h
  | handlePacket w request =>
    simp only [serverStep] at h
    split at h
    · rename_i item a hw ha
      cases request with
      | none =>
        cases h
        exact .handleNothing hw ha
      | some request =>
        simp only at h
        split at h
        · cases h
        · rename_i out hout
          cases h
          exact .handlePacket hw ha hout
    · cases h
  | handled w =>
    simp only [serverStep] at h
    split at h
    · rename_i item hw
      obtain ⟨conns, hc, rfl⟩ := connStep_eq_some.1 h
      exact .handled hw hc
    · cases h
  | popTask w =>
    obtain ⟨⟨hw, hlt, ht⟩, h⟩ := Option.ite_none_right_eq_some.1 h
    split at h
    · cases h
    · rename_i task rest hq
      cases h
      exact .popTask ⟨hw, hlt⟩ ht hq
  | processIoTask w =>
    simp only [serverStep] at h
    split at h
    · rename_i task hw
      obtain ⟨conns, hc, rfl⟩ := connStep_eq_some.1 h
      cases hg : s.conns.tables.getSession task.sessionUID with
      | none => exact .taskDrop hw hc hg
      | some a => exact .taskFind hw hc hg
    · cases h
  | setNetState w =>
    simp only [serverStep] at h
    split at h
    · rename_i task a hw ha
      obtain ⟨-, h⟩ := Option.ite_none_left_eq_some.1 h
      obtain ⟨conns, hc, rfl⟩ := connStep_eq_some.1 h
      split
      · exact .reconnect hw hc
      · exact .setNetState hw hc
    · cases h
  | removeSession w =>
    simp only [serverStep] at h
    split at h
    · rename_i task hw
      obtain ⟨-, h⟩ := Option.ite_none_right_eq_some.1 h
      obtain ⟨conns, hc, rfl⟩ := connStep_eq_some.1 h
      exact .removeSession hw hc
    · cases h
  | releaseSession w =>
    simp only [serverStep] at h
    obtain ⟨conns, hc, rfl⟩ := connStep_eq_some.1 h
    exact .releaseSession hc
  | recycle a =>
    obtain ⟨hno, h⟩ := Option.ite_none_left_eq_some.1 h
    obtain ⟨conns, hc, rfl⟩ := connStep_eq_some.1 h
    exact .recycle (fun hh => hno (Or.inl hh)) (fun ho => hno (Or.inr ho)) hc

end

/-- A thread whose `GetSession` finds a session holds it. -/
theorem connStep_found {N : Nat} {s t : Connections} {w a : Nat} {u : Int} (h : connStep N s (.getSession w u) = some t)
    (hg : s.tables.getSession u = some a) : t.tables.hand w = .got a ∧ t.tables.uid a = s.tables.uid a := by
  obtain ⟨-, -, ⟨hnone, -⟩ | ⟨b, hb, ht⟩⟩ := tablesStep_getSession (connStep_tables h).1
  · cases hnone.symm.trans hg
  · obtain rfl := Option.some.inj (hg.symm.trans hb)
    rw [ht]
    exact ⟨Function.update_self .., rfl⟩

/-! ## The invariant -/

/-- What a read, a write, a player or a worker refers to is a connected session; the sessions that players and items come from
have a receive buffer; and the items are with the worker of their session. -/
structure ServerInv (n m : Nat) (s : Server) : Prop where
  conns : ConnInv (n + m) s.conns
  owners : OwnerInv s.chat
  held : ∀ a, s.Held a → s.conns.tables.stage a = .connected
  players : ∀ p < s.chat.playersMade, s.conns.tables.stage (s.chat.player p).ownerSession = .connected ∧
    s.uid (s.chat.player p).ownerSession ∈ s.sessionBuffers
  queued : ∀ i, ∀ item ∈ s.packetQueue i, i = workerIndex n item.sessionId ∧ item.sessionId ∈ s.sessionBuffers
  waiting : ∀ w item, (s.worker w).waiting? = some item → item.sessionId ∈ s.sessionBuffers
  found : ∀ w item, s.worker w = .found item → ∃ a, s.conns.tables.hand w = .got a ∧ s.uid a = item.sessionId
  worker : ∀ w, s.worker w ≠ .idle → w < n
  task : ∀ w, s.task w ≠ none → n ≤ w ∧ w < n + m

section

variable {stringToUTF8 : String → String} {n m : Nat} {s t : Server}

namespace ServerInv

theorem init (n m poolSize : Nat) : ServerInv n m (Server.init poolSize) where
  conns := ConnInv.init (n + m) poolSize
  owners := ⟨fun _ _ h => absurd h List.not_mem_nil, fun _ h => absurd h (Nat.not_lt_zero _), fun _ _ h => absurd h List.not_mem_nil⟩
  held a h := by
    rcases h with h | h | h
    · exact absurd rfl h
    · exact absurd h (Nat.lt_irrefl 0)
    · exact absurd h (Nat.lt_irrefl 0)
  players _ h := absurd h (Nat.not_lt_zero _)
  queued _ _ h := absurd h List.not_mem_nil
  waiting _ _ h := nomatch h
  found _ _ h := nomatch h
  worker _ h := absurd rfl h
  task _ h := absurd rfl h

/-- A session with a player is owned: the player is in its `m_Player`, and the object was made. -/
theorem owned (hs : ServerInv n m s) {p : Nat} (hp : p < s.chat.playersMade) : s.Owned (s.chat.player p).ownerSession := by
  refine ⟨p, hp, rfl, Or.inl ⟨_, ?_, hs.owners.owner p hp⟩⟩
  refine Nat.lt_of_not_le fun hle => ?_
  have hst := (hs.players p hp).1
  rw [hs.conns.pool.unmade _ hle] at hst
  cases hst

/-- A step of the session tables by no worker that has found a session, and which recycles none that is in use. -/
theorem conns_step (hs : ServerInv n m s) {l : TablesStep} {conns : Connections}
    (h : connStep (n + m) s.conns l = some conns) (hthread : ∀ w item, l.thread? = some w → s.worker w ≠ .found item)
    (hrecycle : ∀ a, l = .recycle a → ¬s.Held a ∧ ¬s.Owned a) : ServerInv n m { s with conns := conns } where
  conns := hs.conns.step h
  owners := hs.owners
  held a ha := (hs.conns.connected_step h (hs.held a ha) fun hl => (hrecycle a hl).1 ha).1
  players p hp := by
    obtain ⟨hst, hkey⟩ := hs.players p hp
    obtain ⟨h1, h2, -⟩ := hs.conns.connected_step h hst fun hl => (hrecycle _ hl).2 (hs.owned hp)
    refine ⟨h1, ?_⟩
    simp only [Server.uid, h2]
    exact hkey
  queued := hs.queued
  waiting := hs.waiting
  found w item hw := by
    obtain ⟨a, ha, huid⟩ := hs.found w item hw
    have hhand := connStep_hand h (w := w) fun hl => hthread w item hl hw
    obtain ⟨-, h2, -⟩ := hs.conns.connected_step h (hs.conns.holds w a (Or.inl ha)).2 (hs.conns.recycle_ne h (Or.inl ha))
    exact ⟨a, hhand.trans ha, h2.trans huid⟩
  worker := hs.worker
  task := hs.task

/-- Tasks that are queued, and what is recorded of the items, are not part of the invariant. -/
theorem record (hs : ServerInv n m s) (taskQueue : List IoTask) (handled dropped : List ServerItem) :
    ServerInv n m { s with taskQueue := taskQueue, handled := handled, dropped := dropped } :=
  ⟨hs.conns, hs.owners, hs.held, hs.players, hs.queued, hs.waiting, hs.found, hs.worker, hs.task⟩

/-- A worker goes on: with the item it had, or with one from its queue. -/
theorem setWorker (hs : ServerInv n m s) {w : Nat} (hw : w < n) (worker : PacketWorker)
    (hitem : ∀ item, worker.waiting? = some item → item.sessionId ∈ s.sessionBuffers)
    (hfound : ∀ item, worker = .found item → ∃ a, s.conns.tables.hand w = .got a ∧ s.uid a = item.sessionId) :
    ServerInv n m (s.setWorker w worker) := by
  have hworker : ∀ v, (s.setWorker w worker).worker v = if v = w then worker else s.worker v := fun v => Function.update_apply ..
  refine ⟨hs.conns, hs.owners, hs.held, hs.players, hs.queued, ?_, ?_, ?_, hs.task⟩
  · intro v item hv
    rw [hworker] at hv
    split at hv
    · exact hitem item hv
    · exact hs.waiting v item hv
  · intro v item hv
    rw [hworker] at hv
    split at hv
    · rename_i hvw
      subst hvw
      exact hfound item hv
    · exact hs.found v item hv
  · intro v hv
    rw [hworker] at hv
    split at hv
    · rename_i hvw
      exact hvw ▸ hw
    · exact hs.worker v hv

/-- A task worker takes a task, or is done with one. -/
theorem setTask (hs : ServerInv n m s) {w : Nat} (task : Option IoTask) (hw : task ≠ none → n ≤ w ∧ w < n + m) :
    ServerInv n m (s.setTask w task) := by
  refine ⟨hs.conns, hs.owners, hs.held, hs.players, hs.queued, hs.waiting, hs.found, hs.worker, ?_⟩
  intro v hv
  by_cases hvw : v = w
  · subst hvw
    simp only [Server.setTask, Function.update_self] at hv
    exact hw hv
  · simp only [Server.setTask, Function.update_of_ne hvw] at hv
    exact hs.task v hv

/-- A session keeps its players. -/
theorem setSession (hs : ServerInv n m s) (a : Nat) {g : GameSession} (hg : g.players = (s.chat.session a).players) :
    ServerInv n m (s.setSession a g) := by
  have hplayers : ∀ b, ((s.setSession a g).chat.session b).players = (s.chat.session b).players := by
    intro b
    by_cases hba : b = a
    · subst hba
      simp [Server.setSession, hg]
    · simp [Server.setSession, hba]
  refine ⟨hs.conns, ⟨?_, ?_, hs.owners.members⟩, hs.held, hs.players, hs.queued, hs.waiting, hs.found, hs.worker, hs.task⟩
  · intro b p hp
    rw [hplayers] at hp
    exact hs.owners.owned b p hp
  · intro p hp
    rw [hplayers]
    exact hs.owners.owner p hp

/-- The handlers of a connected session go on. -/
theorem handlers (hs : ServerInv n m s) {a : Nat} (ha : s.conns.tables.stage a = .connected)
    (hother : ∀ b, b ≠ a → t.reading b = s.reading b ∧ t.writes b = s.writes b ∧ t.disconnecting b = s.disconnecting b)
    (hconns : t.conns = s.conns) (hchat : t.chat = s.chat) (hkeys : s.sessionBuffers ⊆ t.sessionBuffers)
    (hqueue : t.packetQueue = s.packetQueue) (hworker : t.worker = s.worker) (htask : t.task = s.task) :
    ServerInv n m t := by
  refine ⟨hconns ▸ hs.conns, hchat ▸ hs.owners, ?_, ?_, ?_, ?_, ?_, hworker ▸ hs.worker, htask ▸ hs.task⟩
  · intro b hb
    rw [hconns]
    by_cases hba : b = a
    · rw [hba]
      exact ha
    · obtain ⟨hr, hw, hd⟩ := hother b hba
      refine hs.held b ?_
      rw [Server.Held, ← hr, ← hw, ← hd]
      exact hb
  · intro p hp
    rw [hchat] at hp
    rw [hchat, Server.uid, hconns]
    exact ⟨(hs.players p hp).1, hkeys (hs.players p hp).2⟩
  · intro i item hitem
    rw [hqueue] at hitem
    exact ⟨(hs.queued i item hitem).1, hkeys (hs.queued i item hitem).2⟩
  · intro w item hw
    rw [hworker] at hw
    exact hkeys (hs.waiting w item hw)
  · intro w item hw
    rw [hworker] at hw
    simp only [Server.uid, hconns]
    exact hs.found w item hw

/-- A read or a write holds the session. -/
theorem connected_of_reading (hs : ServerInv n m s) {a : Nat} {reading : Reading} (h : s.reading a = reading)
    (hne : reading ≠ .idle) : s.conns.tables.stage a = .connected :=
  hs.held a (Or.inl (h ▸ hne))

theorem setReading (hs : ServerInv n m s) {a : Nat} (ha : s.conns.tables.stage a = .connected) (reading : Reading) :
    ServerInv n m (s.setReading a reading) :=
  hs.handlers ha (fun b hb => by simp [Server.setReading, hb]) rfl rfl (Finset.Subset.refl _) rfl rfl rfl

theorem processDisconnect (hs : ServerInv n m s) {a : Nat} (ha : s.conns.tables.stage a = .connected) :
    ServerInv n m (s.processDisconnect a) := by
  unfold Server.processDisconnect
  split
  · exact hs
  · exact hs.handlers ha (fun b hb => by simp [hb]) rfl rfl (Finset.Subset.refl _) rfl rfl rfl

theorem pushTask (hs : ServerInv n m s) {a : Nat} (ha : s.conns.tables.stage a = .connected) :
    ServerInv n m (s.pushTask a) :=
  (hs.setSession a (g := { s.chat.session a with netState := .Disconnect }) rfl).handlers ha
    (fun _ _ => ⟨rfl, rfl, rfl⟩) rfl rfl (Finset.Subset.refl _) rfl rfl rfl

theorem dispatch (hs : ServerInv n m s) {a : Nat} (hkey : s.uid a ∈ s.sessionBuffers) (c : Nat) :
    ServerInv n m (s.dispatch n a c) := by
  refine ⟨hs.conns, hs.owners, hs.held, hs.players, ?_, hs.waiting, hs.found, hs.worker, hs.task⟩
  intro i item hitem
  by_cases hi : i = workerIndex n (s.uid a)
  · subst hi
    simp only [Server.dispatch, Function.update_self, List.mem_append, List.mem_singleton] at hitem
    rcases hitem with hold | rfl
    · exact hs.queued _ item hold
    · exact ⟨rfl, hkey⟩
  · simp only [Server.dispatch, Function.update_of_ne hi] at hitem
    exact hs.queued i item hitem

/-- A request is handled: the player it makes, and what it sends, belong to the session or to other players. -/
theorem answer (hs : ServerInv n m s) {a : Nat} {request : ChatRequest} {out : Handled}
    (h : s.chat.handle stringToUTF8 a request = .ok out) (ha : s.conns.tables.stage a = .connected)
    (hkey : s.uid a ∈ s.sessionBuffers) : ServerInv n m (s.answer out) := by
  refine ⟨hs.conns, hs.owners.handle h, ?_, ?_, hs.queued, hs.waiting, hs.found, hs.worker, hs.task⟩
  · rintro b (hb | hb | hb)
    · exact hs.held b (Or.inl hb)
    · simp only [Server.answer] at hb
      by_cases hsent : b ∈ out.sends.map Prod.fst
      · obtain ⟨msg, hmsg, rfl⟩ := List.mem_map.1 hsent
        rcases handle_sends h hmsg with hmine | ⟨x, p, hp, howner⟩
        · exact hmine ▸ ha
        · exact howner ▸ (hs.players p (hs.owners.members x p hp)).1
      · rw [List.count_eq_zero_of_not_mem hsent] at hb
        exact hs.held b (Or.inr (Or.inl hb))
    · exact hs.held b (Or.inr (Or.inr hb))
  · intro p hp
    rcases handle_owners h with ⟨-, hnew⟩ | ⟨-, hsame⟩
    · simp only [Server.answer] at hp ⊢
      rw [hnew.playersMade] at hp
      rcases Nat.lt_succ_iff_lt_or_eq.1 hp with hlt | rfl
      · rw [hnew.player p hlt]
        exact hs.players p hlt
      · rw [hnew.new]
        exact ⟨ha, hkey⟩
    · simp only [Server.answer] at hp ⊢
      rw [hsame.owner]
      exact hs.players p (hsame.playersMade ▸ hp)

/-- A worker pops the first item of its queue. -/
theorem popQueue (hs : ServerInv n m s) {i : Int} {item : ServerItem} {rest : List ServerItem}
    (hq : s.packetQueue i = item :: rest) : ServerInv n m { s with packetQueue := Function.update s.packetQueue i rest } := by
  refine ⟨hs.conns, hs.owners, hs.held, hs.players, ?_, hs.waiting, hs.found, hs.worker, hs.task⟩
  intro j x hx
  by_cases hj : j = i
  · subst hj
    simp only [Function.update_self] at hx
    exact hs.queued j x (by rw [hq]; exact List.mem_cons_of_mem item hx)
  · simp only [Function.update_of_ne hj] at hx
    exact hs.queued j x hx

/-- A task worker is no packet worker. -/
theorem not_found_of_task (hs : ServerInv n m s) {w : Nat} {task : IoTask} (hw : s.task w = some task) {l : TablesStep}
    (hl : l.thread? = some w) (v : Nat) (item : ServerItem) (hv : l.thread? = some v) : s.worker v ≠ .found item := by
  intro hfound
  obtain rfl := Option.some.inj (hl.symm.trans hv)
  have h1 := hs.task w (by rw [hw]; exact nofun)
  have h2 := hs.worker w (by rw [hfound]; exact nofun)
  omega

/-- Every step keeps what holds of the server. -/
theorem moves (hs : ServerInv n m s) {l : ServerStep} (h : ServerMoves stringToUTF8 n m s l t) : ServerInv n m t := by
  cases h with
  | maker h => exact hs.conns_step h nofun nofun
  | addSession h => exact hs.conns_step h nofun nofun
  | setSessionUID h => exact (hs.conns_step h nofun nofun).setSession _ rfl
  | @processRecv a conns h =>
    refine (hs.conns_step h nofun nofun).setReading ?_ .waiting
    obtain ⟨_, ht⟩ := tablesStep_onConnected (connStep_tables h).1
    simp only [ht, stage_setStage, if_pos]
  | handleRead h =>
    exact hs.handlers (hs.connected_of_reading h nofun) (fun b hb => by simp [Server.setReading, hb]) rfl rfl
      (Finset.subset_insert _ _) rfl rfl rfl
  | overflow h => exact hs.setReading (hs.connected_of_reading h nofun) _
  | pushOverflow h =>
    have ha := hs.connected_of_reading h nofun
    exact (hs.pushTask ha).setReading ha _
  | dispatch h hkey hc => exact hs.dispatch hkey _
  | doRead h => exact hs.setReading (hs.connected_of_reading h nofun) _
  | readError h =>
    have ha := hs.connected_of_reading h nofun
    exact (hs.processDisconnect ha).setReading (by rw [processDisconnect_eq]; exact ha) _
  | @handleWrite a h =>
    exact hs.handlers (hs.held a (Or.inr (Or.inl h))) (fun b hb => by simp [hb]) rfl rfl (Finset.Subset.refl _) rfl rfl rfl
  | @writeError a h =>
    have ha := hs.held a (Or.inr (Or.inl h))
    exact (hs.processDisconnect ha).handlers (by rw [processDisconnect_eq]; exact ha)
      (fun b hb => by simp [hb]) rfl rfl (Finset.Subset.refl _) rfl rfl rfl
  | @pushTask a h =>
    have ha := hs.held a (Or.inr (Or.inr h))
    refine (hs.pushTask ha).handlers ha (fun b hb => ?_) rfl rfl (Finset.Subset.refl _) rfl rfl rfl
    simp only [Server.pushTask, Server.setSession, Function.update_of_ne hb]
    exact ⟨trivial, trivial, trivial⟩
  | @popPacket w item rest hw h hq =>
    refine (hs.popQueue hq).setWorker hw _ ?_ nofun
    intro i hi
    cases hi
    exact (hs.queued w item (by rw [hq]; exact List.mem_cons_self)).2
  | @drop w item conns hw h hg =>
    have hinv := (hs.conns_step h (fun v i hv => by cases hv; rw [hw]; exact nofun) nofun).setWorker
      (hs.worker w (by rw [hw]; exact nofun)) .idle nofun nofun
    exact hinv.record s.taskQueue s.handled (s.dropped ++ [item])
  | @find w item a conns hw h hg =>
    refine (hs.conns_step h (fun v i hv => by cases hv; rw [hw]; exact nofun) nofun).setWorker
      (hs.worker w (by rw [hw]; exact nofun)) _ ?_ ?_
    · intro i hi
      cases hi
      exact hs.waiting w item (by rw [hw]; rfl)
    · intro i hi
      cases hi
      obtain ⟨hhand, huid⟩ := connStep_found h hg
      exact ⟨a, hhand, huid.trans (hs.conns.manager _ a hg).2⟩
  | @handleNothing w item a hw ha =>
    have hinv := hs.setWorker (hs.worker w (by rw [hw]; exact nofun)) (.handling item) nofun nofun
    exact hinv.record s.taskQueue (s.handled ++ [item]) s.dropped
  | @handlePacket w item a request out hw ha h =>
    obtain ⟨b, hb, huid⟩ := hs.found w item hw
    obtain rfl := Hand.got.inj (ha.symm.trans hb)
    have hinv := (hs.answer h (hs.conns.holds w a (Or.inl ha)).2
      (by rw [huid]; exact hs.waiting w item (by rw [hw]; rfl))).setWorker
      (hs.worker w (by rw [hw]; exact nofun)) (.handling item) nofun nofun
    exact hinv.record s.taskQueue (s.handled ++ [item]) s.dropped
  | @handled w item conns hw h =>
    exact (hs.conns_step h (fun v i hv => by cases hv; rw [hw]; exact nofun) nofun).setWorker
      (hs.worker w (by rw [hw]; exact nofun)) .idle nofun nofun
  | @popTask w task rest hw h hq =>
    exact (hs.record rest s.handled s.dropped).setTask (some task) fun _ => hw
  | taskDrop hw h hg => exact (hs.conns_step h (hs.not_found_of_task hw rfl) nofun).setTask none nofun
  | taskFind hw h hg => exact hs.conns_step h (hs.not_found_of_task hw rfl) nofun
  | reconnect hw h => exact (hs.conns_step h (hs.not_found_of_task hw rfl) nofun).setTask none nofun
  | @setNetState w task a netState conns hw h =>
    exact ((hs.conns_step h (hs.not_found_of_task hw rfl) nofun).setSession a
      (g := { s.chat.session a with netState := netState }) rfl).setTask none nofun
  | removeSession hw h => exact hs.conns_step h (hs.not_found_of_task hw rfl) nofun
  | @releaseSession w conns h =>
    refine (hs.conns_step h ?_ nofun).setTask none nofun
    intro v item hv hw
    cases hv
    obtain ⟨a, ha, -⟩ := tablesStep_releaseSession (connStep_tables h).1
    obtain ⟨b, hb, -⟩ := hs.found w item hw
    cases ha.symm.trans hb
  | recycle hheld howned h =>
    refine hs.conns_step h nofun ?_
    intro b hb
    cases hb
    exact ⟨hheld, howned⟩

theorem run {poolSize : Nat} {ls : List ServerStep}
    (hr : (serverSystem stringToUTF8 n m poolSize).run (Server.init poolSize) ls = some s) : ServerInv n m s :=
  (serverSystem stringToUTF8 n m poolSize).run_invariant (fun _ _ _ hs h => hs.moves (serverStep_moves h))
    (ServerInv.init n m poolSize) hr

end ServerInv

end

end ProjectYJ
