import ProjectYJ.Lemmas.Server

/-!
# What a closed connection leaves behind

A connection leaves traces in four tables: the `SessionManager`, `m_Sessions`, the members of the chat rooms and
`m_SessionBuffers`. `CloseSession` undoes the first two. Nothing calls `ChatRoom::Leave`, and nothing removes a receive buffer:
a connection is torn down completely only if it never sent anything.
-/

namespace ProjectYJ

open Server

namespace Server

/-- No table refers to the connection: its UID is no key of the `SessionManager`, its session is not in `m_Sessions`, no room of
the `ChatRoomManager` has a player of it, and there is no receive buffer under its UID. -/
structure TornDown (s : Server) (c : Nat) : Prop where
  manager : s.conns.tables.getSession (toInt32 c) = none
  sessions : ∀ a ∈ s.conns.tables.sessions, s.conns.conn a ≠ some c
  rooms : ∀ k x, s.chat.getRoom k = some x → ∀ p ∈ s.chat.members x, s.conns.conn (s.chat.player p).ownerSession ≠ some c
  buffers : toInt32 c ∉ s.sessionBuffers

/-- Another connection has the same UID, which comes again after `2 ^ 32` of them, and is registered under it. -/
def UIDTaken (s : Server) (c : Nat) : Prop :=
  ∃ a d, s.conns.tables.getSession (toInt32 c) = some a ∧ s.conns.conn a = some d ∧ d ≠ c

/-- The step is no `HandleRead` of a session with this UID. -/
def ReadsNothing (sessionUID : Int) (s : Server) : ServerStep → Prop
  | .handleRead session => s.uid session ≠ sessionUID
  | _ => True

/-- The members of the rooms are players of connections that are not closed. -/
def MembersConnected (s : Server) : Prop :=
  ∀ k x, s.chat.getRoom k = some x → ∀ p ∈ s.chat.members x,
    ∃ c, s.conns.conn (s.chat.player p).ownerSession = some c ∧ c ∉ s.conns.closed

/-- A handler or a thread holds the session of the connection. -/
def InFlight (s : Server) (c : Nat) : Prop :=
  ∃ a, s.conns.conn a = some c ∧ (s.Held a ∨ ∃ w, (s.conns.tables.hand w).Holds a)

end Server

section

variable {stringToUTF8 : String → String} {n m : Nat} {s t : Server}

/-- A receive buffer comes with the first data under its UID, and stays. -/
theorem serverStep_sessionBuffers {l : ServerStep} (h : serverStep stringToUTF8 n m s l = some t) (u : Int) :
    u ∉ t.sessionBuffers ↔ u ∉ s.sessionBuffers ∧ s.ReadsNothing u l := by
  cases serverStep_moves h with
  | @handleRead a _ =>
    simp only [Server.setReading, Finset.mem_insert, not_or, Server.ReadsNothing]
    rw [and_comm, ne_comm]
  | readError | writeError =>
    rw [processDisconnect_eq]
    exact (and_iff_left trivial).symm
  | _ => exact (and_iff_left trivial).symm

namespace ServerInv

/-- An entry under the UID of a removed connection is one of another connection. -/
theorem getSession_eq_none_iff (hs : ServerInv n m s) {c : Nat} (hc : c ∈ s.conns.removed) :
    s.conns.tables.getSession (toInt32 c) = none ↔ ¬s.UIDTaken c := by
  constructor
  · rintro hnone ⟨a, d, ha, -⟩
    cases hnone.symm.trans ha
  · intro hfree
    cases hg : s.conns.tables.getSession (toInt32 c) with
    | none => rfl
    | some a =>
      obtain ⟨hst, huid⟩ := hs.conns.manager _ a hg
      obtain ⟨d, hd⟩ := hs.conns.conn_of_connected hst
      refine absurd ⟨a, d, hg, hd, ?_⟩ hfree
      rintro rfl
      exact (hs.conns.serves a d hd).manager (huid ▸ hg) hc

/-- The UIDs of the first `2 ^ 32` connections are all different. -/
theorem not_uidTaken (hs : ServerInv n m s) {c : Nat} (hc : c ∈ s.conns.removed)
    (hlt : s.conns.tables.created ≤ 4294967296) : ¬s.UIDTaken c := by
  rintro ⟨a, d, hg, hd, hne⟩
  have h := hs.conns.serves a d hd
  have huid := h.uid.symm.trans (hs.conns.manager _ a hg).2
  have hclt := hs.conns.removed c hc
  have hdlt := h.lt
  unfold toInt32 at huid
  omega

/-- The owner of a member of a room serves a connection, and there is a receive buffer under its UID. -/
theorem member_owner (hs : ServerInv n m s) {x p : Nat} (hp : p ∈ s.chat.members x) :
    ∃ c, s.conns.conn (s.chat.player p).ownerSession = some c ∧ toInt32 c ∈ s.sessionBuffers := by
  obtain ⟨hst, hkey⟩ := hs.players p (hs.owners.members x p hp)
  obtain ⟨c, hc⟩ := hs.conns.conn_of_connected hst
  refine ⟨c, hc, ?_⟩
  rw [← (hs.conns.serves _ c hc).uid]
  exact hkey

/-- A closed connection is torn down if there is no receive buffer under its UID, and no other connection has it. -/
theorem tornDown (hs : ServerInv n m s) {c : Nat} (hc : c ∈ s.conns.closed) :
    s.TornDown c ↔ toInt32 c ∉ s.sessionBuffers ∧ ¬s.UIDTaken c := by
  have hiff := hs.getSession_eq_none_iff (hs.conns.closed c hc)
  constructor
  · intro h
    exact ⟨h.buffers, hiff.1 h.manager⟩
  · rintro ⟨hbuffers, hfree⟩
    refine ⟨hiff.2 hfree, ?_, ?_, hbuffers⟩
    · intro a ha hca
      exact (hs.conns.serves a c hca).sessions ha hc
    · intro k x _ p hp hcp
      obtain ⟨d, hd, hkey⟩ := hs.member_owner hp
      obtain rfl := Option.some.inj (hcp.symm.trans hd)
      exact hbuffers hkey

end ServerInv

end

/-- In every run: no table refers to a connection that `CloseSession` has completed for exactly when no data was ever received
under its UID and no other connection with that UID is registered; and where no data was received under the UIDs of the
closed connections, the members of the rooms are players of connections that are not closed. -/
theorem tornDown_iff (stringToUTF8 : String → String) (numWorkers numTaskWorkers poolSize : Nat) {ls : List ServerStep}
    {s : Server}
    (hr : (serverSystem stringToUTF8 numWorkers numTaskWorkers poolSize).run (Server.init poolSize) ls = some s) :
    (∀ c ∈ s.conns.closed, s.TornDown c ↔
      (serverSystem stringToUTF8 numWorkers numTaskWorkers poolSize).Meets (ReadsNothing (toInt32 c)) (Server.init poolSize) ls ∧
        ¬s.UIDTaken c) ∧
      ((∀ c ∈ s.conns.closed,
        (serverSystem stringToUTF8 numWorkers numTaskWorkers poolSize).Meets (ReadsNothing (toInt32 c)) (Server.init poolSize)
          ls) → s.MembersConnected) := by
  have hinv := ServerInv.run hr
  have hbuffers : ∀ u, u ∉ s.sessionBuffers ↔
      (serverSystem stringToUTF8 numWorkers numTaskWorkers poolSize).Meets (ReadsNothing u) (Server.init poolSize) ls := by
    intro u
    have hiff := (serverSystem stringToUTF8 numWorkers numTaskWorkers poolSize).meets_iff
      (P := fun r => u ∉ r.sessionBuffers) (fun _ _ _ h => serverStep_sessionBuffers h u) hr
    exact hiff.trans (and_iff_right (Finset.notMem_empty u))
  refine ⟨?_, ?_⟩
  · intro c hc
    rw [hinv.tornDown hc, hbuffers]
  · intro hsilent k x _ p hp
    obtain ⟨c, hc, hkey⟩ := hinv.member_owner hp
    exact ⟨c, hc, fun hclosed => (hbuffers _).2 (hsilent c hclosed) hkey⟩

/-- A client connects, sends nothing and goes away; its session is closed and back in the pool. -/
def closesSilently : List ServerStep :=
  [.maker, .addSession 0, .setSessionUID 0, .processRecv 0, .readError 0, .pushTask 0, .popTask 1, .processIoTask 1,
    .removeSession 1, .releaseSession 1, .recycle 0]

/-- `tornDown_iff` at the run `closesSilently`. -/
theorem tornDown_iff_closesSilently : ∃ s, (serverSystem id 1 1 1).run (Server.init 1) closesSilently = some s ∧
    s.conns.closed = [0] ∧ s.TornDown 0 ∧ s.MembersConnected := by
  have hrun : ((serverSystem id 1 1 1).run (Server.init 1) closesSilently).map
      (fun s => (s.conns.closed, s.conns.tables.created)) = some ([0], 1) := by decide
  obtain ⟨s, hs, hfields⟩ := Option.map_eq_some_iff.1 hrun
  simp only [Prod.mk.injEq] at hfields
  obtain ⟨hclosed, hcr⟩ := hfields
  have hmem : 0 ∈ s.conns.closed := by rw [hclosed]; exact List.mem_singleton_self 0
  have hinv := ServerInv.run hs
  have hsilent : (serverSystem id 1 1 1).Meets (ReadsNothing 0) (Server.init 1) closesSilently := by
    simp [closesSilently, Lts.meets_cons, ReadsNothing]
  obtain ⟨hiff, hconnected⟩ := tornDown_iff id 1 1 1 hs
  refine ⟨s, hs, hclosed, (hiff 0 hmem).2 ⟨hsilent, hinv.not_uidTaken (hinv.conns.closed 0 hmem) (by omega)⟩, hconnected ?_⟩
  intro c hc
  rw [hclosed] at hc
  exact List.mem_singleton.1 hc ▸ hsilent

/-- A client connects, logs in, creates a room and goes away; its session is closed. -/
def closesInRoom : List ServerStep :=
  [.maker, .addSession 0, .setSessionUID 0, .processRecv 0, .handleRead 0, .dispatch 0, .dispatch 0, .doRead 0, .popPacket 0,
    .getSession 0, .handlePacket 0 (some (.LoginReq "a" "b")), .handled 0, .popPacket 0, .getSession 0,
    .handlePacket 0 (some (.CreateChatRoomReq "r")), .handled 0, .handleWrite 0 false, .handleWrite 0 false, .readError 0,
    .pushTask 0, .popTask 1, .processIoTask 1, .removeSession 1, .releaseSession 1]

/-- Not every closed connection is torn down: after `closesInRoom` no handler is in flight any more, and the player of the
closed connection is still in its room. -/
theorem not_every_connection_tornDown : ¬∀ (ls : List ServerStep) (s : Server),
    (serverSystem id 1 1 1).run (Server.init 1) ls = some s → ∀ c ∈ s.conns.closed, ¬s.InFlight c → s.TornDown c := by
  intro hall
  have hrun : ((serverSystem id 1 1 1).run (Server.init 1) closesInRoom).map (fun s : Server =>
      (s.conns.closed, decide (s.conns.conn 0 = some 0 ∧ ¬s.Held 0 ∧ ∀ w ∈ List.range 2, ¬(s.conns.tables.hand w).Holds 0),
        s.chat.getRoom 1, (s.chat.members 0).map fun p => (p, (s.chat.player p).ownerSession))) =
      some ([0], true, some 0, [(0, 0)]) := by decide
  obtain ⟨s, hs, hfields⟩ := Option.map_eq_some_iff.1 hrun
  simp only [Prod.mk.injEq, decide_eq_true_eq] at hfields
  obtain ⟨hclosed, ⟨hconn, hheld, hhand⟩, hroom, hmembers⟩ := hfields
  obtain ⟨p, hp, howner⟩ := List.mem_map.1 (hmembers ▸ List.mem_singleton_self (0, 0))
  have hinv := ServerInv.run hs
  have hquiet : ¬s.InFlight 0 := by
    rintro ⟨a, ha, hflight⟩
    obtain rfl := hinv.conns.inj a 0 0 ha hconn
    rcases hflight with hflight | ⟨w, hw⟩
    · exact hheld hflight
    · exact hhand w (List.mem_range.2 (hinv.conns.holds w 0 hw).1) hw
  have htorn := hall closesInRoom s hs 0 (by rw [hclosed]; exact List.mem_singleton_self 0) hquiet
  refine htorn.rooms 1 0 hroom p hp ?_
  rw [(Prod.mk.inj howner).2, hconn]

end ProjectYJ
