import ProjectYJ.GameSession

/-!
# Recycled sessions

What a new life of a session object begins with. Everything that is not written by `InitSession`, `SetService` and
`SetSessionUID` comes from the lives before: the buffer comes back empty and the list of players too, but a `NetState` of
`Disconnect` is never set back. `recycled_iff` says which objects in the pool are as good as new ones.
-/

namespace ProjectYJ

open GameSession

/-- Two receive buffers that no operation tells apart: sizes, positions and unread bytes are the same. What else the storage
holds is written over before it is read. -/
structure PacketBuffer.Alike (b b' : PacketBuffer) : Prop where
  capacity : b.capacity = b'.capacity
  bufferSize : b.bufferSize = b'.bufferSize
  readPos : b.readPos = b'.readPos
  writePos : b.writePos = b'.writePos
  unread : b.unread = b'.unread

/-- Two session objects in the same state, up to what the storage of the buffer holds outside of the unread bytes. -/
structure GameSession.Alike (g g' : GameSession) : Prop where
  ioContext : g.ioContext = g'.ioContext
  socket : g.socket = g'.socket
  isRunning : g.isRunning = g'.isRunning
  service : g.service = g'.service
  sessionUID : g.sessionUID = g'.sessionUID
  packetBuffer : g.packetBuffer.Alike g'.packetBuffer
  netState : g.netState = g'.netState
  seqNum : g.seqNum = g'.seqNum
  players : g.players = g'.players

/-- Nothing was done yet to the connection but reads, requests and closing. -/
def Undisturbed (ls : List LifeStep) : Prop :=
  LifeStep.processDisconnect ∉ ls ∧ ∀ c k v u, LifeStep.create c k v u ∉ ls

/-- What a session made of the object should be: in the state of one made of a newly allocated object, and such that its first
`ProcessDisconnect`, whatever was read and handled before, pushes one task for its UID. -/
structure AsGoodAsNew (s : SessionLife) : Prop where
  alike : ∀ ioContext socket service sessionUID,
    (s.object.create ioContext socket service sessionUID).Alike (new.create ioContext socket service sessionUID)
  pushes : ∀ ioContext socket service sessionUID ls t t', Undisturbed ls →
    lifeSystem.run s (.create ioContext socket service sessionUID :: ls) = some t →
    lifeStep t .processDisconnect = some t' → t'.tasks = t.tasks ++ [⟨sessionUID, .Disconnect⟩]

/-! ## What one step does to the object -/

/-- A read that finds nothing unread leaves nothing unread, and both positions at 0. -/
theorem handleRead_eq (g : GameSession) {data : List UInt8} (hpos : g.packetBuffer.readPos = g.packetBuffer.writePos)
    (hfits : data.length ≤ g.packetBuffer.freeSize) :
    g.handleRead data = { g with packetBuffer :=
      { g.packetBuffer with
        storage := g.packetBuffer.storage.write g.packetBuffer.writePos data, readPos := 0, writePos := 0 } } := by
  have hread : data.length ≤ (g.packetBuffer.onWrite data).2.dataSize := by
    simp only [PacketBuffer.onWrite_of_fits _ hfits, PacketBuffer.dataSize]
    omega
  have hclear : ((g.packetBuffer.onWrite data).2.onRead data.length).2.dataSize = 0 := by
    rw [PacketBuffer.onRead_of_le _ hread]
    simp only [PacketBuffer.onWrite_of_fits _ hfits, PacketBuffer.dataSize]
    omega
  rw [handleRead, PacketBuffer.clear, if_pos hclear, PacketBuffer.onRead_of_le _ hread, PacketBuffer.onWrite_of_fits _ hfits]

theorem processDisconnect_object (g : GameSession) : g.processDisconnect.1 = { g with netState := .Disconnect } := by
  unfold processDisconnect
  split
  · rename_i h
    simp only [← h]
  · rfl

/-- What holds of an object between two steps: nothing is unread, nothing was set that no step sets, and in the pool it has no
player. -/
structure LifeInv (s : SessionLife) : Prop where
  isRunning : s.object.isRunning = false
  seqNum : s.object.seqNum = 0
  capacity : s.object.packetBuffer.capacity = 655360
  bufferSize : s.object.packetBuffer.bufferSize = 65536
  readPos : s.object.packetBuffer.readPos = 0
  writePos : s.object.packetBuffer.writePos = 0
  players : s.closed = none → s.object.players = []

theorem LifeInv.init : LifeInv lifeSystem.init := ⟨rfl, rfl, rfl, rfl, rfl, rfl, fun _ => rfl⟩

theorem LifeInv.step {s t : SessionLife} {l : LifeStep} (hs : LifeInv s) (h : lifeStep s l = some t) : LifeInv t := by
  cases l with
  | create ioContext socket service sessionUID =>
    obtain ⟨_, ⟨⟩⟩ := Option.ite_none_right_eq_some.1 h
    exact ⟨hs.isRunning, hs.seqNum, rfl, rfl, hs.readPos, hs.writePos, fun hc => by cases hc⟩
  | read data =>
    obtain ⟨⟨hc, hfits⟩, ⟨⟩⟩ := Option.ite_none_right_eq_some.1 h
    rw [handleRead_eq _ (hs.readPos.trans hs.writePos.symm) hfits]
    exact ⟨hs.isRunning, hs.seqNum, hs.capacity, hs.bufferSize, rfl, rfl, fun h0 => absurd h0 hc⟩
  | login player =>
    obtain ⟨hc, ⟨⟩⟩ := Option.ite_none_right_eq_some.1 h
    exact ⟨hs.isRunning, hs.seqNum, hs.capacity, hs.bufferSize, hs.readPos, hs.writePos, fun h0 => absurd h0 hc⟩
  | request =>
    obtain ⟨_, ⟨⟩⟩ := Option.ite_none_right_eq_some.1 h
    exact hs
  | processDisconnect =>
    obtain ⟨hc, ⟨⟩⟩ := Option.ite_none_right_eq_some.1 h
    rw [processDisconnect_object]
    exact ⟨hs.isRunning, hs.seqNum, hs.capacity, hs.bufferSize, hs.readPos, hs.writePos, fun h0 => absurd h0 hc⟩
  | closeSession direct =>
    obtain ⟨_, ⟨⟩⟩ := Option.ite_none_right_eq_some.1 h
    exact ⟨hs.isRunning, hs.seqNum, hs.capacity, hs.bufferSize, hs.readPos, hs.writePos, fun h0 => by cases h0⟩
  | release =>
    obtain ⟨⟨_, hp⟩, ⟨⟩⟩ := Option.ite_none_right_eq_some.1 h
    exact ⟨hs.isRunning, hs.seqNum, hs.capacity, hs.bufferSize, hs.readPos, hs.writePos, fun _ => hp⟩

/-- Only `ProcessDisconnect` writes the `NetState`. -/
theorem lifeStep_netState {s t : SessionLife} {l : LifeStep} (h : lifeStep s l = some t) :
    t.object.netState = if l = .processDisconnect then .Disconnect else s.object.netState := by
  cases l with
  | processDisconnect =>
    obtain ⟨_, ⟨⟩⟩ := Option.ite_none_right_eq_some.1 h
    rw [processDisconnect_object, if_pos rfl]
  | create | read | login | request | closeSession | release =>
    obtain ⟨_, ⟨⟩⟩ := Option.ite_none_right_eq_some.1 h
    rfl

/-- Only `CreateSession` writes the UID. -/
theorem lifeStep_sessionUID {s t : SessionLife} {l : LifeStep} (hl : ∀ c k v u, l ≠ .create c k v u)
    (h : lifeStep s l = some t) : t.object.sessionUID = s.object.sessionUID := by
  cases l with
  | create c k v u => exact absurd rfl (hl c k v u)
  | processDisconnect =>
    obtain ⟨_, ⟨⟩⟩ := Option.ite_none_right_eq_some.1 h
    rw [processDisconnect_object]
  | read | login | request | closeSession | release =>
    obtain ⟨_, ⟨⟩⟩ := Option.ite_none_right_eq_some.1 h
    rfl

/-! ## Runs -/

/-- The `NetState` at the end of a run is `Disconnect` as soon as there was a `ProcessDisconnect`, in whichever life. -/
theorem run_netState {s t : SessionLife} {ls : List LifeStep} (h : lifeSystem.run s ls = some t) :
    t.object.netState = if .processDisconnect ∈ ls then .Disconnect else s.object.netState := by
  induction ls generalizing s with
  | nil =>
    obtain rfl := Option.some.inj h
    simp
  | cons l ls ih =>
    obtain ⟨r, hr, hrun⟩ := Option.bind_eq_some_iff.1 h
    rw [ih hrun, lifeStep_netState hr]
    by_cases hl : l = .processDisconnect
    · simp [hl]
    · simp [hl, Ne.symm hl]

theorem run_sessionUID {s t : SessionLife} {ls : List LifeStep} (hls : ∀ c k v u, .create c k v u ∉ ls)
    (h : lifeSystem.run s ls = some t) : t.object.sessionUID = s.object.sessionUID := by
  induction ls generalizing s with
  | nil =>
    obtain rfl := Option.some.inj h
    rfl
  | cons l ls ih =>
    obtain ⟨r, hr, hrun⟩ := Option.bind_eq_some_iff.1 h
    rw [ih (fun c k v u hm => hls c k v u (List.mem_cons_of_mem _ hm)) hrun]
    exact lifeStep_sessionUID (fun c k v u hl => hls c k v u (hl ▸ List.mem_cons_self)) hr

/-- A session made of an object with an empty buffer, no player and no trace of a disconnect is in the state of a new one. -/
theorem create_alike {s : SessionLife} (hs : LifeInv s) (hpool : s.closed = none) (hnet : s.object.netState = .None)
    (ioContext socket service : Nat) (sessionUID : Int) :
    (s.object.create ioContext socket service sessionUID).Alike (new.create ioContext socket service sessionUID) := by
  refine ⟨rfl, rfl, hs.isRunning, rfl, rfl, ⟨rfl, rfl, hs.readPos, hs.writePos, ?_⟩, hnet, hs.seqNum, hs.players hpool⟩
  have hsize : (s.object.packetBuffer.init 65536).dataSize = 0 := by
    simp [PacketBuffer.dataSize, PacketBuffer.init, hs.writePos]
  show (s.object.packetBuffer.init 65536).unread = []
  rw [← List.length_eq_zero_iff, PacketBuffer.unread_length, hsize]

theorem AsGoodAsNew.netState {s : SessionLife} (h : AsGoodAsNew s) : s.object.netState = .None :=
  (h.alike 0 0 0 0).netState

/-- An object in the pool is as good as a new one exactly when no life of it so far had a `ProcessDisconnect`. -/
theorem recycled_iff {ls : List LifeStep} {s : SessionLife} (h : lifeSystem.run lifeSystem.init ls = some s)
    (hpool : s.closed = none) : AsGoodAsNew s ↔ .processDisconnect ∉ ls := by
  have hs : LifeInv s := lifeSystem.run_invariant (fun _ _ _ => LifeInv.step) LifeInv.init h
  have hnet := run_netState h
  constructor
  · intro hnew hmem
    rw [if_pos hmem, hnew.netState] at hnet
    cases hnet
  · intro hmem
    rw [if_neg hmem] at hnet
    refine ⟨create_alike hs hpool hnet, ?_⟩
    intro ioContext socket service sessionUID ms t t' hms hrun ht
    obtain ⟨r, hr, hrest⟩ := Option.bind_eq_some_iff.1 hrun
    obtain ⟨_, ⟨⟩⟩ := Option.ite_none_right_eq_some.1 hr
    -- neither the NetState nor the UID of the new session changes until its first ProcessDisconnect
    have htnet : t.object.netState = .None := by
      rw [run_netState hrest, if_neg hms.1]
      exact hnet
    have htuid : t.object.sessionUID = sessionUID := run_sessionUID hms.2 hrest
    obtain ⟨_, ⟨⟩⟩ := Option.ite_none_right_eq_some.1 ht
    simp only [processDisconnect, htnet, htuid]
    rfl

/-- A life that ends without a `ProcessDisconnect`: the session is closed by `Disconnect`. -/
def closedDirectly : List LifeStep := [.create 0 1 0 5, .read [1, 2, 3], .request, .closeSession true, .release]

theorem recycled_iff_closedDirectly : ∃ s, lifeSystem.run lifeSystem.init closedDirectly = some s ∧ AsGoodAsNew s := by
  have hpooled : (lifeSystem.run lifeSystem.init closedDirectly).map (fun s => s.closed) = some none := by decide
  obtain ⟨s, hs, hclosed⟩ := Option.map_eq_some_iff.1 hpooled
  exact ⟨s, hs, (recycled_iff hs hclosed).2 (by decide)⟩

/-- A life like that of any client that goes away: a read reports it, and a task worker closes the session. -/
def closedByPeer : List LifeStep := [.create 0 1 0 5, .processDisconnect, .closeSession false, .release]

/-- The next session made of that object starts out with the `NetState` of the last one. -/
theorem not_every_recycled :
    ¬∀ ls s, lifeSystem.run lifeSystem.init ls = some s → s.closed = none → AsGoodAsNew s := by
  intro hall
  have hpooled : (lifeSystem.run lifeSystem.init closedByPeer).map (fun s => s.closed) = some none := by decide
  obtain ⟨s, hs, hclosed⟩ := Option.map_eq_some_iff.1 hpooled
  have hnet := run_netState hs
  rw [if_pos (by decide), (hall _ _ hs hclosed).netState] at hnet
  cases hnet

end ProjectYJ
