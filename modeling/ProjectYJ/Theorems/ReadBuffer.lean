import ProjectYJ.ReadLoop
import ProjectYJ.Theorems.Recycling

/-!
# The session's own receive buffer

Every completed read leaves `m_PacketBuffer` empty, with both positions at 0, and no later life of the object changes that:
`InitSession` does not set the positions, but finds them at 0. So each `DoRead` offers the whole storage, `OnWrite` has room for
whatever arrives, and the copy handed to `RecvData` is what arrived, no more and no less.
-/

namespace ProjectYJ

/-- What a receive buffer is at a `DoRead`: empty, with both positions at 0 and its whole storage free. -/
structure PacketBuffer.Drained (b : PacketBuffer) : Prop where
  unread : b.unread = []
  readPos : b.readPos = 0
  writePos : b.writePos = 0
  freeSize : b.freeSize = 655360

/-- The session's own receive buffer is a pass-through: it is drained at each `DoRead`, `OnWrite` never reports an overflow, and
what was handed to `RecvData` is what was received. -/
structure PassThrough (s : ReadLoop) : Prop where
  doReads : ∀ b ∈ s.doReads, b.Drained
  overflowed : s.overflowed = false
  recvData : s.recvData.flatten = s.received.flatten

/-! ## The constructors -/

/-- The constructor with the size 65536 makes the buffer the default constructor makes. -/
theorem PacketBuffer.ofSize_65536 : PacketBuffer.ofSize 65536 = some PacketBuffer.new := by
  have hstorage : PacketBuffer.new.storage = fun _ => 0 := by
    funext i
    simp [PacketBuffer.new, PacketBuffer.init]
  rw [ofSize, if_neg (by decide), Option.some.injEq, PacketBuffer.mk.injEq]
  exact ⟨hstorage.symm, rfl, rfl, rfl, rfl⟩

/-! ## One read -/

/-- To move the write position over bytes that are there already is to write them. -/
theorem PacketBuffer.onWriteSize_arrived (b : PacketBuffer) {data : List UInt8} (h : data.length ≤ b.freeSize) :
    (b.arrive b.writePos data).onWriteSize data.length = b.onWrite data := by
  rw [PacketBuffer.onWrite_of_fits b h]
  exact if_neg (Nat.not_lt.2 h)

/-- A drained buffer is well formed and has room for a whole storage of bytes. -/
theorem LifeInv.drained {s : SessionLife} (hs : LifeInv s) : s.object.packetBuffer.Drained where
  unread := by
    rw [← List.length_eq_zero_iff, PacketBuffer.unread_length, PacketBuffer.dataSize, hs.writePos, Nat.zero_sub]
  readPos := hs.readPos
  writePos := hs.writePos
  freeSize := by rw [PacketBuffer.freeSize, hs.capacity, hs.writePos]

theorem PacketBuffer.Drained.wellFormed {b : PacketBuffer} (h : b.Drained) : b.WellFormed :=
  ⟨by rw [h.readPos]; exact Nat.zero_le _, by rw [h.writePos]; exact Nat.zero_le _⟩

/-- A completed read on a drained buffer does to the object what `lifeStep` says a read does, hands what arrived to `RecvData`
and issues the next read. -/
theorem ReadLoop.handleRead_eq {s : ReadLoop} (hb : s.buffer.Drained) {data : List UInt8} (h : data.length ≤ 655360) :
    s.handleRead 0 data = some (ReadLoop.doRead
      { s with
        life := { s.life with object := s.life.object.handleRead data }
        pending := none
        received := s.received ++ [data]
        recvData := s.recvData ++ [data] }) := by
  have hfits : data.length ≤ s.buffer.freeSize := by
    rw [hb.freeSize]
    exact h
  have hwritten := PacketBuffer.onWriteSize_arrived s.buffer hfits
  rw [hb.writePos] at hwritten
  have hcopy : (s.buffer.onWrite data).2.unread = data := by
    rw [PacketBuffer.unread_onWrite hb.wellFormed hfits, hb.unread, List.nil_append]
  have hok : ¬(s.buffer.onWrite data).1 = false := by
    rw [PacketBuffer.onWrite_of_fits _ hfits]
    simp
  unfold ReadLoop.handleRead
  simp only [hwritten, hcopy]
  rw [if_neg hok]
  rfl

/-! ## Every run -/

/-- What holds of an object and its reads between two steps. -/
structure ReadInv (s : ReadLoop) : Prop where
  life : LifeInv s.life
  pending : ∀ p, s.pending = some p → p = (0, 655360) ∧ s.life.closed ≠ none
  doReads : ∀ b ∈ s.doReads, b.Drained
  overflowed : s.overflowed = false
  recvData : s.recvData = s.received

namespace ReadInv

variable {s t : ReadLoop}

theorem init : ReadInv (ReadLoop.init PacketBuffer.new) where
  life := LifeInv.init
  pending := by rintro p ⟨⟩
  doReads := fun b hb => absurd hb List.not_mem_nil
  overflowed := rfl
  recvData := rfl

/-- `DoRead` offers the whole storage. -/
theorem doRead (hs : ReadInv s) (hc : s.life.closed ≠ none) : ReadInv s.doRead where
  life := hs.life
  pending := by
    intro p hp
    obtain rfl := Option.some.inj hp
    refine ⟨?_, hc⟩
    rw [ReadLoop.buffer, hs.life.drained.writePos, hs.life.drained.freeSize]
  doReads := by
    intro b hb
    rcases List.mem_append.1 hb with hb | hb
    · exact hs.doReads b hb
    · rw [List.mem_singleton.1 hb]
      exact hs.life.drained
  overflowed := hs.overflowed
  recvData := hs.recvData

/-- What happens to the object apart from its reads, as long as it stays in use while a read is pending. -/
theorem setLife (hs : ReadInv s) {l : LifeStep} {life : SessionLife} (h : lifeStep s.life l = some life)
    (hc : s.pending ≠ none → life.closed ≠ none) : ReadInv { s with life := life } where
  life := hs.life.step h
  pending := fun p hp => ⟨(hs.pending p hp).1, hc (by rw [show s.pending = some p from hp]; exact Option.some_ne_none p)⟩
  doReads := hs.doReads
  overflowed := hs.overflowed
  recvData := hs.recvData

/-- A completed read. -/
theorem handleRead (hs : ReadInv s) {p : Nat × Nat} (hp : s.pending = some p) {data : List UInt8} (hlen : data.length ≤ p.2)
    (h : s.handleRead p.1 data = some t) : ReadInv t := by
  obtain ⟨rfl, hc⟩ := hs.pending p hp
  have hdrained : s.buffer.Drained := hs.life.drained
  have hfits : data.length ≤ s.life.object.packetBuffer.freeSize := by
    rw [show s.life.object.packetBuffer.freeSize = 655360 from hdrained.freeSize]
    exact hlen
  rw [ReadLoop.handleRead_eq hdrained hlen] at h
  obtain rfl := Option.some.inj h
  have hread : lifeStep s.life (.read data) = some { s.life with object := s.life.object.handleRead data } :=
    if_pos ⟨hc, hfits⟩
  refine ReadInv.doRead ⟨hs.life.step hread, ?_, hs.doReads, hs.overflowed, congrArg (· ++ [data]) hs.recvData⟩ hc
  rintro p ⟨⟩

/-- In the pool there is no pending read, so that a new life begins without one; no other step but the release ends one. -/
theorem step (hs : ReadInv s) {l : ReadStep} (h : readStep s l = some t) : ReadInv t := by
  cases l with
  | processRecv =>
    obtain ⟨⟨hc, -⟩, ⟨⟩⟩ := Option.ite_none_right_eq_some.1 h
    exact hs.doRead hc
  | handleRead data =>
    obtain ⟨p, hp, h⟩ := Option.bind_eq_some_iff.1 h
    obtain ⟨hlen, h⟩ := Option.ite_none_right_eq_some.1 h
    exact hs.handleRead hp hlen h
  | handleReadError =>
    obtain ⟨p, hp, h⟩ := Option.bind_eq_some_iff.1 h
    obtain ⟨life, hlife, rfl⟩ := Option.map_eq_some_iff.1 h
    refine ⟨hs.life.step hlife, ?_, hs.doReads, hs.overflowed, hs.recvData⟩
    rintro p ⟨⟩
  | life l =>
    cases l with
    | read data => cases h
    | release =>
      obtain ⟨hnone, h⟩ := Option.ite_none_right_eq_some.1 h
      obtain ⟨life, hlife, rfl⟩ := Option.map_eq_some_iff.1 h
      exact hs.setLife hlife fun hp => absurd hnone hp
    | create ioContext socket service sessionUID =>
      obtain ⟨life, hlife, rfl⟩ := Option.map_eq_some_iff.1 h
      obtain ⟨-, ⟨⟩⟩ := Option.ite_none_right_eq_some.1 hlife
      exact hs.setLife hlife fun _ => Option.some_ne_none false
    | closeSession direct =>
      obtain ⟨life, hlife, rfl⟩ := Option.map_eq_some_iff.1 h
      obtain ⟨-, ⟨⟩⟩ := Option.ite_none_right_eq_some.1 hlife
      exact hs.setLife hlife fun _ => Option.some_ne_none true
    | login | request | processDisconnect =>
      obtain ⟨life, hlife, rfl⟩ := Option.map_eq_some_iff.1 h
      obtain ⟨hc, ⟨⟩⟩ := Option.ite_none_right_eq_some.1 hlife
      exact hs.setLife hlife fun _ => hc

theorem passThrough (hs : ReadInv s) : PassThrough s :=
  ⟨hs.doReads, hs.overflowed, congrArg List.flatten hs.recvData⟩

end ReadInv

/-- For a session object made by either constructor of its buffer, over any number of lives and any reads in them: its receive
buffer is a pass-through. -/
theorem readBuffer_passThrough {b : PacketBuffer} (hb : b = PacketBuffer.new ∨ PacketBuffer.ofSize 65536 = some b)
    {ls : List ReadStep} {s : ReadLoop} (h : (readSystem b).run (ReadLoop.init b) ls = some s) : PassThrough s := by
  have hnew : b = PacketBuffer.new := by
    rcases hb with rfl | hb
    · rfl
    · rw [PacketBuffer.ofSize_65536] at hb
      exact (Option.some.inj hb).symm
  subst hnew
  have hs : ReadInv s := (readSystem PacketBuffer.new).run_invariant (fun _ _ _ hs h => hs.step h) ReadInv.init h
  exact hs.passThrough

/-- Two connections of one object: three reads, one of them of no bytes, then the peer closes; and a read of the next. -/
def readsTwice : List ReadStep :=
  [.life (.create 0 1 0 5), .processRecv, .handleRead [1, 2], .handleRead [], .handleRead [3], .handleReadError,
    .life (.closeSession false), .life .release, .life (.create 0 2 0 6), .processRecv, .handleRead [4]]

theorem readBuffer_passThrough_readsTwice : ∃ s,
    (readSystem PacketBuffer.new).run (ReadLoop.init PacketBuffer.new) readsTwice = some s ∧ s.received.flatten = [1, 2, 3, 4] ∧
      PassThrough s := by
  have hrun : ((readSystem PacketBuffer.new).run (ReadLoop.init PacketBuffer.new) readsTwice).map (fun s => s.received.flatten) =
      some [1, 2, 3, 4] := by decide
  obtain ⟨s, hs, hrec⟩ := Option.map_eq_some_iff.1 hrun
  exact ⟨s, hs, hrec, readBuffer_passThrough (Or.inl rfl) hs⟩

end ProjectYJ
