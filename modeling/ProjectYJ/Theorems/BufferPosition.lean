import ProjectYJ.Theorems.Reassembly

/-!
# Where the positions of a buffer are

The positions of a session's buffer go back to 0 when a `Clear` finds it empty, or moves what is unread to the front; in between they
only advance. So they follow from the chunks that came since: the write position is how many bytes the buffer took of them, and the
unread bytes are what the whole packets in those bytes leave (`buffer_position`).
-/

namespace ProjectYJ

open RecvState

namespace RecvState

/-- The chunks that some steps hand to `AddData` for a session, in order. -/
def chunksOf (u : Int) (ls : List RecvStep) : List (List UInt8) :=
  ls.filterMap fun
    | .addData v data => if v = u then some data else none
    | _ => none

end RecvState

/-- The bytes a buffer took since it was last empty or moved, after one chunk more. A chunk is dropped where the capacity does not
hold those bytes and it. Where it makes a packet whole there is a `Clear`, which begins anew when the whole packets leave nothing, or
when less than one buffer size is free. -/
def takeChunk (taken chunk : List UInt8) : List UInt8 :=
  if 655360 < taken.length + chunk.length then taken
  else if packetFraming.Incomplete (packetFraming.remainder taken ++ chunk) then taken ++ chunk
  else if packetFraming.remainder (taken ++ chunk) = [] ∨ 589824 < (taken ++ chunk).length then []
  else taken ++ chunk

/-- The bytes a buffer took since it was last empty or moved, after these chunks. -/
def takenOf (chunks : List (List UInt8)) : List UInt8 := chunks.foldl takeChunk []

/-! ## One chunk -/

/-- A buffer that took these bytes since it was last empty or moved: the whole packets in them were read, and the rest is unread. -/
structure StandsAt (taken : List UInt8) (b : PacketBuffer) : Prop where
  read : b.readPos + (packetFraming.remainder taken).length = taken.length
  unread : b.unread = packetFraming.remainder taken
  incomplete : packetFraming.Incomplete (packetFraming.remainder taken)

/-- The same buffer after a chunk, before `ProcessPacket`. -/
structure Filled (taken chunk : List UInt8) (b : PacketBuffer) : Prop where
  read : b.readPos + (packetFraming.remainder taken).length = taken.length
  unread : b.unread = packetFraming.remainder taken ++ if 655360 < taken.length + chunk.length then [] else chunk
  incomplete : packetFraming.Incomplete (packetFraming.remainder taken)

section

variable {taken chunk : List UInt8} {b : PacketBuffer}

/-- A buffer with both positions at the front has taken nothing. -/
theorem StandsAt.of_zero (hr : b.readPos = 0) (hw : b.writePos = 0) : StandsAt [] b := by
  have hrest : packetFraming.remainder [] = [] := Framing.remainder_of_incomplete Framing.incomplete_nil
  refine ⟨?_, ?_, ?_⟩
  · rw [hrest, hr]
    rfl
  · rw [hrest, ← List.length_eq_zero_iff, PacketBuffer.unread_length, PacketBuffer.dataSize, hr, hw]
  · rw [hrest]
    exact Framing.incomplete_nil

/-- The write position is how many bytes were taken. -/
theorem StandsAt.writePos_eq (h : StandsAt taken b) (hb : b.WellFormed) : b.writePos = taken.length := by
  have hlen := b.unread_length
  have hle := hb.read_le
  rw [h.unread, PacketBuffer.dataSize] at hlen
  have hread := h.read
  omega

/-- A chunk is put behind the unread bytes, or dropped. -/
theorem StandsAt.onWrite (h : StandsAt taken b) (hb : b.WellFormed) (hc : b.capacity = 655360) :
    Filled taken chunk (b.onWrite chunk).2 := by
  have hfree : b.freeSize = 655360 - taken.length := by rw [PacketBuffer.freeSize, hc, h.writePos_eq hb]
  have hle := hb.write_le
  rw [hc, h.writePos_eq hb] at hle
  by_cases hover : 655360 < taken.length + chunk.length
  · rw [PacketBuffer.onWrite_of_not_fits b (by omega)]
    refine ⟨h.read, ?_, h.incomplete⟩
    rw [if_pos hover, List.append_nil, h.unread]
  · have hfits : chunk.length ≤ b.freeSize := by omega
    refine ⟨?_, ?_, h.incomplete⟩
    · rw [PacketBuffer.onWrite_of_fits b hfits]
      exact h.read
    · rw [PacketBuffer.unread_onWrite hb hfits, if_neg hover, h.unread]

/-- Where the chunk makes no packet whole nothing is taken out. -/
theorem Filled.standsAt (h : Filled taken chunk b) (hi : packetFraming.Incomplete b.unread) : StandsAt (takeChunk taken chunk) b := by
  by_cases hover : 655360 < taken.length + chunk.length
  · have hunread := h.unread
    rw [if_pos hover, List.append_nil] at hunread
    rw [takeChunk, if_pos hover]
    exact ⟨h.read, hunread, h.incomplete⟩
  · have hunread := h.unread
    rw [if_neg hover] at hunread
    rw [hunread] at hi
    have hrest : packetFraming.remainder (taken ++ chunk) = packetFraming.remainder taken ++ chunk := by
      rw [Framing.remainder_append, Framing.remainder_of_incomplete hi]
    have hread := h.read
    rw [takeChunk, if_neg hover, if_pos hi]
    refine ⟨?_, hrest ▸ hunread, hrest ▸ hi⟩
    rw [hrest, List.length_append, List.length_append]
    omega

/-- Where it makes some whole they are taken out, and `Clear` follows. -/
theorem Filled.consume (h : Filled taken chunk b) (hb : b.WellFormed) (hc : b.capacity = 655360) (hsize : b.bufferSize = 65536)
    (hwhole : ¬packetFraming.Incomplete b.unread) {k : Nat} (hk : k ≤ b.dataSize)
    (hrest : packetFraming.remainder b.unread = b.unread.drop k) (hi : packetFraming.Incomplete (b.unread.drop k)) :
    StandsAt (takeChunk taken chunk) (consume b k) := by
  have h0 : k ≠ 0 := by
    rintro rfl
    exact hwhole hi
  have hover : ¬655360 < taken.length + chunk.length := by
    intro hover
    rw [h.unread, if_pos hover, List.append_nil] at hwhole
    exact hwhole h.incomplete
  have hunread := h.unread
  rw [if_neg hover] at hunread
  have hread := h.read
  have hlen := b.unread_length
  have hleft : packetFraming.remainder (taken ++ chunk) = b.unread.drop k := by
    rw [Framing.remainder_append, ← hunread, hrest]
  -- the buffer once the packets are read
  have hdata : (b.onRead k).2.dataSize = (b.unread.drop k).length := by
    rw [← PacketBuffer.unread_length, PacketBuffer.unread_onRead b hk]
  have hreadPos : (b.onRead k).2.readPos = b.readPos + k := by rw [b.onRead_of_le hk]
  have hwritten : b.writePos = (taken ++ chunk).length := by
    have hle := hb.read_le
    rw [hunread, List.length_append, PacketBuffer.dataSize] at hlen
    rw [List.length_append]
    omega
  have hfree : (b.onRead k).2.freeSize = 655360 - (taken ++ chunk).length := by
    rw [PacketBuffer.onRead_freeSize, PacketBuffer.freeSize, hc, hwritten]
  rw [consume_eq b hk, if_neg h0, takeChunk, if_neg hover, if_neg (hunread ▸ hwhole), hleft]
  by_cases hnil : b.unread.drop k = []
  · rw [if_pos (Or.inl hnil), PacketBuffer.clear, if_pos (by rw [hdata, hnil]; rfl)]
    exact StandsAt.of_zero rfl rfl
  · have hne : (b.onRead k).2.dataSize ≠ 0 := by
      rw [hdata]
      exact mt List.length_eq_zero_iff.1 hnil
    by_cases hfull : 589824 < (taken ++ chunk).length
    · rw [if_pos (Or.inr hfull), PacketBuffer.clear, if_neg hne, if_pos]
      · exact StandsAt.of_zero rfl rfl
      · rw [hfree, PacketBuffer.onRead_bufferSize, hsize, List.length_append]
        rw [List.length_append] at hfull
        omega
    · rw [if_neg (not_or.2 ⟨hnil, hfull⟩), PacketBuffer.clear_of_not_compacts hne]
      · refine ⟨?_, ?_, ?_⟩
        · rw [hleft, hreadPos, List.length_drop, List.length_append]
          rw [hunread, List.length_append] at hlen ⊢
          omega
        · rw [hleft, PacketBuffer.unread_onRead b hk]
        · rw [hleft]
          exact hi
      · refine PacketBuffer.compacts_eq_false ?_
        rw [hfree, PacketBuffer.onRead_bufferSize, hsize]
        omega

end

/-! ## Every run -/

/-- Where the buffer of a session stands after some steps: between two `RecvData` it took what the chunks so far leave; while one is
under way, the last of them is put behind that; and what `ProcessPacket` processed are whole packets. -/
structure PositionInv (u : Int) (ms : List RecvStep) (s : RecvState) : Prop where
  buffers : BuffersInv s
  bufferSize : (s.buffer u).bufferSize = 65536
  between : s.receiving u = false → StandsAt (takenOf (chunksOf u ms)) (s.buffer u)
  during : s.receiving u = true → ∃ cs c, chunksOf u ms = cs ++ [c] ∧ Filled (takenOf cs) c (s.buffer u)
  processed : ∀ k : Nat, s.processing = some (u, (k : Int)) → (0 < k → ¬packetFraming.Incomplete (s.buffer u).unread) ∧
    packetFraming.remainder ((s.buffer u).unread.drop k) = packetFraming.remainder (s.buffer u).unread

section

variable {n : Nat} {u : Int} {ms : List RecvStep} {s t : RecvState}

theorem chunksOf_append (u : Int) (ms ls : List RecvStep) : chunksOf u (ms ++ ls) = chunksOf u ms ++ chunksOf u ls :=
  List.filterMap_append

theorem chunksOf_addData (u : Int) (ms : List RecvStep) (data : List UInt8) :
    chunksOf u (ms ++ [.addData u data]) = chunksOf u ms ++ [data] := by
  rw [chunksOf_append]
  simp [chunksOf]

/-- A step that is no `AddData` of the session adds no chunk. -/
theorem chunksOf_other (ms : List RecvStep) {l : RecvStep} (hl : chunksOf u [l] = []) : chunksOf u (ms ++ [l]) = chunksOf u ms := by
  rw [chunksOf_append, hl, List.append_nil]

theorem takenOf_append (cs : List (List UInt8)) (c : List UInt8) : takenOf (cs ++ [c]) = takeChunk (takenOf cs) c := by
  rw [takenOf, List.foldl_append]
  rfl

/-- A step that leaves a session as it was hands no chunk of it to `AddData`. -/
theorem SameFor.chunksOf_eq (ht : SameFor u s t) {l : RecvStep} (h : recvStep n s l = some t) (ms : List RecvStep) :
    chunksOf u (ms ++ [l]) = chunksOf u ms := by
  refine chunksOf_other ms ?_
  cases l with
  | addData v data =>
    obtain ⟨-, hr, -, -, rfl⟩ := recvStep_addData h
    have hv : v ≠ u := by
      rintro rfl
      have hsame := ht.receiving
      rw [addData_receiving, hr] at hsame
      cases hsame
    simp [chunksOf, hv]
  | _ => rfl

theorem consume_bufferSize (b : PacketBuffer) (pl : Int) : (consume b pl).bufferSize = b.bufferSize := by
  unfold consume
  split
  · rfl
  · split
    · rfl
    · rw [PacketBuffer.clear_bufferSize, PacketBuffer.onRead_bufferSize]

theorem PositionInv.init (u : Int) : PositionInv u [] RecvState.init where
  buffers := BuffersInv.init
  bufferSize := rfl
  between _ := StandsAt.of_zero rfl rfl
  during := nofun
  processed := nofun

/-- Every step keeps the buffer of the session where its chunks put it. -/
theorem PositionInv.step (hs : PositionInv u ms s) {l : RecvStep} (h : recvStep n s l = some t) : PositionInv u (ms ++ [l]) t := by
  have hb := hs.buffers.step h
  cases hs.buffers.sessionStep h u with
  | same ht =>
    refine ⟨hb, ?_, fun hr => ?_, fun hr => ?_, fun k hk => ?_⟩
    · rw [ht.buffer]
      exact hs.bufferSize
    · rw [ht.chunksOf_eq h, ht.buffer]
      exact hs.between (ht.receiving ▸ hr)
    · rw [ht.chunksOf_eq h, ht.buffer]
      exact hs.during (ht.receiving ▸ hr)
    · rw [ht.buffer]
      exact hs.processed k ((ht.processing k).1 hk)
  | @addData data hp hr ht =>
    subst ht
    have hbuf : (s.addData u data).buffer u = ((s.buffer u).onWrite data).2 := buffer_of_some (addData_sessionBuffers s u data)
    refine ⟨hb, ?_, fun hr' => ?_, fun _ => ?_, fun k hk => ?_⟩
    · rw [hbuf, PacketBuffer.onWrite_bufferSize]
      exact hs.bufferSize
    · rw [addData_receiving] at hr'
      cases hr'
    · refine ⟨chunksOf u ms, data, chunksOf_addData u ms data, ?_⟩
      rw [hbuf]
      exact (hs.between hr).onWrite (hs.buffers.buffer_wellFormed u) (hs.buffers.buffer_capacity u)
    · rw [show (s.addData u data).processing = s.processing from rfl, hp] at hk
      cases hk
  | noBuffer hp hbuf ht =>
    subst ht
    have hchunks : chunksOf u (ms ++ [.process u]) = chunksOf u ms := chunksOf_other ms rfl
    refine ⟨hb, hs.bufferSize, fun _ => ?_, fun hr => ?_, fun k hk => ?_⟩
    · obtain ⟨-, hr, -⟩ := recvStep_process h
      obtain ⟨cs, c, hcs, hfilled⟩ := hs.during hr
      rw [hchunks, hcs, takenOf_append]
      refine hfilled.standsAt ?_
      rw [RecvState.buffer, hbuf, Option.getD_none, PacketBuffer.new_unread]
      exact Framing.incomplete_nil
    · have hfalse : Function.update s.receiving u false u = false := Function.update_self ..
      cases hfalse.symm.trans hr
    · cases hp.symm.trans hk
  | start hp ht =>
    subst ht
    have hchunks : chunksOf u (ms ++ [.process u]) = chunksOf u ms := chunksOf_other ms rfl
    refine ⟨hb, hs.bufferSize, hchunks ▸ hs.between, hchunks ▸ hs.during, fun k hk => ?_⟩
    obtain rfl : k = 0 := by
      have heq := (Prod.mk.inj (Option.some.inj hk)).2
      omega
    exact ⟨fun h0 => absurd h0 (Nat.lt_irrefl 0), rfl⟩
  | @dispatch b k hp hr hbuf hc ht =>
    subst ht
    have hchunks : chunksOf u (ms ++ [.dispatch]) = chunksOf u ms := chunksOf_other ms rfl
    refine ⟨hb, hs.bufferSize, hchunks ▸ hs.between, hchunks ▸ hs.during, fun k' hk' => ?_⟩
    obtain rfl : k' = k + packetFraming.size (b.unread.drop k) := by
      have heq := (Prod.mk.inj (Option.some.inj hk')).2
      omega
    obtain ⟨hwhole, hrest⟩ := hs.processed k hp
    rw [buffer_of_some hbuf] at hwhole hrest
    show (_ → ¬packetFraming.Incomplete (s.buffer u).unread) ∧ packetFraming.remainder ((s.buffer u).unread.drop _) =
      packetFraming.remainder (s.buffer u).unread
    rw [buffer_of_some hbuf]
    refine ⟨fun _ => ?_, ?_⟩
    · rcases Nat.eq_zero_or_pos k with rfl | h0
      · rwa [List.drop_zero] at hc
      · exact hwhole h0
    · rw [← List.drop_drop, Framing.remainder_drop_size hc, hrest]
  | @finish b k hp hbuf hk hi ht =>
    subst ht
    have hchunks : chunksOf u (ms ++ [.finish]) = chunksOf u ms := chunksOf_other ms rfl
    have hbuf' : (s.finish u b k).buffer u = consume b k := buffer_of_some (finish_sessionBuffers s u b k)
    have hwell := hs.buffers.buffer_wellFormed u
    have hcap := hs.buffers.buffer_capacity u
    have hsize := hs.bufferSize
    obtain ⟨hwhole, hrest⟩ := hs.processed k hp
    obtain ⟨cs, c, hcs, hfilled⟩ := hs.during (hs.buffers.processing u k hp).1
    rw [buffer_of_some hbuf] at hwell hcap hsize hwhole hrest hfilled
    refine ⟨hb, ?_, fun _ => ?_, fun hr => ?_, fun k' hk' => ?_⟩
    · rw [hbuf', consume_bufferSize]
      exact hsize
    · rw [hchunks, hcs, takenOf_append, hbuf']
      by_cases hnone : packetFraming.Incomplete b.unread
      · obtain rfl : k = 0 := Nat.eq_zero_of_not_pos fun h0 => hwhole h0 hnone
        rw [consume_eq b hk, if_pos rfl]
        exact hfilled.standsAt hnone
      · refine hfilled.consume hwell hcap hsize hnone hk ?_ hi
        rw [← hrest, Framing.remainder_of_incomplete hi]
    · rw [finish_receiving] at hr
      cases hr
    · cases hk'

/-- In every run, and for every session with no `RecvData` under way: the write position of its buffer is how many bytes the buffer
took since it was last empty or moved, the read position how many of them are in whole packets, and the others are unread. -/
theorem buffer_position (hr : (recvSystem n).run RecvState.init ms = some s) (hidle : s.receiving u = false) :
    (s.buffer u).writePos = (takenOf (chunksOf u ms)).length ∧
      (s.buffer u).readPos + (packetFraming.remainder (takenOf (chunksOf u ms))).length = (takenOf (chunksOf u ms)).length ∧
      (s.buffer u).unread = packetFraming.remainder (takenOf (chunksOf u ms)) := by
  have hinv : PositionInv u ms s := by
    have h := (recvSystem n).run_history (I := PositionInv u) (fun _ _ _ _ hs h => hs.step h) (PositionInv.init u) hr
    rwa [List.nil_append] at h
  have hstands := hinv.between hidle
  exact ⟨hstands.writePos_eq (hinv.buffers.buffer_wellFormed u), hstands.read, hstands.unread⟩

end

end ProjectYJ
