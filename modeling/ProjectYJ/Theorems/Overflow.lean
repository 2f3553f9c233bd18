import ProjectYJ.Theorems.BufferPosition

/-!
# When a chunk does not fit

`AddData` reports an overflow when a chunk does not fit behind the write position. The room in front of the read position
counts for nothing there, so the report is spurious when the chunk would fit if that room were reclaimed. By where the positions
are (`buffer_position`) that is a matter of the chunks and of the packets in them (`overflow_genuine_iff`). After the report
`RecvData` goes on, and the next chunk that fits is put behind what was unread before the loss: when the two make a whole packet,
it is dispatched (`nothing_after_loss`, `nothing_after_loss_iff`).
-/

namespace ProjectYJ

open RecvState

namespace RecvState

/-- Whether `AddData` would report an overflow. -/
def reportsOverflow (s : RecvState) (u : Int) (data : List UInt8) : Bool := !((s.buffer u).onWrite data).1

end RecvState

theorem reportsOverflow_iff (s : RecvState) (u : Int) (data : List UInt8) :
    s.reportsOverflow u data = true ↔ (s.buffer u).freeSize < data.length := by
  unfold reportsOverflow
  by_cases h : (s.buffer u).freeSize < data.length
  · rw [PacketBuffer.onWrite_of_not_fits _ h]
    exact iff_of_true rfl h
  · rw [PacketBuffer.onWrite_of_fits _ (Nat.le_of_not_lt h)]
    exact iff_of_false Bool.false_ne_true h

/-! ## Spurious overflows -/

/-- No chunk is too long only for the packets that were dispatched since the buffer was last empty or moved: where the capacity does
not hold a chunk with all the bytes that the buffer took since then, it does not hold it either with those of them that are in no
whole packet. -/
def NoneBehindPackets (chunks : List (List UInt8)) : Prop :=
  ∀ cs c, cs ++ [c] <+: chunks → 655360 < (takenOf cs).length + c.length →
    655360 < (packetFraming.remainder (takenOf cs)).length + c.length

section

variable {n : Nat} {u : Int} {ls ms : List RecvStep} {data : List UInt8} {s t : RecvState}

/-- In a run a chunk is handed to `AddData` while no other `RecvData` of the session is under way. -/
theorem idle_of_addData (hr : (recvSystem n).run RecvState.init ls = some t) (hms : ms ++ [.addData u data] <+: ls)
    (hs : (recvSystem n).run RecvState.init ms = some s) : s.receiving u = false := by
  obtain ⟨rest, rfl⟩ := hms
  rw [List.append_assoc, List.singleton_append, Lts.run_append_of hs] at hr
  obtain ⟨_, hstep, -⟩ := Option.bind_eq_some_iff.1 hr
  exact (recvStep_addData (n := n) hstep).2.1

/-- An overflow is reported when the capacity does not hold the chunk with all that was taken since the buffer was last empty or
moved. -/
theorem reportsOverflow_iff_taken (hs : (recvSystem n).run RecvState.init ms = some s) (hidle : s.receiving u = false)
    (data : List UInt8) : s.reportsOverflow u data = true ↔ 655360 < (takenOf (chunksOf u ms)).length + data.length := by
  have hinv := BuffersInv.run hs
  have hle := (hinv.buffer_wellFormed u).write_le
  rw [hinv.buffer_capacity u, (buffer_position hs hidle).1] at hle
  rw [reportsOverflow_iff, PacketBuffer.freeSize, hinv.buffer_capacity u, (buffer_position hs hidle).1]
  omega

/-- A chunk among those of the session was handed to `AddData` after the chunks before it. -/
theorem exists_addData {cs : List (List UInt8)} {c : List UInt8} (h : cs ++ [c] <+: chunksOf u ls) :
    ∃ ms, ms ++ [.addData u c] <+: ls ∧ chunksOf u ms = cs := by
  obtain ⟨more, hmore⟩ := h
  rw [List.append_assoc, List.singleton_append] at hmore
  obtain ⟨ls₁, ls₂, rfl, hcs, hrest⟩ := List.filterMap_eq_append_iff.1 hmore.symm
  obtain ⟨skipped, l, ls₃, rfl, hskipped, hl, -⟩ := List.filterMap_eq_cons_iff.1 hrest
  refine ⟨ls₁ ++ skipped, ?_, ?_⟩
  · obtain rfl : l = .addData u c := by
      cases l with
      | addData v data =>
        simp only [Option.ite_none_right_eq_some, Option.some.injEq] at hl
        rw [hl.1, hl.2]
      | _ => cases hl
    refine ⟨ls₃, ?_⟩
    simp only [List.append_assoc, List.singleton_append]
  · rw [chunksOf_append, show chunksOf u skipped = [] from List.filterMap_eq_nil_iff.2 hskipped, List.append_nil]
    exact hcs

/-- In every run, each overflow `AddData` reports for a session is for want of capacity exactly when none of its chunks was too long
only for the packets dispatched since the buffer was last empty or moved. -/
theorem overflow_genuine_iff (hr : (recvSystem n).run RecvState.init ls = some t) :
    (∀ ms data s, ms ++ [.addData u data] <+: ls → (recvSystem n).run RecvState.init ms = some s →
        s.reportsOverflow u data = true → 655360 < (s.buffer u).unread.length + data.length) ↔
      NoneBehindPackets (chunksOf u ls) := by
  constructor
  · intro hall cs c hcs hover
    obtain ⟨ms, hms, rfl⟩ := exists_addData hcs
    obtain ⟨s, hs⟩ : ∃ s, (recvSystem n).run RecvState.init ms = some s := by
      obtain ⟨rest, rfl⟩ := hms
      rw [List.append_assoc, Lts.run_append] at hr
      obtain ⟨s, hs, -⟩ := Option.bind_eq_some_iff.1 hr
      exact ⟨s, hs⟩
    have hidle := idle_of_addData hr hms hs
    have hroom := hall ms c s hms hs ((reportsOverflow_iff_taken hs hidle c).2 hover)
    rwa [(buffer_position hs hidle).2.2] at hroom
  · intro hnone ms data s hms hs hrep
    have hidle := idle_of_addData hr hms hs
    rw [(buffer_position hs hidle).2.2]
    refine hnone (chunksOf u ms) data ?_ ((reportsOverflow_iff_taken hs hidle data).1 hrep)
    obtain ⟨rest, rfl⟩ := hms
    rw [chunksOf_append, chunksOf_addData]
    exact List.prefix_append _ _

end

/-- `overflow_genuine_iff` at two packets, the second cut after its fifth byte. -/
theorem overflow_genuine_iff_twoCut : ∃ t, (recvSystem 1).run RecvState.init twoCut = some t ∧
    ((∀ ms data s, ms ++ [.addData 0 data] <+: twoCut → (recvSystem 1).run RecvState.init ms = some s →
        s.reportsOverflow 0 data = true → 655360 < (s.buffer 0).unread.length + data.length) ↔
      NoneBehindPackets (chunksOf 0 twoCut)) := by
  have hruns : ((recvSystem 1).run RecvState.init twoCut).isSome = true := by decide
  obtain ⟨t, ht⟩ := Option.isSome_iff_exists.1 hruns
  exact ⟨t, ht, overflow_genuine_iff ht⟩

/-- A chunk with one packet and the front of the next, and a buffer size left behind it: what comes next is refused although it
would fit with the room in front. -/
theorem refused_behind_partial (f g : WirePacket) {k : Nat} (h0 : 0 < k) (hk : k < g.bytes.length)
    (hroom : f.bytes.length + k ≤ 589824) {data : List UInt8} (hlo : 655360 < f.bytes.length + k + data.length)
    (hhi : data.length ≤ 655360) :
    ∃ s, (recvSystem 1).run RecvState.init (recvData 0 (f.bytes ++ g.bytes.take k) 1) = some s ∧
      recvStep 1 s (.addData 0 data) = some (s.addData 0 data) ∧ s.reportsOverflow 0 data = true ∧
      (s.buffer 0).unread = g.bytes.take k := by
  have htake : (g.bytes.take k).length = k := List.length_take_of_le (Nat.le_of_lt hk)
  have hpos := f.length_pos
  have hlen : (f.bytes ++ g.bytes.take k).length = f.bytes.length + k := by rw [List.length_append, htake]
  have hnew : PacketBuffer.new.freeSize = 655360 := rfl
  have hfit : (f.bytes ++ g.bytes.take k).length ≤ PacketBuffer.new.freeSize := by omega
  obtain ⟨s, hs, hproc, hrecv, -, -, hbuf, -⟩ := run_recvData (n := 1) (u := 0) (s := RecvState.init) rfl rfl
    PacketBuffer.new_wellFormed PacketBuffer.new_capacity (List.append_ne_nil_of_left_ne_nil (List.ne_nil_of_length_pos hpos) _)
    hfit [f] (g.incomplete_of_prefix (List.take_prefix k _) (by omega)) (by simp [RecvState.buffer, RecvState.init])
  rw [Framing.stream_cons, Framing.stream_nil, List.append_nil] at hbuf
  -- the buffer with the chunk in it, and after the first packet is read
  let b := (PacketBuffer.new.onWrite (f.bytes ++ g.bytes.take k)).2
  have hunread : b.unread = f.bytes ++ g.bytes.take k := PacketBuffer.unread_onWrite PacketBuffer.new_wellFormed hfit
  have hfree : b.freeSize = 655360 - (f.bytes.length + k) := by
    rw [PacketBuffer.freeSize_onWrite _ hfit, hlen, hnew]
  have hle : f.bytes.length ≤ b.dataSize := by
    rw [← PacketBuffer.unread_length, hunread, hlen]
    omega
  have hread : (b.onRead f.bytes.length).2.unread = g.bytes.take k := by
    rw [PacketBuffer.unread_onRead _ hle, hunread, List.drop_left' rfl]
  have hclear : s.buffer 0 = (b.onRead f.bytes.length).2 := by
    rw [hbuf]
    show consume b f.bytes.length = _
    rw [consume_eq _ hle, if_neg (by omega), PacketBuffer.clear_of_not_compacts]
    · rw [← PacketBuffer.unread_length, hread, htake]
      omega
    · refine PacketBuffer.compacts_eq_false ?_
      rw [PacketBuffer.onRead_freeSize, hfree, PacketBuffer.onRead_bufferSize, PacketBuffer.onWrite_bufferSize]
      show 65536 ≤ _
      omega
  have hne : data ≠ [] := List.ne_nil_of_length_pos (by omega)
  refine ⟨s, hs, if_pos ⟨hproc, hrecv, hne, hhi⟩, ?_, hclear ▸ hread⟩
  rw [reportsOverflow_iff, hclear, PacketBuffer.onRead_freeSize, hfree]
  omega

/-- The first chunk is a packet of 60000 bytes and 5 bytes of another; then a chunk of 600000 bytes is refused, with 5 bytes
unread. -/
theorem overflow_not_genuine : ∃ s, (recvSystem 1).run RecvState.init
      (recvData 0 ((zeroPacket 59988 (by decide)).bytes ++ (zeroPacket 0 (by decide)).bytes.take 5) 1) = some s ∧
    recvStep 1 s (.addData 0 (List.replicate 600000 0)) = some (s.addData 0 (List.replicate 600000 0)) ∧
    s.reportsOverflow 0 (List.replicate 600000 0) = true ∧
    ¬655360 < (s.buffer 0).unread.length + (List.replicate 600000 (0 : UInt8)).length := by
  have hf := zeroPacket_length 59988 (by decide)
  have hg := zeroPacket_length 0 (by decide)
  have hdata : (List.replicate 600000 (0 : UInt8)).length = 600000 := List.length_replicate
  obtain ⟨s, hs, hstep, hrep, hunread⟩ := refused_behind_partial (zeroPacket 59988 (by decide)) (zeroPacket 0 (by decide))
    (k := 5) (by omega) (by omega) (by omega) (show 655360 < _ + 5 + (List.replicate 600000 (0 : UInt8)).length by omega)
    (by omega)
  refine ⟨s, hs, hstep, hrep, ?_⟩
  rw [hunread, List.length_take_of_le (by omega)]
  omega

/-! ## After a lost chunk -/

/-- A piece of bytes as the arguments of its `Dispatch`. -/
def dispatchOfBytes (piece : List UInt8) : List UInt8 × Int := (piece, (piece.length : Int))

/-- Where in the unread bytes the session's `ProcessPacket` stands. -/
def position (u : Int) (s : RecvState) : Nat :=
  match s.processing with
  | some (v, pl) => if v = u then pl.toNat else 0
  | none => 0

/-- Not a chunk that, after an overflow of the session, fits and makes the unread bytes a whole packet at their front. -/
def leavesIncomplete (u : Int) (s : RecvState) : RecvStep → Prop
  | .addData v data => v = u → s.overflowed u = true →
      (s.buffer u).freeSize < data.length ∨ packetFraming.Incomplete ((s.buffer u).unread ++ data)
  | _ => True

instance (u : Int) (s : RecvState) (l : RecvStep) : Decidable (leavesIncomplete u s l) := by
  cases l <;> unfold leavesIncomplete <;> infer_instance

/-- Between two `RecvData` no whole packet is unread, and after an overflow there never is one, nor does `ProcessPacket` get
past the front. -/
structure LossInv (u : Int) (s : RecvState) : Prop where
  buffers : BuffersInv s
  idle : s.receiving u = false → packetFraming.Incomplete (s.buffer u).unread
  lost : s.overflowed u = true → packetFraming.Incomplete (s.buffer u).unread ∧ position u s = 0

/-- What was dispatched are the first pieces of what was received; and until an overflow, what they leave of it is what is
unread and not yet processed. -/
structure FramedInv (u : Int) (s : RecvState) : Prop where
  framed : ∃ ps rest, packetFraming.Cuts (s.received u) ps rest ∧ s.dispatchedFor u = ps.map dispatchOfBytes
  current : s.overflowed u = false →
    ∃ ps, packetFraming.Cuts (s.received u) ps ((s.buffer u).unread.drop (position u s)) ∧
      s.dispatchedFor u = ps.map dispatchOfBytes

section

variable {n : Nat} {u : Int} {s t : RecvState}

theorem position_of_some {k : Nat} (h : s.processing = some (u, (k : Int))) : position u s = k := by
  rw [position, h]
  exact if_pos rfl

theorem position_of_none (h : s.processing = none) : position u s = 0 := by
  rw [position, h]

theorem SameFor.position_eq (h : SameFor u s t) : position u t = position u s := by
  have other : ∀ {r : RecvState}, (∀ pl, r.processing ≠ some (u, pl)) → position u r = 0 := by
    intro r hr
    unfold position
    split
    · rename_i v pl hp
      refine if_neg ?_
      rintro rfl
      exact hr pl hp
    · rfl
  by_cases hu : ∃ pl, s.processing = some (u, pl)
  · obtain ⟨pl, hs⟩ := hu
    rw [position, position, hs, (h.processing pl).2 hs]
  · have hs : ∀ pl, s.processing ≠ some (u, pl) := fun pl hp => hu ⟨pl, hp⟩
    rw [other hs, other fun pl hp => hs pl ((h.processing pl).1 hp)]

/-- Where a buffer ends with no whole packet behind what was processed, none is unread when that is taken out. -/
theorem incomplete_consume {b : PacketBuffer} {k : Nat} (hk : k ≤ b.dataSize) (hi : packetFraming.Incomplete (b.unread.drop k)) :
    packetFraming.Incomplete (consume b k).unread := by
  by_cases hc : 0 < k → (b.onRead k).2.compacts = false
  · rw [unread_consume hk hc]
    exact hi
  · obtain ⟨h0, hc⟩ := Classical.not_imp.1 hc
    obtain ⟨hr, hw⟩ := PacketBuffer.clear_of_compacts _ (by simpa using hc)
    have hnil : (consume b k).unread = [] := by
      refine List.eq_nil_of_length_eq_zero ?_
      rw [consume_eq b hk, if_neg (by omega), PacketBuffer.unread_length, PacketBuffer.dataSize, hr, hw]
    rw [hnil]
    exact Framing.incomplete_nil

/-- The unread bytes after a chunk. -/
theorem unread_addData (hs : BuffersInv s) (data : List UInt8) :
    ((s.addData u data).buffer u).unread =
      if (s.buffer u).freeSize < data.length then (s.buffer u).unread else (s.buffer u).unread ++ data := by
  rw [buffer_of_some (addData_sessionBuffers s u data)]
  split
  · rename_i h
    rw [PacketBuffer.onWrite_of_not_fits _ h]
  · rename_i h
    exact PacketBuffer.unread_onWrite (hs.buffer_wellFormed u) (Nat.le_of_not_lt h)

theorem LossInv.init (u : Int) : LossInv u RecvState.init where
  buffers := BuffersInv.init
  idle _ := Framing.incomplete_nil
  lost := nofun

/-- After an overflow nothing is whole as long as no chunk completes a packet. -/
theorem LossInv.step (hs : LossInv u s) {l : RecvStep} (hl : leavesIncomplete u s l) (h : recvStep n s l = some t) :
    LossInv u t := by
  have hb := hs.buffers.step h
  cases hs.buffers.sessionStep h u with
  | same ht =>
    refine ⟨hb, fun hr => ?_, fun ho => ?_⟩
    · rw [ht.buffer]
      exact hs.idle (ht.receiving ▸ hr)
    · rw [ht.buffer, ht.position_eq]
      exact hs.lost (ht.overflowed ▸ ho)
  | @addData data hp hr ht =>
    subst ht
    refine ⟨hb, fun hr' => ?_, fun ho => ⟨?_, position_of_none hp⟩⟩
    · rw [addData_receiving] at hr'
      cases hr'
    · rw [addData_overflowed, Bool.or_eq_true, decide_eq_true_iff] at ho
      rw [unread_addData hs.buffers]
      split
      · exact hs.idle hr
      · rename_i hfit
        exact (hl rfl (ho.resolve_right hfit)).resolve_left hfit
  | noBuffer hp hbuf ht =>
    subst ht
    have hnil : packetFraming.Incomplete (s.buffer u).unread := by
      rw [RecvState.buffer, hbuf, Option.getD_none, PacketBuffer.new_unread]
      exact Framing.incomplete_nil
    exact ⟨hb, fun _ => hnil, fun _ => ⟨hnil, position_of_none hp⟩⟩
  | start hp ht =>
    subst ht
    exact ⟨hb, hs.idle, fun ho => ⟨(hs.lost ho).1, position_of_some (k := 0) rfl⟩⟩
  | dispatch hp hr hbuf hc ht =>
    subst ht
    refine ⟨hb, fun hr' => ?_, fun ho => ?_⟩
    · cases hr.symm.trans hr'
    · obtain ⟨hi, h0⟩ := hs.lost ho
      rw [position_of_some hp] at h0
      rw [buffer_of_some hbuf] at hi
      rw [h0, List.drop_zero] at hc
      exact absurd hi hc
  | @finish b k hp hbuf hk hi ht =>
    subst ht
    have hi' := incomplete_consume hk hi
    rw [← buffer_of_some (finish_sessionBuffers s u b k)] at hi'
    exact ⟨hb, fun _ => hi', fun _ => ⟨hi', position_of_none rfl⟩⟩

/-- With nothing whole after an overflow, no step dispatches a packet of the session. -/
theorem LossInv.not_dispatch (hs : LossInv u s) (ho : s.overflowed u = true) (h : recvStep n s .dispatch = some t) (pl : Int) :
    s.processing ≠ some (u, pl) := by
  intro hp
  obtain ⟨v, b, k, size, hp', hbuf, _, hc, _, _⟩ := hs.buffers.dispatch h
  obtain ⟨rfl, rfl⟩ := Prod.mk.inj (Option.some.inj (hp.symm.trans hp'))
  obtain ⟨hi, h0⟩ := hs.lost ho
  rw [position_of_some hp'] at h0
  rw [buffer_of_some hbuf] at hi
  rw [h0, List.drop_zero] at hc
  exact hc hi

theorem FramedInv.init (u : Int) : FramedInv u RecvState.init where
  framed := ⟨[], [], Framing.Cuts.nil _, rfl⟩
  current _ := ⟨[], Framing.Cuts.nil _, rfl⟩

/-- What was dispatched stays the first pieces of what was received: until an overflow the next piece comes from what is unread,
unless `Clear` moved that, and after it there is none. -/
theorem FramedInv.step (hf : FramedInv u s) (hs : LossInv u s) {l : RecvStep} (hl : movesPartial u s l = false)
    (h : recvStep n s l = some t) : FramedInv u t := by
  cases hs.buffers.sessionStep h u with
  | same ht =>
    constructor
    · rw [ht.received, ht.dispatchedFor]
      exact hf.framed
    · rw [ht.received, ht.dispatchedFor, ht.buffer, ht.position_eq, ht.overflowed]
      exact hf.current
  | @addData data hp hr ht =>
    subst ht
    constructor
    · obtain ⟨ps, rest, hcut, hd⟩ := hf.framed
      exact ⟨ps, rest ++ data, addData_received s u data ▸ hcut.append data, hd⟩
    · intro ho
      rw [addData_overflowed, Bool.or_eq_false_iff, decide_eq_false_iff_not] at ho
      obtain ⟨ps, hcut, hd⟩ := hf.current ho.1
      rw [position_of_none hp, List.drop_zero] at hcut
      refine ⟨ps, ?_, hd⟩
      rw [unread_addData hs.buffers, if_neg ho.2, addData_received, position_of_none (s := s.addData u data) hp, List.drop_zero]
      exact hcut.append data
  | noBuffer hp hbuf ht =>
    subst ht
    exact ⟨hf.framed, hf.current⟩
  | start hp ht =>
    subst ht
    refine ⟨hf.framed, fun ho => ?_⟩
    rw [position_of_some (k := 0) rfl, ← position_of_none (u := u) hp]
    exact hf.current ho
  | @dispatch b k hp hr hbuf hc ht =>
    subst ht
    have ho : s.overflowed u = false := by
      by_contra ho
      exact hs.not_dispatch (by simpa using ho) h k hp
    obtain ⟨ps, hcut, hd⟩ := hf.current ho
    rw [position_of_some hp, buffer_of_some hbuf] at hcut
    have hsize : packetFraming.size (b.unread.drop k) ≤ (b.unread.drop k).length := Nat.not_lt.1 (not_or.1 hc).2
    have hpiece : Slice.bytes ⟨k, packetFraming.size (b.unread.drop k)⟩ b.unread =
        (b.unread.drop k).take (packetFraming.size (b.unread.drop k)) := by
      simp only [Slice.bytes, Int.toNat_natCast]
    have hnext : ∃ ps, packetFraming.Cuts (s.received u) ps (b.unread.drop (k + packetFraming.size (b.unread.drop k))) ∧
        (s.dispatch n (queueItem u b ⟨k, packetFraming.size (b.unread.drop k)⟩)
          ((k + packetFraming.size (b.unread.drop k) : Nat) : Int)).dispatchedFor u = ps.map dispatchOfBytes := by
      refine ⟨_, List.drop_drop ▸ hcut.snoc hc, ?_⟩
      rw [dispatchedFor_dispatch, if_pos rfl, hd, hpiece, List.map_append, List.map_singleton, dispatchOfBytes,
        List.length_take_of_le hsize]
    obtain ⟨ps', hcut', hd'⟩ := hnext
    refine ⟨⟨ps', _, hcut', hd'⟩, fun _ => ⟨ps', ?_, hd'⟩⟩
    rw [position_of_some (k := k + packetFraming.size (b.unread.drop k)) rfl,
      show RecvState.buffer (RecvState.dispatch _ _ _ _) u = b from buffer_of_some hbuf]
    exact hcut'
  | @finish b k hp hbuf hk hi ht =>
    subst ht
    refine ⟨hf.framed, fun ho => ?_⟩
    obtain ⟨ps, hcut, hd⟩ := hf.current ho
    have hc : 0 < k → (b.onRead k).2.compacts = false := by
      intro h0
      simpa [movesPartial, hp, buffer_of_some hbuf, h0] using hl
    rw [position_of_some hp, buffer_of_some hbuf, ← unread_consume hk hc,
      ← buffer_of_some (finish_sessionBuffers s u b k)] at hcut
    exact ⟨ps, (position_of_none (s := s.finish u b k) (u := u) rfl) ▸ hcut, hd⟩

end

/-- As long as no chunk of a session completes a packet after an overflow of it, nothing is dispatched for it after one. -/
theorem not_dispatch_after_loss {n : Nat} {u : Int} {ls : List RecvStep}
    (hm : (recvSystem n).Meets (leavesIncomplete u) RecvState.init ls) {ms : List RecvStep} {s r : RecvState}
    (hms : ms ++ [.dispatch] <+: ls) (hs : (recvSystem n).run RecvState.init ms = some s)
    (hd : recvStep n s .dispatch = some r) (ho : s.overflowed u = true) (pl : Int) : s.processing ≠ some (u, pl) := by
  have hm' := (recvSystem n).meets_front hm ((List.prefix_append ms _).trans hms)
  exact ((recvSystem n).meets_invariant (fun _ _ _ hl hs h => hs.step hl h) (LossInv.init u) hm' hs).not_dispatch ho hd pl

/-- In every run in which, after an overflow of a session, no chunk of it completes a packet, and in which `Clear` moves no partial
packet of it: nothing is dispatched for the session after the overflow, and what was dispatched are the first pieces of what it
received, cut as the headers declare. -/
theorem nothing_after_loss {n : Nat} {u : Int} {ls : List RecvStep} {t : RecvState}
    (hr : (recvSystem n).run RecvState.init ls = some t)
    (hm : (recvSystem n).Meets (fun s l => movesPartial u s l = false ∧ leavesIncomplete u s l) RecvState.init ls) :
    (∀ ms s r, ms ++ [.dispatch] <+: ls → (recvSystem n).run RecvState.init ms = some s → recvStep n s .dispatch = some r →
        s.overflowed u = true → ∀ pl, s.processing ≠ some (u, pl)) ∧
      ∃ ps rest, packetFraming.Cuts (t.received u) ps rest ∧ t.dispatchedFor u = ps.map dispatchOfBytes := by
  have hstep : ∀ s l t, movesPartial u s l = false ∧ leavesIncomplete u s l → LossInv u s ∧ FramedInv u s →
      (recvSystem n).step s l = some t → LossInv u t ∧ FramedInv u t :=
    fun s l t hl hs h => ⟨hs.1.step hl.2 h, hs.2.step hs.1 hl.1 h⟩
  constructor
  · intro ms s r hms hs hd ho pl
    refine not_dispatch_after_loss ?_ hms hs hd ho pl
    rw [Lts.meets_iff_before] at hm ⊢
    exact fun ms l s hms hs => (hm ms l s hms hs).2
  · exact ((recvSystem n).meets_invariant hstep ⟨LossInv.init u, FramedInv.init u⟩ hm hr).2.framed

/-- `nothing_after_loss` at two packets, the second cut after its fifth byte. -/
theorem nothing_after_loss_twoCut : ∃ t, (recvSystem 1).run RecvState.init twoCut = some t ∧
    (∀ ms s r, ms ++ [.dispatch] <+: twoCut → (recvSystem 1).run RecvState.init ms = some s →
        recvStep 1 s .dispatch = some r → s.overflowed 0 = true → ∀ pl, s.processing ≠ some (0, pl)) ∧
      ∃ ps rest, packetFraming.Cuts (t.received 0) ps rest ∧ t.dispatchedFor 0 = ps.map dispatchOfBytes := by
  obtain ⟨t, ht⟩ := Option.isSome_iff_exists.1 (show ((recvSystem 1).run RecvState.init twoCut).isSome = true by decide)
  exact ⟨t, ht, nothing_after_loss ht (by decide)⟩

/-! ### A packet dispatched after a loss -/

/-- After an overflow of the session a whole packet is unread, and its `RecvData` has not processed it yet. -/
structure LateInv (u : Int) (s : RecvState) : Prop where
  buffers : BuffersInv s
  receiving : s.receiving u = true
  overflowed : s.overflowed u = true
  whole : ¬packetFraming.Incomplete (s.buffer u).unread
  front : position u s = 0

/-- Only a `Dispatch` of the session ends that. -/
theorem LateInv.step {n : Nat} {u : Int} {s t : RecvState} (hs : LateInv u s) {l : RecvStep}
    (hl : l = .dispatch → ∀ pl, s.processing ≠ some (u, pl)) (h : recvStep n s l = some t) : LateInv u t := by
  have hb := hs.buffers.step h
  cases hs.buffers.sessionStep h u with
  | same ht =>
    exact ⟨hb, ht.receiving ▸ hs.receiving, ht.overflowed ▸ hs.overflowed, ht.buffer ▸ hs.whole, ht.position_eq.trans hs.front⟩
  | addData hp hr ht => cases hr.symm.trans hs.receiving
  | noBuffer hp hbuf ht =>
    refine absurd ?_ hs.whole
    rw [RecvState.buffer, hbuf, Option.getD_none, PacketBuffer.new_unread]
    exact Framing.incomplete_nil
  | start hp ht =>
    subst ht
    exact ⟨hb, hs.receiving, hs.overflowed, hs.whole, position_of_some (k := 0) rfl⟩
  | dispatch hp hr hbuf hc ht => exact absurd hp (hl rfl _)
  | finish hp hbuf hk hi ht =>
    have h0 := hs.front
    rw [position_of_some hp] at h0
    rw [h0, List.drop_zero, ← buffer_of_some hbuf] at hi
    exact absurd hi hs.whole

/-- In a run that ends while no `RecvData` of the session is under way, nothing was dispatched for it after an overflow exactly
when no chunk completed a packet then. -/
theorem nothing_after_loss_iff {n : Nat} {u : Int} {ls : List RecvStep} {t : RecvState}
    (hr : (recvSystem n).run RecvState.init ls = some t) (hend : t.receiving u = false) :
    (∀ ms s r, ms ++ [.dispatch] <+: ls → (recvSystem n).run RecvState.init ms = some s → recvStep n s .dispatch = some r →
        s.overflowed u = true → ∀ pl, s.processing ≠ some (u, pl)) ↔
      (recvSystem n).Meets (leavesIncomplete u) RecvState.init ls := by
  constructor
  · intro hall
    rw [Lts.meets_iff_before]
    intro ms l s hms hs
    cases l with
    | addData v data =>
      rintro rfl ho
      by_contra hcon
      obtain ⟨hfit, hwhole⟩ := not_or.1 hcon
      obtain ⟨rest, rfl⟩ := hms
      rw [List.append_assoc, List.singleton_append, Lts.run_append_of hs] at hr
      obtain ⟨s', hstep, hrest⟩ := Option.bind_eq_some_iff.1 hr
      obtain ⟨hp, -, -, -, rfl⟩ := recvStep_addData (n := n) hstep
      have hadd : recvStep n s (.addData v data) = some (s.addData v data) := hstep
      have hlate : LateInv v (s.addData v data) := by
        refine ⟨(BuffersInv.run hs).step hadd, addData_receiving .., ?_, ?_, position_of_none hp⟩
        · rw [addData_overflowed, ho, Bool.true_or]
        · rw [unread_addData (BuffersInv.run hs), if_neg hfit]
          exact hwhole
      have hquiet : (recvSystem n).Meets (fun s l => l = .dispatch → (recvStep n s l).isSome = true → s.overflowed v = true →
          ∀ pl, s.processing ≠ some (v, pl)) (s.addData v data) rest := by
        rw [Lts.meets_iff_before]
        rintro ms' l' s' hms' hs' rfl hsome
        obtain ⟨r, hr'⟩ := Option.isSome_iff_exists.1 hsome
        refine hall (ms ++ .addData v data :: ms') s' r ?_ ?_ hr'
        · rw [List.append_assoc, List.append_assoc]
          exact (List.prefix_append_right_inj ms).2 (List.cons_prefix_cons.2 ⟨rfl, hms'⟩)
        · rw [Lts.run_append_of hs, Lts.run_step hstep, hs']
      have hend' := ((recvSystem n).meets_invariant (fun s l t hl hs h => hs.step (fun hd => hl hd
        (by rw [show recvStep n s l = some t from h]; rfl) hs.overflowed) h) hlate hquiet hrest).receiving
      cases hend.symm.trans hend'
    | _ => trivial
  · intro hm ms s r hms hs hd ho pl
    exact not_dispatch_after_loss hm hms hs hd ho pl

/-- A `RecvData` whose chunk does not fit reports the overflow, drops the chunk and goes on with what is unread. -/
theorem run_recvData_refused {n : Nat} {u : Int} {s : RecvState} (hp : s.processing = none) (hr : s.receiving u = false)
    (hw : (s.buffer u).WellFormed) (hc : (s.buffer u).capacity = 655360) {data : List UInt8} (hle : data.length ≤ 655360)
    (hfit : (s.buffer u).freeSize < data.length) (hi : packetFraming.Incomplete (s.buffer u).unread) :
    ∃ t, (recvSystem n).run s (recvData u data 0) = some t ∧ t.processing = none ∧ t.receiving u = false ∧
      t.received u = s.received u ++ data ∧ t.overflowed u = true ∧ t.buffer u = s.buffer u ∧
      t.dispatchedFor u = s.dispatchedFor u := by
  have hbuf : (s.addData u data).sessionBuffers u = some (s.buffer u) := by
    rw [addData_sessionBuffers, PacketBuffer.onWrite_of_not_fits _ hfit]
  have hlen : (s.buffer u).unread.length < 2147483648 := by
    have hwle := hw.write_le
    rw [PacketBuffer.unread_length, PacketBuffer.dataSize]
    omega
  have hadd : recvStep n s (.addData u data) = some (s.addData u data) :=
    if_pos ⟨hp, hr, List.ne_nil_of_length_pos (by omega), hle⟩
  have hproc : recvStep n (s.addData u data) (.process u) = some { s.addData u data with processing := some (u, 0) } := by
    simp only [recvStep, hbuf]
    exact if_pos ⟨hp, addData_receiving ..⟩
  have hfin : recvStep n { s.addData u data with processing := some (u, 0) } .finish =
      some (RecvState.finish { s.addData u data with processing := some (u, 0) } u (s.buffer u) 0) := by
    have hnone : processPacketStep (s.buffer u).unread ((0 : Nat) : Int) = none :=
      (processPacketStep_eq_none hlen (Nat.zero_le _)).2 (by rwa [List.drop_zero])
    rw [Int.natCast_zero] at hnone
    simp only [recvStep, hbuf, Option.bind_some, hnone, if_true]
  refine ⟨RecvState.finish { s.addData u data with processing := some (u, 0) } u (s.buffer u) 0, ?_, rfl, finish_receiving ..,
    addData_received s u data, ?_, buffer_of_some (finish_sessionBuffers _ u (s.buffer u) 0), rfl⟩
  · rw [recvData, List.replicate_zero, List.nil_append, Lts.run_step hadd, Lts.run_step hproc, Lts.run_step hfin, Lts.run_nil]
  · show (s.addData u data).overflowed u = true
    rw [addData_overflowed, decide_eq_true hfit, Bool.or_true]

/-- The front of a packet, a chunk that is too long by itself for what the front leaves of the buffer, and the rest of the packet. -/
theorem dispatched_after_loss (g : WirePacket) {k : Nat} (h0 : 0 < k) (hk : k < g.bytes.length) (hg : g.bytes.length ≤ 655360)
    {data : List UInt8} (hlo : 655360 < k + data.length) (hhi : data.length ≤ 655360) :
    ∃ s t, (recvSystem 1).run RecvState.init (recvData 0 (g.bytes.take k) 0 ++ recvData 0 data 0) = some s ∧
      s.overflowed 0 = true ∧ s.dispatchedFor 0 = [] ∧
      (recvSystem 1).run s (recvData 0 (g.bytes.drop k) 1) = some t ∧ t.dispatchedFor 0 = [dispatchOf g] ∧
      t.received 0 = g.bytes.take k ++ data ++ g.bytes.drop k := by
  have htake : (g.bytes.take k).length = k := List.length_take_of_le (Nat.le_of_lt hk)
  have hdrop : (g.bytes.drop k).length = g.bytes.length - k := List.length_drop
  have hnew : PacketBuffer.new.freeSize = 655360 := rfl
  have hi := g.incomplete_of_prefix (List.take_prefix k _) (by omega)
  obtain ⟨s₁, hs₁, hproc₁, hrecv₁, hgot₁, -, hbuf₁, hd₁⟩ := run_recvData (n := 1) (u := 0) (s := RecvState.init) rfl rfl
    PacketBuffer.new_wellFormed PacketBuffer.new_capacity (List.ne_nil_of_length_pos (by omega))
    (show (g.bytes.take k).length ≤ PacketBuffer.new.freeSize by omega) [] hi rfl
  have hinv := BuffersInv.run hs₁
  have hw := hinv.buffer_wellFormed 0
  have hc := hinv.buffer_capacity 0
  have hunread : (s₁.buffer 0).unread = g.bytes.take k := by
    rw [hbuf₁]
    exact PacketBuffer.unread_onWrite PacketBuffer.new_wellFormed (by omega)
  have hfree : (s₁.buffer 0).freeSize = 655360 - k := by
    rw [hbuf₁]
    show (PacketBuffer.new.onWrite (g.bytes.take k)).2.freeSize = _
    rw [PacketBuffer.freeSize_onWrite _ (by omega), hnew, htake]
  obtain ⟨s₂, hs₂, hproc₂, hrecv₂, hgot₂, ho₂, hbuf₂, hd₂⟩ := run_recvData_refused (n := 1) hproc₁ hrecv₁ hw hc hhi
    (by omega) (hunread ▸ hi)
  rw [← hbuf₂] at hw hc hunread hfree
  have hne : g.bytes.drop k ≠ [] := List.ne_nil_of_length_pos (by omega)
  have hfit : (g.bytes.drop k).length ≤ (s₂.buffer 0).freeSize := by omega
  obtain ⟨s₃, hs₃, -, -, hgot₃, -, -, hd₃⟩ := run_recvData (n := 1) hproc₂ hrecv₂ hw hc hne hfit [g] Framing.incomplete_nil
    (by rw [hunread, List.take_append_drop, Framing.stream_cons, Framing.stream_nil, List.append_nil, List.append_nil])
  refine ⟨s₂, s₃, ?_, ho₂, ?_, hs₃, ?_, ?_⟩
  · rw [Lts.run_append_of (show (recvSystem 1).run RecvState.init (recvData 0 (g.bytes.take k) 0) = some s₁ from hs₁), hs₂]
  · rw [hd₂, hd₁]
    rfl
  · rw [hd₃, hd₂, hd₁]
    rfl
  · rw [hgot₃, hgot₂, hgot₁]
    rfl

/-- Five bytes of a packet, a chunk of 655356 zeros that is dropped, and the other seven bytes: the packet is dispatched, and it is
not the first piece of what was received. -/
theorem loss_dispatches :
    ∃ s t, (recvSystem 1).run RecvState.init
        (recvData 0 ((zeroPacket 0 (by decide)).bytes.take 5) 0 ++ recvData 0 (List.replicate 655356 0) 0) = some s ∧
      s.overflowed 0 = true ∧ s.dispatchedFor 0 = [] ∧
      (recvSystem 1).run s (recvData 0 ((zeroPacket 0 (by decide)).bytes.drop 5) 1) = some t ∧
      t.dispatchedFor 0 = [dispatchOf (zeroPacket 0 (by decide))] ∧
      ¬∃ ps rest, packetFraming.Cuts (t.received 0) ps rest ∧ t.dispatchedFor 0 = ps.map dispatchOfBytes := by
  have hg := zeroPacket_length 0 (by decide)
  have hdata : (List.replicate 655356 (0 : UInt8)).length = 655356 := List.length_replicate
  obtain ⟨s, t, hs, ho, hd, ht, hd', hgot⟩ := dispatched_after_loss (zeroPacket 0 (by decide)) (k := 5) (by omega) (by omega)
    (by omega) (show 655360 < 5 + (List.replicate 655356 (0 : UInt8)).length by omega) (by omega)
  refine ⟨s, t, hs, ho, hd, ht, hd', ?_⟩
  rintro ⟨ps, rest, hcut, hps⟩
  rw [hd'] at hps
  obtain ⟨p, rfl⟩ : ∃ p, ps = [p] := List.length_eq_one_iff.1 (by simpa using (congrArg List.length hps).symm)
  have hp : p = (zeroPacket 0 (by decide)).bytes := (congrArg Prod.fst (List.cons.inj hps).1).symm
  subst hp
  have hfront := List.prefix_iff_eq_take.1 hcut.head_front
  -- the ninth byte of the packet is 1, and that of what was received is one of the zeros
  have hninth := congrArg (fun bs => bs[8]?) hfront
  have hreceived : (t.received 0)[8]? = some 0 := by
    rw [hgot, List.append_assoc, List.getElem?_append_right (by rw [List.length_take]; omega), List.length_take_of_le (by omega),
      List.getElem?_append_left (by omega), List.getElem?_replicate_of_lt (by omega)]
  simp only [List.getElem?_take_of_lt (show 8 < (zeroPacket 0 (by decide)).bytes.length by omega), hreceived] at hninth
  exact absurd hninth (by decide)

end ProjectYJ
