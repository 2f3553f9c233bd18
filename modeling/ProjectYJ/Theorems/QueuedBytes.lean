import ProjectYJ.Lemmas.Receive
import ProjectYJ.PacketHandler

/-!
# What a worker reads through a queued pointer

A queued item is a pointer into the receive buffer of its session, and the buffer goes on being used: after the packets have
been processed `Clear` puts the write position back to the front, and the next `AddData` writes there. A worker reads what
was dispatched to it as long as no step writes over the bytes of an item that is still queued or in a worker's hand.
-/

namespace ProjectYJ

namespace RecvState

/-- The item is in a queue or in the hand of a worker. -/
def Pending (s : RecvState) (item : PacketQueueItem) : Prop :=
  (∃ w, item ∈ s.packetQueue w) ∨ ∃ w, s.hand w = some item

/-- The bytes of receive buffers a step writes, as a session, an address and a length: `AddData` writes a chunk that fits
behind the write position, and `Clear` writes the unread bytes to the front when it moves them. -/
def overwritten (s : RecvState) : RecvStep → Option (Int × Nat × Nat)
  | .addData u data =>
    if data.length ≤ (s.buffer u).freeSize then some (u, (s.buffer u).writePos, data.length) else none
  | .finish =>
    match s.processing with
    | none => none
    | some (u, pl) =>
      match s.sessionBuffers u with
      | none => none
      | some b =>
        if pl ≠ 0 ∧ (b.onRead pl.toNat).2.compacts then some (u, 0, (b.onRead pl.toNat).2.dataSize) else none
  | _ => none

/-- The step writes over no byte of a pending item. -/
def Undisturbed (s : RecvState) (l : RecvStep) : Prop :=
  ∀ u off len, s.overwritten l = some (u, off, len) → ∀ item, s.Pending item → item.sessionId = u →
    Memory.Disjoint off len item.buffer item.len.toNat

end RecvState

open RecvState

/-! ## The pending items name their bytes -/

/-- A buffer of the session still holds the bytes of the item where the item points. -/
def PacketQueueItem.Live (s : RecvState) (item : PacketQueueItem) : Prop :=
  ∃ b, s.sessionBuffers item.sessionId = some b ∧ b.storage.read item.buffer item.len.toNat = item.bytes

/-- Every pending item names its bytes, and every item that was handled was read as it was dispatched. -/
structure ItemsInv (s : RecvState) : Prop where
  buffers : BuffersInv s
  live : ∀ item, s.Pending item → item.Live s
  handled : ∀ item bytes, (item, bytes) ∈ s.handled → bytes = item.bytes

section

variable {n : Nat} {s t : RecvState}

/-- The item `Dispatch` enqueues names the bytes of its slice. -/
theorem queueItem_live {u : Int} {b : PacketBuffer} (hb : s.sessionBuffers u = some b) {k size : Nat}
    (hle : k + size ≤ b.dataSize) : (queueItem u b ⟨k, size⟩).Live s := by
  refine ⟨b, hb, ?_⟩
  simp only [queueItem, Slice.bytes, Int.toNat_natCast, PacketBuffer.unread]
  rw [Memory.read_drop _ _ (by omega), Memory.read_take _ _ (by omega)]

/-- Outside the bytes it writes, `AddData` leaves the buffer as it was. -/
theorem read_onWrite (b : PacketBuffer) {data : List UInt8} {off len : Nat}
    (h : data.length ≤ b.freeSize → Memory.Disjoint b.writePos data.length off len) :
    (b.onWrite data).2.storage.read off len = b.storage.read off len := by
  by_cases hf : data.length ≤ b.freeSize
  · rw [PacketBuffer.onWrite_of_fits b hf]
    exact Memory.read_write_disjoint _ (h hf)
  · rw [PacketBuffer.onWrite_of_not_fits b (by omega)]

/-- Outside the bytes it writes, `Clear` leaves the buffer as it was. -/
theorem read_clear (b : PacketBuffer) {off len : Nat} (h : b.compacts = true → Memory.Disjoint 0 b.dataSize off len) :
    b.clear.storage.read off len = b.storage.read off len := by
  unfold PacketBuffer.clear
  split
  · rfl
  · rename_i h0
    split
    · rename_i hf
      have hd := h (by simp [PacketBuffer.compacts, h0, hf])
      rw [← PacketBuffer.unread_length] at hd
      exact Memory.read_write_disjoint _ hd
    · rfl

/-- Outside the bytes `Clear` writes, the end of `ProcessSessionBuffer` leaves the buffer as it was. -/
theorem read_consume (b : PacketBuffer) {k off len : Nat} (hk : k ≤ b.dataSize)
    (h : k ≠ 0 → (b.onRead k).2.compacts = true → Memory.Disjoint 0 (b.onRead k).2.dataSize off len) :
    (consume b k).storage.read off len = b.storage.read off len := by
  rw [consume_eq b hk]
  split
  · rfl
  · rename_i h0
    rw [read_clear _ (h h0), PacketBuffer.onRead_of_le b hk]

/-- A step that replaces one buffer by one that reads the same at the pending items, and leaves queues and hands. -/
theorem ItemsInv.live_update (hs : ItemsInv s) {u : Int} {c : PacketBuffer}
    (ht : t.sessionBuffers = Function.update s.sessionBuffers u (some c)) (hpend : ∀ item, t.Pending item → s.Pending item)
    (hread : ∀ item b, s.Pending item → item.sessionId = u → s.sessionBuffers u = some b →
      c.storage.read item.buffer item.len.toNat = b.storage.read item.buffer item.len.toNat) :
    ∀ item, t.Pending item → item.Live t := by
  intro item hi
  obtain ⟨b, hb, hbytes⟩ := hs.live item (hpend item hi)
  unfold PacketQueueItem.Live
  by_cases hu : item.sessionId = u
  · refine ⟨c, by rw [ht, hu, Function.update_self], ?_⟩
    rw [hread item b (hpend item hi) hu (hu ▸ hb), hbytes]
  · exact ⟨b, by rw [ht, Function.update_of_ne hu, hb], hbytes⟩

/-- An item in a hand or queue after a worker's step was pending before. -/
theorem pending_of_pop {w : Int} {item i : PacketQueueItem} {rest : List PacketQueueItem} (hi : t.Pending i)
    (hq : s.packetQueue w = item :: rest) (ht : t.packetQueue = Function.update s.packetQueue w rest)
    (hhand : t.hand = Function.update s.hand w (some item)) : s.Pending i := by
  rcases hi with ⟨v, hv⟩ | ⟨v, hv⟩
  · rw [ht, Function.update_apply] at hv
    split at hv
    · rename_i hvw
      exact Or.inl ⟨w, by rw [hq]; exact List.mem_cons_of_mem _ hv⟩
    · exact Or.inl ⟨v, hv⟩
  · rw [hhand, Function.update_apply] at hv
    split at hv
    · obtain rfl := Option.some.inj hv
      exact Or.inl ⟨w, by rw [hq]; exact List.mem_cons_self⟩
    · exact Or.inr ⟨v, hv⟩

theorem pending_of_release {w : Int} {i : PacketQueueItem} (hi : t.Pending i) (hq : t.packetQueue = s.packetQueue)
    (hhand : t.hand = Function.update s.hand w none) : s.Pending i := by
  rcases hi with ⟨v, hv⟩ | ⟨v, hv⟩
  · exact Or.inl ⟨v, hq ▸ hv⟩
  · rw [hhand, Function.update_apply] at hv
    split at hv
    · cases hv
    · exact Or.inr ⟨v, hv⟩

/-- After `Dispatch` the pending items are those before it and the new one. -/
theorem pending_of_dispatch {item i : PacketQueueItem} {next : Int} (hi : (s.dispatch n item next).Pending i) :
    i = item ∨ s.Pending i := by
  rcases hi with ⟨v, hv⟩ | ⟨v, hv⟩
  · simp only [RecvState.dispatch, Function.update_apply] at hv
    split at hv
    · rename_i hvw
      rcases List.mem_append.1 hv with hv | hv
      · exact Or.inr (Or.inl ⟨_, hv⟩)
      · exact Or.inl (List.mem_singleton.1 hv)
    · exact Or.inr (Or.inl ⟨v, hv⟩)
  · exact Or.inr (Or.inr ⟨v, hv⟩)

/-- After a step that writes over no byte of a pending item, the pending items name their bytes. -/
theorem ItemsInv.live_step (hs : ItemsInv s) {l : RecvStep} (hu : s.Undisturbed l) (h : recvStep n s l = some t) :
    ∀ item, t.Pending item → item.Live t := by
  cases l with
  | addData u data =>
    obtain ⟨_, _, _, _, rfl⟩ := recvStep_addData h
    refine hs.live_update (u := u) rfl (fun _ hi => hi) ?_
    intro item b hi hiu hb
    have hbuf : s.buffer u = b := by rw [RecvState.buffer, hb]; rfl
    rw [hbuf]
    refine read_onWrite b ?_
    intro hf
    exact hu u _ _ (by simp only [overwritten, hbuf]; rw [if_pos hf]) item hi hiu
  | process u =>
    obtain ⟨_, _, ⟨_, rfl⟩ | ⟨b, _, rfl⟩⟩ := recvStep_process h
    · exact hs.live
    · exact hs.live
  | dispatch =>
    obtain ⟨u, b, k, size, _, hb, hle, _, _, rfl⟩ := hs.buffers.dispatch h
    intro item hi
    rcases pending_of_dispatch hi with rfl | hi
    · exact queueItem_live (s := s) hb hle
    · exact hs.live item hi
  | finish =>
    obtain ⟨u, b, k, hp, _, hb, hk, _, rfl⟩ := hs.buffers.finish h
    refine hs.live_update (u := u) rfl (fun _ hi => hi) ?_
    intro item b' hi hiu hb'
    obtain rfl : b = b' := Option.some.inj (hb.symm.trans hb')
    refine read_consume b hk ?_
    intro h0 hc
    refine hu u _ _ ?_ item hi hiu
    simp only [overwritten, hp, hb, Int.toNat_natCast]
    rw [if_pos ⟨by omega, hc⟩]
  | pop w =>
    obtain ⟨_, item, rest, hq, rfl⟩ := recvStep_pop h
    intro i hi
    exact hs.live i (pending_of_pop hi hq rfl rfl)
  | handle w =>
    obtain ⟨item, b, _, _, rfl⟩ := recvStep_handle h
    intro i hi
    exact hs.live i (pending_of_release hi rfl rfl)
  | drop w =>
    obtain rfl := recvStep_drop h
    intro i hi
    exact hs.live i (pending_of_release hi rfl rfl)

/-- A worker's step reads what the item in its hand names; the other steps handle nothing. -/
theorem ItemsInv.handled_step (hs : ItemsInv s) {l : RecvStep} (h : recvStep n s l = some t) :
    ∀ item bytes, (item, bytes) ∈ t.handled → bytes = item.bytes := by
  cases l with
  | addData u data =>
    obtain ⟨_, _, _, _, rfl⟩ := recvStep_addData h
    exact hs.handled
  | process u =>
    obtain ⟨_, _, ⟨_, rfl⟩ | ⟨b, _, rfl⟩⟩ := recvStep_process h
    · exact hs.handled
    · exact hs.handled
  | dispatch =>
    obtain ⟨u, b, k, size, _, _, _, _, _, rfl⟩ := hs.buffers.dispatch h
    exact hs.handled
  | finish =>
    obtain ⟨u, b, k, _, _, _, _, _, rfl⟩ := hs.buffers.finish h
    exact hs.handled
  | pop w =>
    obtain ⟨_, item, rest, _, rfl⟩ := recvStep_pop h
    exact hs.handled
  | handle w =>
    obtain ⟨item, b, hh, hb, rfl⟩ := recvStep_handle h
    obtain ⟨b', hb', hbytes⟩ := hs.live item (Or.inr ⟨w, hh⟩)
    obtain rfl : b = b' := Option.some.inj (hb.symm.trans hb')
    intro i bytes hi
    rcases List.mem_append.1 hi with hi | hi
    · exact hs.handled i bytes hi
    · obtain ⟨rfl, rfl⟩ := Prod.mk.inj (List.mem_singleton.1 hi)
      exact hbytes
  | drop w =>
    obtain rfl := recvStep_drop h
    exact hs.handled

/-- A step that writes over no byte of a pending item keeps the items. -/
theorem ItemsInv.step (hs : ItemsInv s) {l : RecvStep} (hu : s.Undisturbed l) (h : recvStep n s l = some t) :
    ItemsInv t :=
  ⟨hs.buffers.step h, hs.live_step hu h, hs.handled_step h⟩

theorem ItemsInv.init : ItemsInv RecvState.init where
  buffers := BuffersInv.init
  live := by
    rintro item (⟨w, hw⟩ | ⟨w, hw⟩)
    · cases hw
    · cases hw
  handled := nofun

end

/-! ## Every run that disturbs no pending item -/

/-- In a run whose steps write over no byte of a pending item, every worker reads the bytes that were dispatched to it. -/
theorem handlePacket_reads_dispatched (n : Nat) {ls : List RecvStep} {s : RecvState}
    (hu : (recvSystem n).Meets Undisturbed RecvState.init ls) (hr : (recvSystem n).run RecvState.init ls = some s) :
    ∀ item bytes, (item, bytes) ∈ s.handled → bytes = item.bytes :=
  ((recvSystem n).meets_invariant (fun _ _ _ hl hs h => hs.step hl h) ItemsInv.init hu hr).handled

/-- A step that writes no buffer disturbs nothing. -/
theorem undisturbed_of_none {s : RecvState} {l : RecvStep} (h : s.overwritten l = none) : s.Undisturbed l := by
  intro u off len ho
  rw [h] at ho
  cases ho

/-- A refresh request, with the sequence number to tell two of them apart. -/
def refreshPacket (seqNum : Nat) : List UInt8 :=
  PacketHeader.toBytes { packetType := PacketType.RefreshChatRoomReq.code, packetSize := 12, seqNum := seqNum } (0, 0)

/-- One packet received and dispatched, and handled at once. -/
def handleOne : List RecvStep :=
  [.addData 0 (refreshPacket 1), .process 0, .dispatch, .pop 0, .handle 0]

/-- `handlePacket_reads_dispatched` at the run that handles one packet. -/
theorem handlePacket_reads_dispatched_one : ∃ s, (recvSystem 1).run RecvState.init handleOne = some s ∧
    s.handled ≠ [] ∧ ∀ item bytes, (item, bytes) ∈ s.handled → bytes = item.bytes := by
  have hrun : ((recvSystem 1).run RecvState.init handleOne).map RecvState.handled =
      some [({ sessionId := 0, buffer := 0, len := 12, bytes := refreshPacket 1 }, refreshPacket 1)] := by decide
  obtain ⟨s, hs, hh⟩ := Option.map_eq_some_iff.1 hrun
  refine ⟨s, hs, by rw [hh]; exact List.cons_ne_nil _ _, handlePacket_reads_dispatched 1 ?_ hs⟩
  refine ⟨?_, fun _ _ => ⟨undisturbed_of_none rfl, fun _ _ => ⟨undisturbed_of_none rfl, fun _ _ =>
    ⟨undisturbed_of_none rfl, fun _ _ => ⟨undisturbed_of_none rfl, fun _ _ => trivial⟩⟩⟩⟩⟩
  rintro u off len ho item (⟨w, hw⟩ | ⟨w, hw⟩)
  · cases hw
  · cases hw

/-- The second packet arrives after `Clear` put the write position back to the front and before the worker has read the
first. -/
def handleLate : List RecvStep :=
  [.addData 0 (refreshPacket 1), .process 0, .dispatch, .finish, .addData 0 (refreshPacket 2), .pop 0, .handle 0]

/-- A worker can read other bytes than those dispatched to it: after `handleLate` the item of the first packet was read as the
second. -/
theorem not_every_handled_item_reads_dispatched :
    ¬∀ (n : Nat) (ls : List RecvStep) (s : RecvState), (recvSystem n).run RecvState.init ls = some s →
      ∀ item bytes, (item, bytes) ∈ s.handled → bytes = item.bytes := by
  intro h
  have hrun : ((recvSystem 1).run RecvState.init handleLate).map RecvState.handled =
      some [({ sessionId := 0, buffer := 0, len := 12, bytes := refreshPacket 1 }, refreshPacket 2)] := by decide
  obtain ⟨s, hs, hh⟩ := Option.map_eq_some_iff.1 hrun
  have hread := h 1 handleLate s hs _ _ (hh ▸ List.mem_singleton.2 rfl)
  exact absurd hread (by decide)

end ProjectYJ
