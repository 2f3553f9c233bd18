import ProjectYJ.Receive

/-!
# Steps of the receive path, and the buffers they keep

For each label, what a step under it requires and does. Then the invariant every later one rests on: the buffers are well
formed and have the size they were made with, and a running `ProcessPacket` stands at a position inside the unread bytes.
-/

namespace ProjectYJ

open RecvState

variable {n : Nat} {s t : RecvState}

/-! ## One label at a time -/

theorem recvStep_addData {u : Int} {data : List UInt8} (h : recvStep n s (.addData u data) = some t) :
    s.processing = none ∧ s.receiving u = false ∧ data ≠ [] ∧ data.length ≤ 655360 ∧ t = s.addData u data := by
  simp only [recvStep, Option.ite_none_right_eq_some, Option.some.injEq] at h
  obtain ⟨⟨hp, hr, hne, hle⟩, rfl⟩ := h
  exact ⟨hp, hr, hne, hle, rfl⟩

/-- Where there is a buffer, `ProcessSessionBuffer` starts `ProcessPacket` on it, and otherwise `RecvData` is over. -/
theorem recvStep_process {u : Int} (h : recvStep n s (.process u) = some t) :
    s.processing = none ∧ s.receiving u = true ∧
      ((s.sessionBuffers u = none ∧ t = { s with receiving := Function.update s.receiving u false }) ∨
        ∃ b, s.sessionBuffers u = some b ∧ t = { s with processing := some (u, 0) }) := by
  simp only [recvStep, Option.ite_none_right_eq_some] at h
  obtain ⟨⟨hp, hr⟩, h⟩ := h
  refine ⟨hp, hr, ?_⟩
  cases hb : s.sessionBuffers u with
  | none =>
    rw [hb] at h
    exact Or.inl ⟨rfl, (Option.some.inj h).symm⟩
  | some b =>
    rw [hb] at h
    exact Or.inr ⟨b, rfl, (Option.some.inj h).symm⟩

theorem recvStep_dispatch (h : recvStep n s .dispatch = some t) :
    ∃ u pl b slice next, s.processing = some (u, pl) ∧ s.sessionBuffers u = some b ∧
      processPacketStep b.unread pl = some (slice, next) ∧ t = s.dispatch n (queueItem u b slice) next := by
  simp only [recvStep] at h
  split at h
  · cases h
  · rename_i u pl hp
    obtain ⟨b, hb, h⟩ := Option.bind_eq_some_iff.1 h
    obtain ⟨r, hr, rfl⟩ := Option.map_eq_some_iff.1 h
    exact ⟨u, pl, b, r.1, r.2, hp, hb, hr, rfl⟩

theorem recvStep_finish (h : recvStep n s .finish = some t) :
    ∃ u pl b, s.processing = some (u, pl) ∧ s.sessionBuffers u = some b ∧
      processPacketStep b.unread pl = none ∧ t = s.finish u b pl := by
  simp only [recvStep] at h
  split at h
  · cases h
  · rename_i u pl hp
    obtain ⟨b, hb, h⟩ := Option.bind_eq_some_iff.1 h
    rw [Option.ite_none_right_eq_some, Option.some.injEq] at h
    exact ⟨u, pl, b, hp, hb, h.1, h.2.symm⟩

theorem recvStep_pop {w : Int} (h : recvStep n s (.pop w) = some t) :
    s.hand w = none ∧ ∃ item rest, s.packetQueue w = item :: rest ∧
      t = { s with
        packetQueue := Function.update s.packetQueue w rest
        hand := Function.update s.hand w (some item) } := by
  simp only [recvStep, Option.ite_none_right_eq_some] at h
  obtain ⟨⟨_, _, hh⟩, h⟩ := h
  refine ⟨hh, ?_⟩
  cases hq : s.packetQueue w with
  | nil =>
    rw [hq] at h
    cases h
  | cons item rest =>
    rw [hq] at h
    exact ⟨item, rest, rfl, (Option.some.inj h).symm⟩

theorem recvStep_handle {w : Int} (h : recvStep n s (.handle w) = some t) :
    ∃ item b, s.hand w = some item ∧ s.sessionBuffers item.sessionId = some b ∧
      t = { s with
        hand := Function.update s.hand w none
        handled := s.handled ++ [(item, b.storage.read item.buffer item.len.toNat)] } := by
  simp only [recvStep] at h
  obtain ⟨item, hi, h⟩ := Option.bind_eq_some_iff.1 h
  obtain ⟨b, hb, rfl⟩ := Option.map_eq_some_iff.1 h
  exact ⟨item, b, hi, hb, rfl⟩

theorem recvStep_drop {w : Int} (h : recvStep n s (.drop w) = some t) :
    t = { s with hand := Function.update s.hand w none } := by
  simp only [recvStep] at h
  obtain ⟨_, _, rfl⟩ := Option.map_eq_some_iff.1 h
  rfl

/-! ## What a step does to the session it is about -/

theorem buffer_of_some {u : Int} {b : PacketBuffer} (h : s.sessionBuffers u = some b) : s.buffer u = b := by
  rw [RecvState.buffer, h, Option.getD_some]

@[simp] theorem addData_sessionBuffers (s : RecvState) (u : Int) (data : List UInt8) :
    (s.addData u data).sessionBuffers u = some ((s.buffer u).onWrite data).2 := Function.update_self ..

@[simp] theorem addData_receiving (s : RecvState) (u : Int) (data : List UInt8) : (s.addData u data).receiving u = true :=
  Function.update_self ..

@[simp] theorem addData_received (s : RecvState) (u : Int) (data : List UInt8) :
    (s.addData u data).received u = s.received u ++ data := Function.update_self ..

/-- `AddData` reports an overflow when the chunk does not fit. -/
theorem addData_overflowed (s : RecvState) (u : Int) (data : List UInt8) :
    (s.addData u data).overflowed u = (s.overflowed u || decide ((s.buffer u).freeSize < data.length)) := by
  by_cases h : (s.buffer u).freeSize < data.length
  · simp [RecvState.addData, PacketBuffer.onWrite_of_not_fits _ h, h]
  · simp [RecvState.addData, PacketBuffer.onWrite_of_fits _ (Nat.le_of_not_lt h), h]

@[simp] theorem finish_sessionBuffers (s : RecvState) (u : Int) (b : PacketBuffer) (pl : Int) :
    (s.finish u b pl).sessionBuffers u = some (consume b pl) := Function.update_self ..

@[simp] theorem finish_receiving (s : RecvState) (u : Int) (b : PacketBuffer) (pl : Int) :
    (s.finish u b pl).receiving u = false := Function.update_self ..

/-! ## The end of `ProcessSessionBuffer` on a buffer -/

/-- With a position inside the unread bytes `OnRead` never refuses. -/
theorem consume_eq (b : PacketBuffer) {k : Nat} (hk : k ≤ b.dataSize) :
    consume b k = if k = 0 then b else (b.onRead k).2.clear := by
  unfold consume
  rw [Int.toNat_natCast, b.onRead_of_le hk]
  by_cases h0 : k = 0
  · simp [h0]
  · rw [if_neg h0, if_neg (by omega), if_neg (by simp)]

/-- Unless `Clear` moves bytes, the end of `ProcessSessionBuffer` drops the processed bytes and keeps the rest. -/
theorem unread_consume {b : PacketBuffer} {k : Nat} (hk : k ≤ b.dataSize)
    (hc : 0 < k → (b.onRead k).2.compacts = false) : (consume b k).unread = b.unread.drop k := by
  rw [consume_eq b hk]
  split
  · rename_i h0
    rw [h0, List.drop_zero]
  · rw [PacketBuffer.unread_clear _ (hc (by omega)), PacketBuffer.unread_onRead b hk]

theorem consume_wellFormed {b : PacketBuffer} (hb : b.WellFormed) (pl : Int) : (consume b pl).WellFormed := by
  unfold consume
  split
  · exact hb
  · split
    · exact hb
    · exact (hb.onRead _).clear

theorem consume_capacity (b : PacketBuffer) (pl : Int) : (consume b pl).capacity = b.capacity := by
  unfold consume
  split
  · rfl
  · split
    · rfl
    · rw [PacketBuffer.clear_capacity, PacketBuffer.onRead_capacity]

/-! ## The buffers -/

/-- The positions of every buffer are in order, its storage has the size it was made with, and a running `ProcessPacket`
stands inside the unread bytes of its session, whose `RecvData` is not over. -/
structure BuffersInv (s : RecvState) : Prop where
  wellFormed : ∀ u b, s.sessionBuffers u = some b → b.WellFormed
  capacity : ∀ u b, s.sessionBuffers u = some b → b.capacity = 655360
  processing : ∀ u pl, s.processing = some (u, pl) →
    s.receiving u = true ∧ ∃ b, s.sessionBuffers u = some b ∧ ∃ k : Nat, pl = k ∧ k ≤ b.dataSize

namespace BuffersInv

theorem init : BuffersInv RecvState.init where
  wellFormed := nofun
  capacity := nofun
  processing := nofun

/-- The buffer `AddData` uses is well formed too when it is a new one. -/
theorem buffer_wellFormed (hs : BuffersInv s) (u : Int) : (s.buffer u).WellFormed := by
  unfold RecvState.buffer
  cases hb : s.sessionBuffers u with
  | none => exact PacketBuffer.new_wellFormed
  | some b => exact hs.wellFormed u b hb

theorem buffer_capacity (hs : BuffersInv s) (u : Int) : (s.buffer u).capacity = 655360 := by
  unfold RecvState.buffer
  cases hb : s.sessionBuffers u with
  | none => exact PacketBuffer.new_capacity
  | some b => exact hs.capacity u b hb

/-- No buffer holds as many bytes as an `int32` can count. -/
theorem unread_length_lt (hs : BuffersInv s) {u : Int} {b : PacketBuffer} (hb : s.sessionBuffers u = some b) :
    b.unread.length < 2147483648 := by
  have hw := (hs.wellFormed u b hb).write_le
  rw [hs.capacity u b hb] at hw
  rw [PacketBuffer.unread_length, PacketBuffer.dataSize]
  omega

/-- A state with the same buffers and the same `ProcessPacket` running, of a session still receiving. -/
theorem congr (hs : BuffersInv s) (hb : t.sessionBuffers = s.sessionBuffers) (hp : t.processing = s.processing)
    (hr : ∀ u pl, s.processing = some (u, pl) → t.receiving u = s.receiving u) : BuffersInv t where
  wellFormed u b h := hs.wellFormed u b (hb ▸ h)
  capacity u b h := hs.capacity u b (hb ▸ h)
  processing u pl h := by
    rw [hp] at h
    rw [hr u pl h, hb]
    exact hs.processing u pl h

/-- One buffer replaced by a good one while no `ProcessPacket` runs. -/
theorem update {u : Int} {b : PacketBuffer} (hs : BuffersInv s) (hb : b.WellFormed) (hc : b.capacity = 655360)
    (ht : t.sessionBuffers = Function.update s.sessionBuffers u (some b)) (hp : t.processing = none) : BuffersInv t where
  wellFormed v c h := by
    rw [ht, Function.update_apply] at h
    split at h
    · obtain rfl := Option.some.inj h
      exact hb
    · exact hs.wellFormed v c h
  capacity v c h := by
    rw [ht, Function.update_apply] at h
    split at h
    · obtain rfl := Option.some.inj h
      exact hc
    · exact hs.capacity v c h
  processing v pl h := by
    rw [hp] at h
    cases h

/-- Every step keeps the buffers well formed. -/
theorem step (hs : BuffersInv s) {l : RecvStep} (h : recvStep n s l = some t) : BuffersInv t := by
  cases l with
  | addData u data =>
    obtain ⟨hp, _, _, _, rfl⟩ := recvStep_addData h
    refine hs.update ((hs.buffer_wellFormed u).onWrite data) ?_ rfl hp
    rw [PacketBuffer.onWrite_capacity, hs.buffer_capacity u]
  | process u =>
    obtain ⟨hp, hr, ⟨_, rfl⟩ | ⟨b, hb, rfl⟩⟩ := recvStep_process h
    · refine hs.congr rfl rfl ?_
      intro v pl hv
      rw [hp] at hv
      cases hv
    · refine ⟨hs.wellFormed, hs.capacity, ?_⟩
      intro v pl hv
      cases hv
      exact ⟨hr, b, hb, 0, rfl, Nat.zero_le _⟩
  | dispatch =>
    obtain ⟨u, pl, b, slice, next, hp, hb, hstep, rfl⟩ := recvStep_dispatch h
    obtain ⟨hr, b', hb', k, rfl, hk⟩ := hs.processing u pl hp
    obtain rfl : b = b' := Option.some.inj (hb.symm.trans hb')
    obtain ⟨size, rfl, rfl, hle, _, _⟩ :=
      processPacketStep_eq_some (hs.unread_length_lt hb) (by rw [PacketBuffer.unread_length]; exact hk) hstep
    refine ⟨hs.wellFormed, hs.capacity, ?_⟩
    intro v pl hv
    cases hv
    exact ⟨hr, b, hb, k + size, rfl, by rw [← PacketBuffer.unread_length]; exact hle⟩
  | finish =>
    obtain ⟨u, pl, b, hp, hb, _, rfl⟩ := recvStep_finish h
    refine hs.update (consume_wellFormed (hs.wellFormed u b hb) pl) ?_ rfl rfl
    rw [consume_capacity, hs.capacity u b hb]
  | pop w =>
    obtain ⟨_, item, rest, _, rfl⟩ := recvStep_pop h
    exact hs.congr rfl rfl (fun _ _ _ => rfl)
  | handle w =>
    obtain ⟨item, b, _, _, rfl⟩ := recvStep_handle h
    exact hs.congr rfl rfl (fun _ _ _ => rfl)
  | drop w =>
    obtain rfl := recvStep_drop h
    exact hs.congr rfl rfl (fun _ _ _ => rfl)

theorem run {ls : List RecvStep} (hr : (recvSystem n).run RecvState.init ls = some s) : BuffersInv s :=
  (recvSystem n).run_invariant (fun _ _ _ hs h => hs.step h) init hr

/-- At a step of `ProcessPacket` that dispatches: the session, the position and the slice of its unread bytes. -/
theorem dispatch (hs : BuffersInv s) (h : recvStep n s .dispatch = some t) :
    ∃ u b, ∃ k size : Nat, s.processing = some (u, (k : Int)) ∧ s.sessionBuffers u = some b ∧
      k + size ≤ b.dataSize ∧ ¬packetFraming.Incomplete (b.unread.drop k) ∧ size = packetFraming.size (b.unread.drop k) ∧
      t = s.dispatch n (queueItem u b ⟨k, size⟩) ((k + size : Nat) : Int) := by
  obtain ⟨u, pl, b, slice, next, hp, hb, hstep, rfl⟩ := recvStep_dispatch h
  obtain ⟨_, b', hb', k, rfl, hk⟩ := hs.processing u pl hp
  obtain rfl : b = b' := Option.some.inj (hb.symm.trans hb')
  have hlen := hs.unread_length_lt hb
  have hk' : k ≤ b.unread.length := by rwa [PacketBuffer.unread_length]
  obtain ⟨size, rfl, rfl, hle, _, hsz⟩ := processPacketStep_eq_some hlen hk' hstep
  refine ⟨u, b, k, size, hp, hb, ?_, ?_, hsz, rfl⟩
  · rwa [PacketBuffer.unread_length] at hle
  · intro hi
    rw [(processPacketStep_eq_none hlen hk').2 hi] at hstep
    cases hstep

/-- At the end of `ProcessSessionBuffer`: the session, and the position behind which no whole packet is unread. -/
theorem finish (hs : BuffersInv s) (h : recvStep n s .finish = some t) :
    ∃ u b, ∃ k : Nat, s.processing = some (u, (k : Int)) ∧ s.receiving u = true ∧ s.sessionBuffers u = some b ∧
      k ≤ b.dataSize ∧ packetFraming.Incomplete (b.unread.drop k) ∧ t = s.finish u b k := by
  obtain ⟨u, pl, b, hp, hb, hstep, rfl⟩ := recvStep_finish h
  obtain ⟨hr, b', hb', k, rfl, hk⟩ := hs.processing u pl hp
  obtain rfl : b = b' := Option.some.inj (hb.symm.trans hb')
  have hk' : k ≤ b.unread.length := by rwa [PacketBuffer.unread_length]
  exact ⟨u, b, k, hp, hr, hb, hk, (processPacketStep_eq_none (hs.unread_length_lt hb) hk').1 hstep, rfl⟩

end BuffersInv

end ProjectYJ
