import ProjectYJ.ReceiveIndices

/-!
# The indices of the receive path stay in range

Between two steps the positions of every buffer are in order and inside its storage, and the read position is before the end of
the storage: it reaches the end only together with the write position, and `Clear` sets both to 0 then. Hence no conversion
between `int32` and `size_t` changes a value, and whatever is touched lies inside `m_Buffer`.
-/

namespace ProjectYJ

/-- The positions are in order and inside the capacity. -/
structure BufferFields.InRange (f : BufferFields) : Prop where
  read_nonneg : 0 ≤ f.readPos
  read_le : f.readPos ≤ f.writePos
  write_le : f.writePos ≤ f.capacity

/-- A range that is touched starts below the capacity and ends inside `m_Buffer`. -/
structure Touch.Within (t : Touch) : Prop where
  index_lt : (t.index : Int) < t.fields.capacity
  stop_le : t.index + t.length ≤ t.fields.size

/-- Nothing leaves its range: not the positions of a buffer, not what was touched; and no `OnRead` of a processed length was
refused. -/
structure IndicesInRange (s : ReceiveIndices) : Prop where
  packetBuffer : ∀ session, (s.packetBuffer session).InRange
  sessionBuffers : ∀ sessionId f, s.sessionBuffers sessionId = some f → f.InRange
  touched : ∀ t ∈ s.touched, t.Within
  refused : s.refused = false

/-! ## One buffer -/

namespace BufferFields

/-- The sizes every buffer of the receive path has. -/
structure Sized (f : BufferFields) : Prop where
  size : f.size = 655360
  capacity : f.capacity = 655360
  bufferSize : f.bufferSize = 65536

/-- A buffer between two steps: something can be read at its read position. -/
structure Regular (f : BufferFields) : Prop extends f.Sized, f.InRange where
  read_lt : f.readPos < 655360

variable {f : BufferFields}

theorem new_regular : new.Regular := by
  refine ⟨⟨rfl, rfl, rfl⟩, ⟨?_, ?_, ?_⟩, ?_⟩ <;> decide

/-- `Init(65536)` on a buffer of the receive path changes nothing. -/
theorem Sized.init (h : f.Sized) : f.init 65536 = f := by
  obtain ⟨size, capacity, bufferSize, readPos, writePos⟩ := f
  obtain ⟨rfl, rfl, rfl⟩ := h
  rfl

theorem dataSize_eq (h : f.Sized) (hr : f.InRange) : f.dataSize = f.writePos - f.readPos := by
  obtain ⟨h0, hle, hw⟩ := hr
  rw [h.capacity] at hw
  unfold dataSize toInt32
  omega

theorem freeSize_eq (h : f.Sized) (hr : f.InRange) : f.freeSize = 655360 - f.writePos := by
  obtain ⟨h0, hle, hw⟩ := hr
  rw [h.capacity] at hw
  unfold freeSize toInt32
  rw [h.capacity]
  omega

/-- Reading no more than is unread is in range. -/
theorem Regular.atReadPos (h : f.Regular) {n : Int} (h0 : 0 ≤ n) (hn : n ≤ f.dataSize) : (f.atReadPos n).Within := by
  rw [dataSize_eq h.toSized h.toInRange] at hn
  obtain ⟨hr0, hle, hw⟩ := h.toInRange
  rw [h.capacity] at hw
  have hlt := h.read_lt
  constructor
  · simp only [BufferFields.atReadPos, toSizeT, h.capacity]
    omega
  · simp only [BufferFields.atReadPos, toSizeT, h.size]
    omega

/-- Writing no more than is free is in range, when anything is free. -/
theorem Regular.atWritePos (h : f.Regular) {n : Int} (h0 : 0 ≤ n) (hn : n ≤ f.freeSize) (hfree : 0 < f.freeSize) :
    (f.atWritePos n).Within := by
  rw [freeSize_eq h.toSized h.toInRange] at hn hfree
  obtain ⟨hr0, hle, -⟩ := h.toInRange
  constructor
  · simp only [BufferFields.atWritePos, toSizeT, h.capacity]
    omega
  · simp only [BufferFields.atWritePos, toSizeT, h.size]
    omega

/-- A write that fits moves the write position. -/
theorem onWriteSize_of_fits (h : f.Sized) (hr : f.InRange) {n : Int} (h0 : 0 ≤ n) (hn : n ≤ f.freeSize) :
    f.onWriteSize n = (true, { f with writePos := f.writePos + n }) := by
  have hn' := hn
  rw [freeSize_eq h hr] at hn'
  obtain ⟨hr0, hle, hw⟩ := hr
  have hadd : toInt32 (f.writePos + n) = f.writePos + n := by
    unfold toInt32
    omega
  rw [onWriteSize, if_neg (Int.not_lt.2 hn), hadd]

/-- Reading no more than is unread moves the read position. -/
theorem onRead_of_le (h : f.Sized) (hr : f.InRange) {n : Int} (h0 : 0 ≤ n) (hn : n ≤ f.dataSize) :
    f.onRead n = (true, { f with readPos := f.readPos + n }) := by
  have hn' := hn
  rw [dataSize_eq h hr] at hn'
  obtain ⟨hr0, hle, hw⟩ := hr
  rw [h.capacity] at hw
  have hadd : toInt32 (f.readPos + n) = f.readPos + n := by
    unfold toInt32
    omega
  rw [onRead, if_neg (Int.not_lt.2 hn), hadd]

/-- A write that fits leaves a buffer something can be read from. -/
theorem Regular.onWriteSize (h : f.Regular) {n : Int} (h0 : 0 ≤ n) (hn : n ≤ f.freeSize) : (f.onWriteSize n).2.Regular := by
  rw [onWriteSize_of_fits h.toSized h.toInRange h0 hn]
  rw [freeSize_eq h.toSized h.toInRange] at hn
  obtain ⟨hr0, hle, -⟩ := h.toInRange
  refine ⟨⟨h.size, h.capacity, h.bufferSize⟩, ⟨hr0, ?_, ?_⟩, h.read_lt⟩
  · simp only
    omega
  · simp only [h.capacity]
    omega

/-- A write that is refused leaves the buffer as it is. -/
theorem Regular.onWriteSize_refused (h : f.Regular) {n : Int} (hn : f.freeSize < n) : (f.onWriteSize n).2.Regular := by
  rw [BufferFields.onWriteSize, if_pos hn]
  exact h

/-- `Clear` makes a buffer whose read position may be at the end of the storage one that can be read again, and its `memcpy`
stays inside the storage. -/
theorem clear_regular (h : f.Sized) (hr : f.InRange) : f.clear.1.Regular ∧ ∀ t ∈ f.clear.2, t.Within := by
  have hdata := dataSize_eq h hr
  obtain ⟨hr0, hle, hw⟩ := hr
  have hzero : Regular { f with readPos := 0, writePos := 0 } :=
    ⟨⟨h.size, h.capacity, h.bufferSize⟩, ⟨Int.le_refl _, Int.le_refl _, by simp [h.capacity]⟩, (by decide : (0 : Int) < 655360)⟩
  rw [h.capacity] at hw
  unfold clear
  by_cases hd : f.dataSize = 0
  · rw [if_pos hd]
    exact ⟨hzero, fun t ht => absurd ht List.not_mem_nil⟩
  · -- something is unread, so the read position is before the end of the storage
    have hreg : f.Regular := ⟨h, ⟨hr0, hle, by rw [h.capacity]; exact hw⟩, by omega⟩
    rw [if_neg hd]
    split
    · refine ⟨hzero, ?_⟩
      simp only [List.forall_mem_cons, List.not_mem_nil, false_implies, implies_true, and_true]
      refine ⟨⟨?_, ?_⟩, hreg.atReadPos (by omega) (Int.le_refl _)⟩
      · simp [h.capacity]
      · simp only [toSizeT, h.size]
        omega
    · exact ⟨hreg, fun t ht => absurd ht List.not_mem_nil⟩

/-- `OnRead` of no more than is unread, and then `Clear`. -/
theorem Regular.onRead_clear (h : f.Regular) {n : Int} (h0 : 0 ≤ n) (hn : n ≤ f.dataSize) :
    (f.onRead n).2.clear.1.Regular ∧ ∀ t ∈ (f.onRead n).2.clear.2, t.Within := by
  rw [onRead_of_le h.toSized h.toInRange h0 hn]
  rw [dataSize_eq h.toSized h.toInRange] at hn
  obtain ⟨hr0, hle, hw⟩ := h.toInRange
  refine clear_regular ⟨h.size, h.capacity, h.bufferSize⟩ ⟨?_, ?_, hw⟩
  · simp only
    omega
  · simp only
    omega

end BufferFields

/-! ## The natural numbers of `PacketBuffer` -/

/-- The fields of a buffer whose positions are counted in natural numbers. -/
def PacketBuffer.fields (b : PacketBuffer) : BufferFields := ⟨b.capacity, b.capacity, b.bufferSize, b.readPos, b.writePos⟩

namespace PacketBuffer

variable {b : PacketBuffer} (hb : b.WellFormed) (hc : b.capacity < 2147483648)

include hb hc

theorem fields_dataSize : b.fields.dataSize = b.dataSize := by
  obtain ⟨hr, hw⟩ := hb
  simp only [fields, BufferFields.dataSize, dataSize, toInt32]
  omega

theorem fields_freeSize : b.fields.freeSize = b.freeSize := by
  obtain ⟨hr, hw⟩ := hb
  simp only [fields, BufferFields.freeSize, freeSize, toInt32]
  omega

/-- `OnWrite` on natural numbers is `OnWrite` on the fields of the source. -/
theorem fields_onWrite (buffer : List UInt8) :
    (b.fields.onWrite buffer.length).1 = ((b.onWrite buffer).1, (b.onWrite buffer).2.fields) := by
  have hfree := fields_freeSize hb hc
  by_cases hfit : b.freeSize < buffer.length
  · rw [onWrite_of_not_fits b hfit, BufferFields.onWrite, BufferFields.onWriteSize, if_pos (by omega)]
  · have hadd : toInt32 ((b.writePos : Int) + buffer.length) = (b.writePos + buffer.length : Nat) := by
      have hw := hb.write_le
      unfold freeSize at hfit
      exact toInt32_of_lt (by omega)
    rw [onWrite_of_fits b (Nat.not_lt.1 hfit), BufferFields.onWrite, BufferFields.onWriteSize, if_neg (by omega)]
    simp only [fields, hadd]

/-- And so is `OnRead`. -/
theorem fields_onRead (size : Nat) : b.fields.onRead size = ((b.onRead size).1, (b.onRead size).2.fields) := by
  have hdata := fields_dataSize hb hc
  obtain ⟨hr, hw⟩ := hb
  by_cases hfit : b.dataSize < size
  · rw [onRead, if_pos hfit, BufferFields.onRead, if_pos (by omega)]
  · have hadd : toInt32 ((b.readPos : Int) + size) = (b.readPos + size : Nat) := by
      unfold dataSize at hfit
      exact toInt32_of_lt (by omega)
    rw [onRead_of_le b (Nat.not_lt.1 hfit), BufferFields.onRead, if_neg (by omega)]
    simp only [fields, hadd]

/-- And so is `Clear`. -/
theorem fields_clear : b.fields.clear.1 = b.clear.fields := by
  have hdata := fields_dataSize hb hc
  have hfree := fields_freeSize hb hc
  by_cases h0 : b.dataSize = 0
  · rw [clear, if_pos h0, BufferFields.clear, if_pos (by omega)]
    rfl
  · rw [clear, if_neg h0, BufferFields.clear, if_neg (by omega), hfree,
      show b.fields.bufferSize = b.bufferSize from rfl]
    by_cases hf : b.freeSize < b.bufferSize
    · rw [if_pos hf, if_pos (Int.ofNat_lt.2 hf)]
      rfl
    · rw [if_neg hf, if_neg (fun h => hf (Int.ofNat_lt.1 h))]

end PacketBuffer

/-! ## All buffers -/

/-- What holds between two steps: every buffer can be read from, and the one of a session object is empty. -/
structure IndexInv (s : ReceiveIndices) : Prop where
  packetBuffer : ∀ session, (s.packetBuffer session).Regular ∧ (s.packetBuffer session).writePos = 0
  sessionBuffers : ∀ sessionId f, s.sessionBuffers sessionId = some f → f.Regular
  touched : ∀ t ∈ s.touched, t.Within
  refused : s.refused = false

namespace IndexInv

variable {s t : ReceiveIndices}

theorem init : IndexInv ReceiveIndices.init where
  packetBuffer := fun _ => ⟨BufferFields.new_regular, rfl⟩
  sessionBuffers := by rintro u f ⟨⟩
  touched := fun t ht => absurd ht List.not_mem_nil
  refused := rfl

theorem inRange (hs : IndexInv s) : IndicesInRange s :=
  ⟨fun a => (hs.packetBuffer a).1.toInRange, fun u f hf => (hs.sessionBuffers u f hf).toInRange, hs.touched, hs.refused⟩

theorem setPacketBuffer (hs : IndexInv s) (a : Nat) {f : BufferFields} (hf : f.Regular) (h0 : f.writePos = 0)
    {touched : List Touch} (ht : ∀ t ∈ touched, t.Within) : IndexInv (s.setPacketBuffer a f touched) where
  packetBuffer := by
    intro b
    by_cases hb : b = a
    · subst hb
      simp only [ReceiveIndices.setPacketBuffer, Function.update_self]
      exact ⟨hf, h0⟩
    · simp only [ReceiveIndices.setPacketBuffer, Function.update_of_ne hb]
      exact hs.packetBuffer b
  sessionBuffers := hs.sessionBuffers
  touched := List.forall_mem_append.2 ⟨hs.touched, ht⟩
  refused := hs.refused

theorem setSessionBuffer (hs : IndexInv s) (u : Int) {f : BufferFields} (hf : f.Regular) {touched : List Touch}
    (ht : ∀ t ∈ touched, t.Within) : IndexInv (s.setSessionBuffer u f touched) where
  packetBuffer := hs.packetBuffer
  sessionBuffers := by
    intro v g hg
    by_cases hv : v = u
    · subst hv
      simp only [ReceiveIndices.setSessionBuffer, Function.update_self] at hg
      exact Option.some.inj hg ▸ hf
    · simp only [ReceiveIndices.setSessionBuffer, Function.update_of_ne hv] at hg
      exact hs.sessionBuffers v g hg
  touched := List.forall_mem_append.2 ⟨hs.touched, ht⟩
  refused := hs.refused

/-- The whole storage of a session object's buffer is free. -/
theorem freeSize (hs : IndexInv s) (a : Nat) : (s.packetBuffer a).freeSize = 655360 := by
  obtain ⟨hreg, h0⟩ := hs.packetBuffer a
  rw [BufferFields.freeSize_eq hreg.toSized hreg.toInRange, h0, Int.sub_zero]

theorem doRead (hs : IndexInv s) (a : Nat) : IndexInv (s.doRead a) := by
  obtain ⟨hreg, h0⟩ := hs.packetBuffer a
  have hfree := hs.freeSize a
  refine hs.setPacketBuffer a hreg h0 (List.forall_mem_singleton.2 ?_)
  exact hreg.atWritePos (by omega) (Int.le_refl _) (by omega)

/-- A completed read fits, and leaves the buffer of the object empty again. -/
theorem handleRead (hs : IndexInv s) (a : Nat) {n : Int} (h0 : 0 ≤ n) (hn : n ≤ (s.packetBuffer a).freeSize) :
    IndexInv (s.handleRead a n) := by
  obtain ⟨hreg, hw0⟩ := hs.packetBuffer a
  have hfree := hs.freeSize a
  have hwritten := BufferFields.onWriteSize_of_fits hreg.toSized hreg.toInRange h0 hn
  have hwreg := hreg.onWriteSize h0 hn
  have hr0 : (s.packetBuffer a).readPos = 0 := by
    have hle := hreg.read_le
    have hge := hreg.read_nonneg
    omega
  have hdata : ((s.packetBuffer a).onWriteSize n).2.dataSize = n := by
    rw [BufferFields.dataSize_eq hwreg.toSized hwreg.toInRange, hwritten]
    simp only [hw0, hr0]
    omega
  obtain ⟨hcreg, hctouched⟩ := hwreg.onRead_clear h0 (Int.le_of_eq hdata.symm)
  have hc0 : (((s.packetBuffer a).onWriteSize n).2.onRead n).2.clear.1.writePos = 0 := by
    have hempty : (((s.packetBuffer a).onWriteSize n).2.onRead n).2.dataSize = 0 := by
      rw [BufferFields.onRead_of_le hwreg.toSized hwreg.toInRange h0 (Int.le_of_eq hdata.symm), hwritten]
      simp [BufferFields.dataSize, hw0, hr0, toInt32]
    rw [BufferFields.clear, if_pos hempty]
  unfold ReceiveIndices.handleRead
  simp only
  rw [if_neg (by rw [hwritten]; simp)]
  refine IndexInv.doRead (hs.setPacketBuffer a hcreg hc0 ?_) a
  refine List.forall_mem_cons.2 ⟨hreg.atWritePos h0 hn (by omega), List.forall_mem_cons.2 ⟨?_, hctouched⟩⟩
  exact hwreg.atReadPos (by omega) (Int.le_refl _)

/-- A chunk is written where it fits, and refused where it does not. -/
theorem addData (hs : IndexInv s) (u : Int) {n : Nat} (hn : n < 2147483648) : IndexInv (s.addData u n) := by
  have hreg : ((s.sessionBuffers u).getD BufferFields.new).Regular := by
    cases hu : s.sessionBuffers u with
    | none => exact BufferFields.new_regular
    | some f => exact hs.sessionBuffers u f hu
  unfold ReceiveIndices.addData
  simp only
  by_cases h0 : n = 0
  · rw [if_pos h0]
    exact hs
  · rw [if_neg h0, toInt32_of_lt hn, BufferFields.onWrite]
    by_cases hfit : ((s.sessionBuffers u).getD BufferFields.new).freeSize < n
    · rw [if_pos hfit]
      exact hs.setSessionBuffer u (hreg.onWriteSize_refused hfit) fun t ht => absurd ht List.not_mem_nil
    · rw [if_neg hfit]
      refine hs.setSessionBuffer u (hreg.onWriteSize (Int.natCast_nonneg n) (Int.not_lt.1 hfit)) ?_
      exact List.forall_mem_singleton.2 (hreg.atWritePos (Int.natCast_nonneg n) (Int.not_lt.1 hfit) (by omega))

/-- `OnRead` never refuses what `ProcessPacket` returned. -/
theorem processSessionBuffer (hs : IndexInv s) {u : Int} {f : BufferFields} (hu : s.sessionBuffers u = some f) {n : Int}
    (h0 : 0 ≤ n) (hn : n ≤ f.dataSize) : IndexInv (s.processSessionBuffer u f n) := by
  have hreg := hs.sessionBuffers u f hu
  have hread := hs.setSessionBuffer u hreg (List.forall_mem_singleton.2
    (hreg.atReadPos (Int.le_trans h0 hn) (Int.le_refl _)))
  obtain ⟨hcreg, hctouched⟩ := hreg.onRead_clear h0 hn
  unfold ReceiveIndices.processSessionBuffer
  simp only
  by_cases hpos : n ≤ 0
  · rw [if_pos hpos]
    exact hread
  · rw [if_neg hpos, if_neg (by rw [BufferFields.onRead_of_le hreg.toSized hreg.toInRange h0 hn]; simp)]
    exact hread.setSessionBuffer u hcreg hctouched

theorem step (hs : IndexInv s) {l : IndexStep} (h : indexStep s l = some t) : IndexInv t := by
  cases l with
  | initSession a =>
    obtain rfl := Option.some.inj h
    obtain ⟨hreg, h0⟩ := hs.packetBuffer a
    rw [hreg.toSized.init]
    exact hs.setPacketBuffer a hreg h0 fun t ht => absurd ht List.not_mem_nil
  | doRead a =>
    obtain rfl := Option.some.inj h
    exact hs.doRead a
  | handleRead a n =>
    obtain ⟨⟨h0, hn⟩, ⟨⟩⟩ := Option.ite_none_right_eq_some.1 h
    exact hs.handleRead a h0 hn
  | addData u n =>
    obtain ⟨hn, ⟨⟩⟩ := Option.ite_none_right_eq_some.1 h
    exact hs.addData u hn
  | processSessionBuffer u n =>
    simp only [indexStep] at h
    cases hu : s.sessionBuffers u with
    | none =>
      rw [hu] at h
      obtain rfl := Option.some.inj h
      exact hs
    | some f =>
      rw [hu] at h
      obtain ⟨⟨h0, hn⟩, ⟨⟩⟩ := Option.ite_none_right_eq_some.1 h
      exact hs.processSessionBuffer hu h0 hn

end IndexInv

/-- In every order of `InitSession`, reads, `AddData` and `ProcessSessionBuffer`, with whatever lengths are read and processed:
the positions of every buffer, and all that is touched of it, stay in range, and `OnRead` refuses no processed length. -/
theorem indices_inRange {ls : List IndexStep} {s : ReceiveIndices} (h : indexSystem.run ReceiveIndices.init ls = some s) :
    IndicesInRange s := by
  have hs : IndexInv s := indexSystem.run_invariant (fun _ _ _ hs h => hs.step h) IndexInv.init h
  exact hs.inRange

/-- A read of a whole storage; the session buffer filled, all of it but the last byte processed, and that moved to the front. -/
def fillsStorage : List IndexStep :=
  [.initSession 0, .doRead 0, .handleRead 0 655360, .addData 0 655360, .processSessionBuffer 0 655359, .initSession 0, .addData 0 5,
    .processSessionBuffer 0 5]

theorem indices_inRange_fillsStorage : ∃ s, indexSystem.run ReceiveIndices.init fillsStorage = some s ∧ s.touched.length = 10 ∧
    IndicesInRange s := by
  have hrun : (indexSystem.run ReceiveIndices.init fillsStorage).map (fun s => s.touched.length) = some 10 := by decide
  obtain ⟨s, hs, hlen⟩ := Option.map_eq_some_iff.1 hrun
  exact ⟨s, hs, hlen, indices_inRange hs⟩

end ProjectYJ
