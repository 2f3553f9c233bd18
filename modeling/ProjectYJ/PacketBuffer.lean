import ProjectYJ.Lib.MachineInt
import ProjectYJ.Lib.Memory

/-!
# The receive buffer

`PacketBuffer.h` and `PacketBuffer.cpp`: a storage of `m_Capacity` bytes with a read position and a write position. The bytes
between the two are the unread ones. Positions and sizes are `int32` in the source; every caller passes sizes that are not
negative, and `PacketBuffer.WellFormed` keeps `m_ReadPos ≤ m_WritePos ≤ m_Capacity`, so they are natural numbers here.
-/

namespace ProjectYJ

/-- `PacketBuffer`. The storage (`m_Buffer`) has a value at every address; the addresses below `capacity` are its elements. -/
structure PacketBuffer where
  storage : Memory UInt8
  capacity : Nat
  bufferSize : Nat
  readPos : Nat
  writePos : Nat

namespace PacketBuffer

/-- `Init`: the size of the buffer and of its storage; `resize` keeps the elements there are and zeroes the new ones. The
positions stay as they were. -/
def init (b : PacketBuffer) (bufferSize : Nat) : PacketBuffer :=
  { b with
    storage := fun i => if i < b.capacity then b.storage i else 0
    capacity := bufferSize * 10
    bufferSize := bufferSize }

/-- The default constructor: `Init(65536)` on empty storage, both positions 0. -/
def new : PacketBuffer :=
  init { storage := fun _ => 0, capacity := 0, bufferSize := 0, readPos := 0, writePos := 0 } 65536

/-- The constructor with a size: the capacity is ten times it, computed in `int32`; `none` when that is negative and `resize`
throws. -/
def ofSize (bufferSize : Int) : Option PacketBuffer :=
  if toInt32 (bufferSize * 10) < 0 then none
  else some
    { storage := fun _ => 0, capacity := (toInt32 (bufferSize * 10)).toNat, bufferSize := bufferSize.toNat, readPos := 0,
      writePos := 0 }

/-- `DataSize`. -/
def dataSize (b : PacketBuffer) : Nat := b.writePos - b.readPos

/-- `FreeSize`: what is left behind the write position. -/
def freeSize (b : PacketBuffer) : Nat := b.capacity - b.writePos

/-- `OnWrite(buffer, size)`: copy the bytes behind the write position, or refuse them all. -/
def onWrite (b : PacketBuffer) (buffer : List UInt8) : Bool × PacketBuffer :=
  if b.freeSize < buffer.length then (false, b)
  else (true, { b with storage := b.storage.write b.writePos buffer, writePos := b.writePos + buffer.length })

/-- `OnRead(size)`: move the read position. -/
def onRead (b : PacketBuffer) (size : Nat) : Bool × PacketBuffer :=
  if b.dataSize < size then (false, b) else (true, { b with readPos := b.readPos + size })

/-- `OnRead(buffer, size)` on a `buffer` of that size: its answer, the buffer, and what `buffer` holds afterwards. As in the
source, the bytes of `buffer` are copied behind the write position, and nothing is copied to `buffer`; `none` when that copy
leaves the storage. -/
def onReadInto (b : PacketBuffer) (buffer : List UInt8) : Option (Bool × PacketBuffer × List UInt8) :=
  if b.dataSize < buffer.length then some (false, b, buffer)
  else if b.capacity < b.writePos + buffer.length then none
  else some (true, { b with storage := b.storage.write b.writePos buffer, readPos := b.readPos + buffer.length }, buffer)

/-- The branch of `Clear` that moves the unread bytes to the front: there are some, and less than one buffer size is free. -/
def compacts (b : PacketBuffer) : Bool := b.dataSize != 0 && b.freeSize < b.bufferSize

/-- `Clear`: with nothing unread, both positions go to 0; with little room left, the unread bytes are copied to the front and,
as in the source, both positions go to 0 there too. -/
def clear (b : PacketBuffer) : PacketBuffer :=
  if b.dataSize = 0 then { b with readPos := 0, writePos := 0 }
  else if b.freeSize < b.bufferSize then
    { b with storage := b.storage.write 0 (b.storage.read b.readPos b.dataSize), readPos := 0, writePos := 0 }
  else b

/-- The unread bytes: what `ReadPos()` points to, `DataSize()` of them. -/
def unread (b : PacketBuffer) : List UInt8 := b.storage.read b.readPos b.dataSize

/-- The positions are in order and inside the storage. -/
structure WellFormed (b : PacketBuffer) : Prop where
  read_le : b.readPos ≤ b.writePos
  write_le : b.writePos ≤ b.capacity

@[simp] theorem unread_length (b : PacketBuffer) : b.unread.length = b.dataSize := by
  simp [unread]

@[simp] theorem new_capacity : new.capacity = 655360 := rfl

@[simp] theorem new_unread : new.unread = [] := rfl

theorem new_wellFormed : new.WellFormed := ⟨Nat.le_refl _, Nat.zero_le _⟩

/-- What the constructor leaves, for any size: an empty buffer, well formed. -/
theorem ofSize_eq_some {bufferSize : Int} {b : PacketBuffer} (h : ofSize bufferSize = some b) :
    b.unread = [] ∧ b.WellFormed := by
  unfold ofSize at h
  split at h
  · cases h
  · obtain rfl := Option.some.inj h
    exact ⟨rfl, Nat.le_refl _, Nat.zero_le _⟩

/-! ## What each operation does -/

/-- A write that fits. -/
theorem onWrite_of_fits (b : PacketBuffer) {buffer : List UInt8} (h : buffer.length ≤ b.freeSize) :
    b.onWrite buffer =
      (true, { b with storage := b.storage.write b.writePos buffer, writePos := b.writePos + buffer.length }) := by
  rw [onWrite, if_neg (by omega)]

theorem onWrite_of_not_fits (b : PacketBuffer) {buffer : List UInt8} (h : b.freeSize < buffer.length) :
    b.onWrite buffer = (false, b) := by
  rw [onWrite, if_pos h]

/-- A read of no more than the unread bytes. -/
theorem onRead_of_le (b : PacketBuffer) {size : Nat} (h : size ≤ b.dataSize) :
    b.onRead size = (true, { b with readPos := b.readPos + size }) := by
  rw [onRead, if_neg (by omega)]

/-- A write that fits adds its bytes behind the unread ones. -/
theorem unread_onWrite {b : PacketBuffer} (hb : b.WellFormed) {buffer : List UInt8} (h : buffer.length ≤ b.freeSize) :
    (b.onWrite buffer).2.unread = b.unread ++ buffer := by
  have hle := hb.read_le
  rw [onWrite_of_fits b h]
  simp only [unread, dataSize]
  rw [show b.writePos + buffer.length - b.readPos = (b.writePos - b.readPos) + buffer.length by omega]
  exact Memory.read_write_append _ (by omega)

/-- A read drops its bytes from the front of the unread ones. -/
theorem unread_onRead (b : PacketBuffer) {size : Nat} (h : size ≤ b.dataSize) :
    (b.onRead size).2.unread = b.unread.drop size := by
  rw [onRead_of_le b h]
  simp only [unread]
  rw [Memory.read_drop _ _ h]
  simp only [dataSize, Nat.sub_add_eq]

/-- What `OnRead(buffer, size)` does: it refuses more than is unread; otherwise it writes over the bytes behind the write
position, leaving the storage when there are too few. -/
theorem onReadInto_cases (b : PacketBuffer) (buffer : List UInt8) :
    (b.dataSize < buffer.length ∧ b.onReadInto buffer = some (false, b, buffer)) ∨
      (buffer.length ≤ b.dataSize ∧ b.capacity < b.writePos + buffer.length ∧ b.onReadInto buffer = none) ∨
      (buffer.length ≤ b.dataSize ∧ b.writePos + buffer.length ≤ b.capacity ∧ b.onReadInto buffer = some (true,
        { b with storage := b.storage.write b.writePos buffer, readPos := b.readPos + buffer.length }, buffer)) := by
  by_cases h : b.dataSize < buffer.length
  · exact Or.inl ⟨h, by rw [onReadInto, if_pos h]⟩
  · refine Or.inr ?_
    by_cases hc : b.capacity < b.writePos + buffer.length
    · exact Or.inl ⟨by omega, hc, by rw [onReadInto, if_neg h, if_pos hc]⟩
    · exact Or.inr ⟨by omega, by omega, by rw [onReadInto, if_neg h, if_neg hc]⟩

/-- A read of some bytes drops them from the unread ones also where the storage behind the write position changes. -/
theorem unread_write_behind {b : PacketBuffer} (hb : b.WellFormed) (buffer : List UInt8) {size : Nat} (h : size ≤ b.dataSize) :
    PacketBuffer.unread { b with storage := b.storage.write b.writePos buffer, readPos := b.readPos + size } =
      b.unread.drop size := by
  have hle := hb.read_le
  simp only [unread]
  rw [Memory.read_drop _ _ h]
  simp only [dataSize] at h ⊢
  rw [Nat.sub_add_eq, Memory.read_write_disjoint _ (Or.inr (by omega))]

/-- `Clear` keeps the unread bytes when it does not move them. -/
theorem unread_clear (b : PacketBuffer) (h : b.compacts = false) : b.clear.unread = b.unread := by
  unfold clear
  split
  · rename_i h0
    simp only [unread, dataSize, Nat.sub_self] at h0 ⊢
    rw [h0]
    rfl
  · rename_i h0
    have hf : ¬b.freeSize < b.bufferSize := by
      simpa [compacts, h0] using h
    rw [if_neg hf]

/-- With a buffer size free behind the write position `Clear` moves nothing. -/
theorem compacts_eq_false {b : PacketBuffer} (h : b.bufferSize ≤ b.freeSize) : b.compacts = false := by
  rw [compacts, decide_eq_false (Nat.not_lt.2 h), Bool.and_false]

/-- `Clear` changes nothing when bytes are unread and it does not move them. -/
theorem clear_of_not_compacts {b : PacketBuffer} (h0 : b.dataSize ≠ 0) (h : b.compacts = false) : b.clear = b := by
  have hf : ¬b.freeSize < b.bufferSize := by
    simpa [compacts, h0] using h
  rw [clear, if_neg h0, if_neg hf]

/-- When `Clear` moves the unread bytes, none is left unread: the write position is not put behind them. -/
theorem clear_of_compacts (b : PacketBuffer) (h : b.compacts = true) : b.clear.readPos = 0 ∧ b.clear.writePos = 0 := by
  simp only [compacts, Bool.and_eq_true, bne_iff_ne, ne_eq, decide_eq_true_eq] at h
  rw [clear, if_neg h.1, if_pos h.2]
  exact ⟨rfl, rfl⟩

/-! ## The positions stay in order -/

theorem WellFormed.onWrite {b : PacketBuffer} (h : b.WellFormed) (buffer : List UInt8) :
    (b.onWrite buffer).2.WellFormed := by
  have hr := h.read_le
  have hw := h.write_le
  by_cases hf : b.freeSize < buffer.length
  · rw [onWrite_of_not_fits b hf]
    exact h
  · rw [onWrite_of_fits b (by omega)]
    unfold freeSize at hf
    exact ⟨by simp only; omega, by simp only; omega⟩

theorem WellFormed.onRead {b : PacketBuffer} (h : b.WellFormed) (size : Nat) : (b.onRead size).2.WellFormed := by
  have hr := h.read_le
  unfold PacketBuffer.onRead
  split
  · exact h
  · rename_i hs
    unfold dataSize at hs
    exact ⟨by simp only; omega, h.write_le⟩

theorem WellFormed.clear {b : PacketBuffer} (h : b.WellFormed) : b.clear.WellFormed := by
  unfold PacketBuffer.clear
  split
  · exact ⟨Nat.le_refl _, Nat.zero_le _⟩
  · split
    · exact ⟨Nat.le_refl _, Nat.zero_le _⟩
    · exact h

/-! ## The room behind the write position -/

theorem freeSize_onWrite (b : PacketBuffer) {buffer : List UInt8} (h : buffer.length ≤ b.freeSize) :
    (b.onWrite buffer).2.freeSize = b.freeSize - buffer.length := by
  rw [onWrite_of_fits b h]
  exact Nat.sub_add_eq ..

@[simp] theorem onRead_freeSize (b : PacketBuffer) (size : Nat) : (b.onRead size).2.freeSize = b.freeSize := by
  unfold onRead
  split <;> rfl

@[simp] theorem onRead_bufferSize (b : PacketBuffer) (size : Nat) : (b.onRead size).2.bufferSize = b.bufferSize := by
  unfold onRead
  split <;> rfl

@[simp] theorem onWrite_bufferSize (b : PacketBuffer) (buffer : List UInt8) :
    (b.onWrite buffer).2.bufferSize = b.bufferSize := by
  unfold onWrite
  split <;> rfl

@[simp] theorem clear_bufferSize (b : PacketBuffer) : b.clear.bufferSize = b.bufferSize := by
  unfold clear
  split
  · rfl
  · split <;> rfl

/-! ## No operation changes the size of the storage -/

@[simp] theorem onWrite_capacity (b : PacketBuffer) (buffer : List UInt8) :
    (b.onWrite buffer).2.capacity = b.capacity := by
  unfold onWrite
  split <;> rfl

@[simp] theorem onRead_capacity (b : PacketBuffer) (size : Nat) : (b.onRead size).2.capacity = b.capacity := by
  unfold onRead
  split <;> rfl

@[simp] theorem clear_capacity (b : PacketBuffer) : b.clear.capacity = b.capacity := by
  unfold clear
  split
  · rfl
  · split <;> rfl

end PacketBuffer

end ProjectYJ
