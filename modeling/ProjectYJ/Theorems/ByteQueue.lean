import ProjectYJ.Lib.Lts
import ProjectYJ.PacketBuffer

/-!
# The buffer and the queue it stands for

Calls of a `PacketBuffer` one after the other, and next to it the byte queue it is to be: what was written and not yet read,
by the answers the calls gave. Three of the four operations keep the two together (`BufferRun.QueueInv.write`, `read`, and
`clear` where it moves nothing). `OnRead(buffer, size)` copies in the wrong direction, and the branch of `Clear` that moves the
unread bytes forgets them.
-/

namespace ProjectYJ

/-- The calls, with sizes that are not negative: a `memcpy`'s size is the length of the bytes it is given. -/
inductive BufferCall where
  | write (buffer : List UInt8)
  | read (size : Nat)
  | readInto (buffer : List UInt8)
  | clear

/-- The buffer, and whether a `memcpy` left its storage; and, for the statements only, the bytes successfully written and not
yet read, what the successful `OnRead(buffer, size)` left in their buffers and what they were to, and the buffer before and
after each call that answered false. -/
structure BufferRun where
  buffer : PacketBuffer
  overrun : Bool
  queue : List UInt8
  delivered : List UInt8
  due : List UInt8
  refused : List (PacketBuffer × PacketBuffer)

namespace BufferRun

/-- No call made. -/
def start (b : PacketBuffer) : BufferRun where
  buffer := b
  overrun := false
  queue := []
  delivered := []
  due := []
  refused := []

/-- A call that answered false, and left this buffer. -/
def refuse (s : BufferRun) (b : PacketBuffer) : BufferRun :=
  { s with buffer := b, refused := s.refused ++ [(s.buffer, b)] }

/-- `OnWrite(buffer, size)`. -/
def write (s : BufferRun) (buffer : List UInt8) : BufferRun :=
  match s.buffer.onWrite buffer with
  | (true, b) => { s with buffer := b, queue := s.queue ++ buffer }
  | (false, b) => s.refuse b

/-- `OnRead(size)`. -/
def read (s : BufferRun) (size : Nat) : BufferRun :=
  match s.buffer.onRead size with
  | (true, b) => { s with buffer := b, queue := s.queue.drop size }
  | (false, b) => s.refuse b

/-- `OnRead(buffer, size)`. -/
def readInto (s : BufferRun) (buffer : List UInt8) : BufferRun :=
  match s.buffer.onReadInto buffer with
  | none => { s with overrun := true }
  | some (true, b, got) =>
    { s with
      buffer := b
      queue := s.queue.drop buffer.length
      delivered := s.delivered ++ got
      due := s.due ++ s.queue.take buffer.length }
  | some (false, b, _) => s.refuse b

end BufferRun

open BufferRun

/-- The step function: there is no call after a `memcpy` that left the storage. -/
def bufferStep (s : BufferRun) (call : BufferCall) : Option BufferRun :=
  if s.overrun = true then none
  else
    match call with
    | .write buffer => some (s.write buffer)
    | .read size => some (s.read size)
    | .readInto buffer => some (s.readInto buffer)
    | .clear => some { s with buffer := s.buffer.clear }

/-- A buffer and its calls. -/
def bufferSystem (b : PacketBuffer) : Lts BufferRun BufferCall where
  init := BufferRun.start b
  step := bufferStep

/-- What a byte queue owes: no `memcpy` leaves the storage, the unread bytes are those written and not yet read, each read gave
out the first of them, and what answered false changed nothing. -/
structure BufferRun.IsQueue (s : BufferRun) : Prop where
  inside : s.overrun = false
  unread : s.buffer.unread = s.queue
  delivered : s.delivered = s.due
  refused : ∀ p ∈ s.refused, p.2 = p.1

/-- A call that keeps the buffer a queue: a `Clear` that moves nothing, and an `OnRead(buffer, size)` that is refused, or whose
`buffer` already holds what it is to be given and fits behind the write position. -/
def keepsQueue (s : BufferRun) : BufferCall → Prop
  | .write _ => True
  | .read _ => True
  | .readInto buffer =>
    s.buffer.dataSize < buffer.length ∨ (buffer.length ≤ s.buffer.freeSize ∧ buffer = s.buffer.unread.take buffer.length)
  | .clear => s.buffer.compacts = false

instance (s : BufferRun) (call : BufferCall) : Decidable (keepsQueue s call) := by
  cases call <;> unfold keepsQueue <;> infer_instance

/-- The positions of the buffer are in order, and it is the queue it is to be. -/
structure BufferRun.QueueInv (s : BufferRun) : Prop where
  wellFormed : s.buffer.WellFormed
  isQueue : s.IsQueue

namespace BufferRun

variable {s t : BufferRun}

/-- A call that answered false left the buffer as it was. -/
theorem IsQueue.refuse (h : s.IsQueue) : (s.refuse s.buffer).IsQueue where
  inside := h.inside
  unread := h.unread
  delivered := h.delivered
  refused := by
    intro p hp
    rcases List.mem_append.1 hp with hp | hp
    · exact h.refused p hp
    · rw [List.mem_singleton.1 hp]

theorem QueueInv.refuse (h : s.QueueInv) : (s.refuse s.buffer).QueueInv :=
  ⟨h.wellFormed, h.isQueue.refuse⟩

/-- `OnWrite` puts its bytes behind those of the queue. -/
theorem QueueInv.write (h : s.QueueInv) (buffer : List UInt8) : (s.write buffer).QueueInv := by
  by_cases hf : s.buffer.freeSize < buffer.length
  · rw [BufferRun.write, PacketBuffer.onWrite_of_not_fits _ hf]
    exact h.refuse
  · have hfit := Nat.le_of_not_lt hf
    have hw := h.wellFormed.onWrite buffer
    have hu := PacketBuffer.unread_onWrite h.wellFormed hfit
    rw [BufferRun.write]
    rw [PacketBuffer.onWrite_of_fits _ hfit] at hw hu ⊢
    exact ⟨hw, h.isQueue.inside, hu.trans (by rw [h.isQueue.unread]), h.isQueue.delivered, h.isQueue.refused⟩

/-- `OnRead(size)` drops the first bytes of the queue. -/
theorem QueueInv.read (h : s.QueueInv) (size : Nat) : (s.read size).QueueInv := by
  by_cases hs : s.buffer.dataSize < size
  · rw [BufferRun.read, PacketBuffer.onRead, if_pos hs]
    exact h.refuse
  · have hle := Nat.le_of_not_lt hs
    have hw := h.wellFormed.onRead size
    have hu := s.buffer.unread_onRead hle
    rw [BufferRun.read]
    rw [PacketBuffer.onRead_of_le _ hle] at hw hu ⊢
    exact ⟨hw, h.isQueue.inside, hu.trans (by rw [h.isQueue.unread]), h.isQueue.delivered, h.isQueue.refused⟩

/-- `OnRead(buffer, size)` reads from the queue exactly when `buffer` happens to hold its first bytes already, and there is
room to copy them back. -/
theorem QueueInv.readInto (h : s.QueueInv) (buffer : List UInt8) :
    (keepsQueue s (.readInto buffer) → (s.readInto buffer).QueueInv) ∧
      ((s.readInto buffer).IsQueue → keepsQueue s (.readInto buffer)) := by
  rcases s.buffer.onReadInto_cases buffer with ⟨hlt, heq⟩ | ⟨hle, hcap, heq⟩ | ⟨hle, hcap, heq⟩
  · rw [BufferRun.readInto, heq]
    exact ⟨fun _ => h.refuse, fun _ => Or.inl hlt⟩
  · rw [BufferRun.readInto, heq]
    constructor
    · rintro (hlt | ⟨hfit, -⟩)
      · omega
      · unfold PacketBuffer.freeSize at hfit
        have hw := h.wellFormed.write_le
        omega
    · intro hq
      cases hq.inside
  · have hr := h.wellFormed.read_le
    have hw := h.wellFormed.write_le
    have hu := PacketBuffer.unread_write_behind h.wellFormed buffer hle
    rw [BufferRun.readInto, heq]
    constructor
    · rintro (hlt | ⟨-, hgot⟩)
      · omega
      · refine ⟨⟨?_, hw⟩, h.isQueue.inside, hu.trans (by rw [h.isQueue.unread]), ?_, h.isQueue.refused⟩
        · unfold PacketBuffer.dataSize at hle
          show s.buffer.readPos + buffer.length ≤ s.buffer.writePos
          omega
        · show s.delivered ++ buffer = s.due ++ s.queue.take buffer.length
          rw [h.isQueue.delivered, ← h.isQueue.unread, ← hgot]
    · intro hq
      have hd : s.delivered ++ buffer = s.due ++ s.queue.take buffer.length := hq.delivered
      rw [h.isQueue.delivered, List.append_cancel_left_eq, ← h.isQueue.unread] at hd
      refine Or.inr ⟨?_, hd⟩
      unfold PacketBuffer.freeSize
      omega

/-- `Clear` keeps the queue exactly when it does not move it. -/
theorem QueueInv.clear (h : s.QueueInv) :
    (s.buffer.compacts = false → QueueInv { s with buffer := s.buffer.clear }) ∧
      (IsQueue { s with buffer := s.buffer.clear } → s.buffer.compacts = false) := by
  constructor
  · intro hc
    have hu := s.buffer.unread_clear hc
    exact ⟨h.wellFormed.clear, h.isQueue.inside, hu.trans h.isQueue.unread, h.isQueue.delivered, h.isQueue.refused⟩
  · intro hq
    by_contra hc
    have hc : s.buffer.compacts = true := by simpa using hc
    obtain ⟨hr, hw⟩ := s.buffer.clear_of_compacts hc
    have hnone : s.buffer.clear.dataSize = 0 := by rw [PacketBuffer.dataSize, hw, hr]
    have hsize : s.buffer.dataSize = 0 := by
      rw [← PacketBuffer.unread_length, h.isQueue.unread, ← show s.buffer.clear.unread = s.queue from hq.unread,
        PacketBuffer.unread_length, hnone]
    simp [PacketBuffer.compacts, hsize] at hc

end BufferRun

/-- A call keeps the buffer a queue exactly when it meets the condition. -/
theorem bufferStep_isQueue {s t : BufferRun} {call : BufferCall} (h : s.QueueInv) (hs : bufferStep s call = some t) :
    (keepsQueue s call → t.QueueInv) ∧ (t.IsQueue → keepsQueue s call) := by
  have hin : ¬s.overrun = true := by
    rw [h.isQueue.inside]
    exact Bool.false_ne_true
  unfold bufferStep at hs
  rw [if_neg hin] at hs
  cases call with
  | write buffer =>
    obtain rfl := Option.some.inj hs
    exact ⟨fun _ => h.write buffer, fun _ => trivial⟩
  | read size =>
    obtain rfl := Option.some.inj hs
    exact ⟨fun _ => h.read size, fun _ => trivial⟩
  | readInto buffer =>
    obtain rfl := Option.some.inj hs
    exact h.readInto buffer
  | clear =>
    obtain rfl := Option.some.inj hs
    exact h.clear

/-- In a run of calls on a buffer of any size, the buffer is the byte queue it stands for throughout exactly when no `Clear`
moves unread bytes, and each `OnRead(buffer, size)` that is not refused has room behind the write position and a `buffer` that
holds the bytes it is to be given already. -/
theorem isQueue_iff {bufferSize : Int} {b : PacketBuffer} (hb : PacketBuffer.ofSize bufferSize = some b)
    {calls : List BufferCall} {t : BufferRun} (hr : (bufferSystem b).run (start b) calls = some t) :
    (∀ front s, front <+: calls → (bufferSystem b).run (start b) front = some s → s.IsQueue) ↔
      (bufferSystem b).Meets keepsQueue (start b) calls := by
  obtain ⟨hu, hw⟩ := PacketBuffer.ofSize_eq_some hb
  have h0 : (start b).QueueInv := ⟨hw, rfl, hu, rfl, nofun⟩
  exact (bufferSystem b).reached_iff_meets (fun _ h => h.isQueue) (fun _ _ _ h _ hs => bufferStep_isQueue h hs) h0
    ((bufferSystem b).meets_true _ _) hr

/-- A buffer for 10 bytes. -/
def tenBytes : PacketBuffer where
  storage := fun _ => 0
  capacity := 10
  bufferSize := 1
  readPos := 0
  writePos := 0

theorem ofSize_one : PacketBuffer.ofSize 1 = some tenBytes := rfl

/-- The rule at a run that fills the buffer, reads two bytes and meets the condition. -/
theorem isQueue_iff_fill :
    (∀ front s, front <+: [.write [1, 2, 3, 4, 5], .read 2, .clear, .write [6, 7, 8, 9, 10, 11]] →
        (bufferSystem tenBytes).run (start tenBytes) front = some s → s.IsQueue) ↔
      (bufferSystem tenBytes).Meets keepsQueue (start tenBytes)
        [.write [1, 2, 3, 4, 5], .read 2, .clear, .write [6, 7, 8, 9, 10, 11]] :=
  isQueue_iff ofSize_one rfl

/-- Ten bytes in a buffer for ten, and `Clear`: none of them is unread any more. One byte, and `OnRead(buffer, 1)`: `buffer`
holds what it held before. -/
theorem tenBytes_notQueue :
    (∃ t, (bufferSystem tenBytes).run (start tenBytes) [.write [1, 2, 3, 4, 5, 6, 7, 8, 9, 10], .clear] = some t ∧
        t.queue = [1, 2, 3, 4, 5, 6, 7, 8, 9, 10] ∧ t.buffer.unread = [] ∧ ¬t.IsQueue) ∧
      ∃ t, (bufferSystem tenBytes).run (start tenBytes) [.write [7], .readInto [0]] = some t ∧
        t.due = [7] ∧ t.delivered = [0] ∧ ¬t.IsQueue := by
  constructor
  · refine ⟨_, rfl, rfl, rfl, fun hq => ?_⟩
    cases hq.unread
  · refine ⟨_, rfl, rfl, rfl, fun hq => ?_⟩
    cases hq.delivered

end ProjectYJ
