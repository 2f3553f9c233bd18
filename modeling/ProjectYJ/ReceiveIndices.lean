import ProjectYJ.Lib.Lts
import ProjectYJ.PacketBuffer
import Mathlib.Logic.Function.Basic

/-!
# The indices of the receive path

The `PacketBuffer` of `PacketBuffer.lean` once more, with the machine arithmetic of the source: capacity, size and positions are
`int32`, an index into `m_Buffer` and the length of a `memcpy` are converted to `size_t`. The bytes are left out; instead every
operation says which ranges of `m_Buffer` it touches. The system is all buffers of the receive path: the `m_PacketBuffer` of each
session object and the buffers of `SessionPacketBuffer`.
-/

namespace ProjectYJ

/-- The fields of a `PacketBuffer`; of `m_Buffer` its size. -/
structure BufferFields where
  size : Nat
  capacity : Int
  bufferSize : Int
  readPos : Int
  writePos : Int
  deriving DecidableEq, Repr

/-- A range of `m_Buffer` that is read or written, and the fields at that time. -/
structure Touch where
  fields : BufferFields
  index : Nat
  length : Nat
  deriving DecidableEq, Repr

namespace BufferFields

/-- `Init`. -/
def init (f : BufferFields) (bufferSize : Int) : BufferFields :=
  { f with size := toSizeT (toInt32 (bufferSize * 10)), capacity := toInt32 (bufferSize * 10), bufferSize := bufferSize }

/-- The default constructor. -/
def new : BufferFields := init { size := 0, capacity := 0, bufferSize := 0, readPos := 0, writePos := 0 } 65536

/-- `DataSize`. -/
def dataSize (f : BufferFields) : Int := toInt32 (f.writePos - f.readPos)

/-- `FreeSize`. -/
def freeSize (f : BufferFields) : Int := toInt32 (f.capacity - f.writePos)

/-- What goes through `ReadPos()`: `length` bytes from `&m_Buffer[m_ReadPos]` on. -/
def atReadPos (f : BufferFields) (length : Int) : Touch := ⟨f, toSizeT f.readPos, toSizeT length⟩

/-- What goes through `WritePos()`: `length` bytes from `&m_Buffer[m_WritePos]` on. -/
def atWritePos (f : BufferFields) (length : Int) : Touch := ⟨f, toSizeT f.writePos, toSizeT length⟩

/-- `OnWrite(size)`. -/
def onWriteSize (f : BufferFields) (size : Int) : Bool × BufferFields :=
  if f.freeSize < size then (false, f) else (true, { f with writePos := toInt32 (f.writePos + size) })

/-- `OnWrite(buffer, size)`: its `memcpy`, and then as `OnWrite(size)`. -/
def onWrite (f : BufferFields) (size : Int) : (Bool × BufferFields) × List Touch :=
  (f.onWriteSize size, if f.freeSize < size then [] else [f.atWritePos size])

/-- `OnRead(size)`. -/
def onRead (f : BufferFields) (size : Int) : Bool × BufferFields :=
  if f.dataSize < size then (false, f) else (true, { f with readPos := toInt32 (f.readPos + size) })

/-- `Clear`, and the two ranges of its `memcpy`. -/
def clear (f : BufferFields) : BufferFields × List Touch :=
  if f.dataSize = 0 then ({ f with readPos := 0, writePos := 0 }, [])
  else if f.freeSize < f.bufferSize then
    ({ f with readPos := 0, writePos := 0 }, [⟨f, 0, toSizeT f.dataSize⟩, f.atReadPos f.dataSize])
  else (f, [])

end BufferFields

/-- The buffers of the receive path: `m_PacketBuffer` of each session object, and `m_SessionBuffers`. The last two fields record
what was touched, and whether `ProcessSessionBuffer` took the branch of a refused `OnRead`. -/
structure ReceiveIndices where
  packetBuffer : Nat → BufferFields
  sessionBuffers : Int → Option BufferFields
  touched : List Touch
  refused : Bool

/-- The steps. `doRead` is the `DoRead` of `ProcessRecv`; the length of `handleRead` is the one of the completion, that of
`addData` the `size_t` `RecvData` passes on; the `processLen` is what `ProcessPacket` returned. -/
inductive IndexStep where
  | initSession (session : Nat)
  | doRead (session : Nat)
  | handleRead (session : Nat) (length : Int)
  | addData (sessionId : Int) (length : Nat)
  | processSessionBuffer (sessionId processLen : Int)

namespace ReceiveIndices

/-- Newly allocated session objects, and no session buffer. -/
def init : ReceiveIndices where
  packetBuffer := fun _ => BufferFields.new
  sessionBuffers := fun _ => none
  touched := []
  refused := false

/-- The receive buffer of a session object is written. -/
def setPacketBuffer (s : ReceiveIndices) (session : Nat) (f : BufferFields) (touched : List Touch) : ReceiveIndices :=
  { s with packetBuffer := Function.update s.packetBuffer session f, touched := s.touched ++ touched }

/-- The buffer `m_SessionBuffers` holds for a session is written. -/
def setSessionBuffer (s : ReceiveIndices) (sessionId : Int) (f : BufferFields) (touched : List Touch) : ReceiveIndices :=
  { s with sessionBuffers := Function.update s.sessionBuffers sessionId (some f), touched := s.touched ++ touched }

/-- `DoRead`: `WritePos()` and `FreeSize()` go to `async_read_some`. -/
def doRead (s : ReceiveIndices) (session : Nat) : ReceiveIndices :=
  s.setPacketBuffer session (s.packetBuffer session)
    [(s.packetBuffer session).atWritePos (s.packetBuffer session).freeSize]

/-- `HandleRead` of a read that delivered `length` bytes behind the write position: `OnWrite`, the copy of the unread bytes,
`OnRead`, `Clear` and `DoRead`; or nothing more where `OnWrite` refuses. -/
def handleRead (s : ReceiveIndices) (session : Nat) (length : Int) : ReceiveIndices :=
  let f := s.packetBuffer session
  let written := (f.onWriteSize length).2
  if (f.onWriteSize length).1 = false then s.setPacketBuffer session f [f.atWritePos length]
  else
    (s.setPacketBuffer session (written.onRead length).2.clear.1
      (f.atWritePos length :: written.atReadPos written.dataSize :: (written.onRead length).2.clear.2)).doRead session

/-- `AddData`: a new buffer where there is none, then `OnWrite` with the length narrowed to `int32`. -/
def addData (s : ReceiveIndices) (sessionId : Int) (length : Nat) : ReceiveIndices :=
  let written := ((s.sessionBuffers sessionId).getD BufferFields.new).onWrite (toInt32 length)
  if length = 0 then s else s.setSessionBuffer sessionId written.1.2 written.2

/-- `ProcessSessionBuffer` on the buffer there is, for the value `ProcessPacket` returns. -/
def processSessionBuffer (s : ReceiveIndices) (sessionId : Int) (f : BufferFields) (processLen : Int) : ReceiveIndices :=
  let s := s.setSessionBuffer sessionId f [f.atReadPos f.dataSize]
  if processLen ≤ 0 then s
  else if (f.onRead processLen).1 = false then { s with refused := true }
  else s.setSessionBuffer sessionId (f.onRead processLen).2.clear.1 (f.onRead processLen).2.clear.2

end ReceiveIndices

/-- The step function. A completion delivers at most what was free; the length `RecvData` passes on is one `HandleRead` counted
in an `int32`; and `ProcessPacket` returns a length of what is unread. -/
def indexStep (s : ReceiveIndices) : IndexStep → Option ReceiveIndices
  | .initSession session => some (s.setPacketBuffer session ((s.packetBuffer session).init 65536) [])
  | .doRead session => some (s.doRead session)
  | .handleRead session length =>
    if 0 ≤ length ∧ length ≤ (s.packetBuffer session).freeSize then some (s.handleRead session length) else none
  | .addData sessionId length => if length < 2147483648 then some (s.addData sessionId length) else none
  | .processSessionBuffer sessionId processLen =>
    match s.sessionBuffers sessionId with
    | none => some s
    | some f => if 0 ≤ processLen ∧ processLen ≤ f.dataSize then some (s.processSessionBuffer sessionId f processLen) else none

/-- The buffers of the receive path, in any order of steps. -/
def indexSystem : Lts ReceiveIndices IndexStep where
  init := ReceiveIndices.init
  step := indexStep

end ProjectYJ
