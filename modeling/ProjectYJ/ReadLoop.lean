import ProjectYJ.GameSession

/-!
# The read loop of a session

`DoRead` gives the bytes behind the write position of the session's own `m_PacketBuffer` to `async_read_some`; `HandleRead`
moves the write position over the bytes that arrived there, hands a copy of all unread bytes to `RecvData`, takes what arrived
out again and calls `DoRead`. The loop of one connection starts with `ProcessRecv` and ends with a `HandleRead` that reports an
error. A read in progress holds a `shared_ptr` to the session, so the object goes back to the pool only without one.
-/

namespace ProjectYJ

namespace PacketBuffer

/-- What `async_read_some` does to the storage it was given: bytes arrive at an address of it. -/
def arrive (b : PacketBuffer) (pos : Nat) (data : List UInt8) : PacketBuffer :=
  { b with storage := b.storage.write pos data }

/-- `OnWrite(size)`: move the write position over bytes that are there already, or refuse. -/
def onWriteSize (b : PacketBuffer) (size : Nat) : Bool × PacketBuffer :=
  if b.freeSize < size then (false, b) else (true, { b with writePos := b.writePos + size })

end PacketBuffer

/-- A session object with its lives and the read in progress: the address and the size given to `async_read_some`. The last
four fields record what happened: the receive buffer at each `DoRead`, the bytes each completion delivered, the copies handed to
`RecvData`, and whether `OnWrite` reported an overflow. -/
structure ReadLoop where
  life : SessionLife
  pending : Option (Nat × Nat)
  doReads : List PacketBuffer
  received : List (List UInt8)
  recvData : List (List UInt8)
  overflowed : Bool

/-- The steps. `life` is what happens to the object apart from its reads, `processRecv` the end of `HandleAccept`, and the others
are the two outcomes of a read. -/
inductive ReadStep where
  | life (l : LifeStep)
  | processRecv
  | handleRead (data : List UInt8)
  | handleReadError
  deriving DecidableEq

namespace ReadLoop

/-- A newly allocated object with this receive buffer, in the pool. -/
def init (b : PacketBuffer) : ReadLoop where
  life := { object := { GameSession.new with packetBuffer := b }, closed := none, tasks := [] }
  pending := none
  doReads := []
  received := []
  recvData := []
  overflowed := false

/-- The receive buffer of the object. -/
def buffer (s : ReadLoop) : PacketBuffer := s.life.object.packetBuffer

/-- The receive buffer of the object is written. -/
def setBuffer (s : ReadLoop) (b : PacketBuffer) : ReadLoop :=
  { s with life := { s.life with object := { s.life.object with packetBuffer := b } } }

/-- `DoRead`. -/
def doRead (s : ReadLoop) : ReadLoop :=
  { s with pending := some (s.buffer.writePos, s.buffer.freeSize), doReads := s.doReads ++ [s.buffer] }

/-- `HandleRead` without an error, for the bytes that `async_read_some` put at this address. -/
def handleRead (s : ReadLoop) (pos : Nat) (data : List UInt8) : Option ReadLoop :=
  let arrived := s.buffer.arrive pos data
  let written := (arrived.onWriteSize data.length).2
  let s : ReadLoop := { s with pending := none, received := s.received ++ [data] }
  if (arrived.onWriteSize data.length).1 = false then
    (lifeStep (s.setBuffer arrived).life .processDisconnect).map fun life => { s with life := life, overflowed := true }
  else
    some (({ s with recvData := s.recvData ++ [written.unread] } : ReadLoop).setBuffer
      (written.onRead data.length).2.clear).doRead

end ReadLoop

/-- The step function. -/
def readStep (s : ReadLoop) : ReadStep → Option ReadLoop
  | .life (.read _) => none
  | .life .release =>
    if s.pending = none then (lifeStep s.life .release).map fun life => { s with life := life } else none
  | .life l => (lifeStep s.life l).map fun life => { s with life := life }
  | .processRecv => if s.life.closed ≠ none ∧ s.pending = none then some s.doRead else none
  | .handleRead data => s.pending.bind fun p => if data.length ≤ p.2 then s.handleRead p.1 data else none
  | .handleReadError =>
    s.pending.bind fun _ => (lifeStep s.life .processDisconnect).map fun life => { s with life := life, pending := none }

/-- The read loop of an object whose receive buffer was constructed as `b`. -/
def readSystem (b : PacketBuffer) : Lts ReadLoop ReadStep where
  init := ReadLoop.init b
  step := readStep

end ProjectYJ
