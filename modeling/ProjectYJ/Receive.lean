import ProjectYJ.Lib.Lts
import ProjectYJ.PacketBuffer
import ProjectYJ.ProcessPacket
import Mathlib.Logic.Function.Basic

/-!
# The receive path

The io threads call `NetworkHandler::RecvData` for each chunk they read: `SessionPacketBuffer::AddData` appends it to the
buffer of the session, `ProcessSessionBuffer` lets `ProcessPacket` split what is unread and `Dispatch` each packet to the
queue of a worker, as a pointer into that buffer and a length. The workers (`PacketProcessor::Run`) pop items and call
`HandlePacket` on the bytes the pointer reads then.

`AddData` and `ProcessSessionBuffer` each hold the one mutex of `SessionPacketBuffer`. A step of the system is one of them
taking the mutex, one iteration of the loop of `ProcessPacket` (after each the workers may run), the end of
`ProcessSessionBuffer`, or a step of a worker. Sessions are named by their UID, the key of `m_SessionBuffers`.
-/

namespace ProjectYJ

/-- `PacketQueueItem`: the session, the pointer (an address in the storage of the session's buffer) and the length; and, for
the statements only, the bytes at that address when the item was enqueued. -/
structure PacketQueueItem where
  sessionId : Int
  buffer : Nat
  len : Int
  bytes : List UInt8
  deriving DecidableEq

/-- The state of the receive path. `processing` is the session whose `ProcessPacket` is running and its `processLen`;
`receiving` says that a `RecvData` of the session is between `AddData` and the end of `ProcessSessionBuffer`. The last four
fields record what happened: the bytes given to `RecvData`, whether `AddData` reported an overflow, the calls of `Dispatch`,
and the calls of `HandlePacket` with the bytes each read. -/
structure RecvState where
  sessionBuffers : Int → Option PacketBuffer
  receiving : Int → Bool
  processing : Option (Int × Int)
  packetQueue : Int → List PacketQueueItem
  hand : Int → Option PacketQueueItem
  received : Int → List UInt8
  overflowed : Int → Bool
  dispatched : List PacketQueueItem
  handled : List (PacketQueueItem × List UInt8)

/-- The steps. `finish` is the end of `ProcessSessionBuffer`; `drop` is a worker whose `GetSession` found no session. -/
inductive RecvStep where
  | addData (sessionId : Int) (data : List UInt8)
  | process (sessionId : Int)
  | dispatch
  | finish
  | pop (worker : Int)
  | handle (worker : Int)
  | drop (worker : Int)

namespace RecvState

/-- No buffers, nothing queued. -/
def init : RecvState where
  sessionBuffers := fun _ => none
  receiving := fun _ => false
  processing := none
  packetQueue := fun _ => []
  hand := fun _ => none
  received := fun _ => []
  overflowed := fun _ => false
  dispatched := []
  handled := []

/-- The buffer `AddData` uses for a session: the one there is, or a new one. -/
def buffer (s : RecvState) (sessionId : Int) : PacketBuffer := (s.sessionBuffers sessionId).getD PacketBuffer.new

/-- `AddData`: the chunk goes behind the unread bytes, or is dropped with an overflow report. -/
def addData (s : RecvState) (sessionId : Int) (data : List UInt8) : RecvState :=
  let written := (s.buffer sessionId).onWrite data
  { s with
    sessionBuffers := Function.update s.sessionBuffers sessionId (some written.2)
    receiving := Function.update s.receiving sessionId true
    received := Function.update s.received sessionId (s.received sessionId ++ data)
    overflowed := if written.1 then s.overflowed else Function.update s.overflowed sessionId true }

/-- `GetWorkerIndex`: the remainder of C++. -/
def workerIndex (numWorkers : Nat) (sessionId : Int) : Int := sessionId.tmod numWorkers

/-- The item `Dispatch` enqueues for a slice of the unread bytes. -/
def queueItem (sessionId : Int) (b : PacketBuffer) (slice : Slice) : PacketQueueItem where
  sessionId := sessionId
  buffer := b.readPos + slice.offset.toNat
  len := slice.size
  bytes := slice.bytes b.unread

/-- `Dispatch`, and the loop of `ProcessPacket` going on at `next`. -/
def dispatch (s : RecvState) (numWorkers : Nat) (item : PacketQueueItem) (next : Int) : RecvState :=
  { s with
    processing := some (item.sessionId, next)
    packetQueue := Function.update s.packetQueue (workerIndex numWorkers item.sessionId)
      (s.packetQueue (workerIndex numWorkers item.sessionId) ++ [item])
    dispatched := s.dispatched ++ [item] }

/-- What `ProcessSessionBuffer` does to the buffer after `ProcessPacket` returned `processLen`: nothing when it is not
positive or `OnRead` refuses it, otherwise `OnRead` and `Clear`. -/
def consume (b : PacketBuffer) (processLen : Int) : PacketBuffer :=
  if processLen ≤ 0 then b
  else if (b.onRead processLen.toNat).1 = false then b
  else (b.onRead processLen.toNat).2.clear

/-- The end of `ProcessSessionBuffer`, which is the end of `RecvData`. -/
def finish (s : RecvState) (sessionId : Int) (b : PacketBuffer) (processLen : Int) : RecvState :=
  { s with
    sessionBuffers := Function.update s.sessionBuffers sessionId (some (consume b processLen))
    receiving := Function.update s.receiving sessionId false
    processing := none }

end RecvState

open RecvState

/-- The step function, for a number of workers. A chunk is not empty and at most what one read may take. -/
def recvStep (numWorkers : Nat) (s : RecvState) : RecvStep → Option RecvState
  | .addData sessionId data =>
    if s.processing = none ∧ s.receiving sessionId = false ∧ data ≠ [] ∧ data.length ≤ 655360 then
      some (s.addData sessionId data)
    else none
  | .process sessionId =>
    if s.processing = none ∧ s.receiving sessionId = true then
      match s.sessionBuffers sessionId with
      | none => some { s with receiving := Function.update s.receiving sessionId false }
      | some _ => some { s with processing := some (sessionId, 0) }
    else none
  | .dispatch =>
    match s.processing with
    | none => none
    | some (sessionId, processLen) =>
      (s.sessionBuffers sessionId).bind fun b =>
        (processPacketStep b.unread processLen).map fun r =>
          s.dispatch numWorkers (queueItem sessionId b r.1) r.2
  | .finish =>
    match s.processing with
    | none => none
    | some (sessionId, processLen) =>
      (s.sessionBuffers sessionId).bind fun b =>
        if processPacketStep b.unread processLen = none then some (s.finish sessionId b processLen) else none
  | .pop worker =>
    if 0 ≤ worker ∧ worker < numWorkers ∧ s.hand worker = none then
      match s.packetQueue worker with
      | [] => none
      | item :: rest =>
        some { s with
          packetQueue := Function.update s.packetQueue worker rest
          hand := Function.update s.hand worker (some item) }
    else none
  | .handle worker =>
    (s.hand worker).bind fun item =>
      (s.sessionBuffers item.sessionId).map fun b =>
        { s with
          hand := Function.update s.hand worker none
          handled := s.handled ++ [(item, b.storage.read item.buffer item.len.toNat)] }
  | .drop worker =>
    (s.hand worker).map fun _ => { s with hand := Function.update s.hand worker none }

/-- The receive path with this many workers. -/
def recvSystem (numWorkers : Nat) : Lts RecvState RecvStep where
  init := RecvState.init
  step := recvStep numWorkers

end ProjectYJ
