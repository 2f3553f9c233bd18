import ProjectYJ.Receive
import ProjectYJ.SessionTables

/-!
# The packet router and its workers

`PacketRouter::Dispatch` puts an item for a session into the queue of the worker its UID selects, and each worker
(`PacketProcessor::Run`) pops the items of its queue one by one, looks the session up in the `SessionManager` and, if it is
there, calls `HandlePacket`. Meanwhile sessions are accepted and closed. The router is taken as running: `Shutdown` ends the
server.
-/

namespace ProjectYJ

/-- What a worker is doing: nothing, looking up the session of an item it popped, about to call `HandlePacket` with the
session it found, or inside that call. -/
inductive WorkerHand where
  | idle
  | popped (item : PacketQueueItem)
  | found (item : PacketQueueItem)
  | handling (item : PacketQueueItem)
  deriving DecidableEq

/-- The item a worker holds. -/
def WorkerHand.item? : WorkerHand → Option PacketQueueItem
  | .idle => none
  | .popped item => some item
  | .found item => some item
  | .handling item => some item

/-- The state of the router: the session tables, the queues (`m_PacketQueue`) and what the workers are doing; and, in the
order they happened, the items dispatched, those `HandlePacket` was called for, and those whose session was not found. The
first threads of the tables are the packet workers. -/
structure RouterState where
  tables : SessionTables
  packetQueue : Int → List PacketQueueItem
  hand : Int → WorkerHand
  dispatched : List PacketQueueItem
  handled : List PacketQueueItem
  dropped : List PacketQueueItem

/-- The thread a step of the session tables belongs to. -/
def TablesStep.thread? : TablesStep → Option Nat
  | .getSession thread _ => some thread
  | .removeSession thread => some thread
  | .releaseSession thread => some thread
  | .letGo thread => some thread
  | _ => none

/-- The steps. `tables` is a step of an accept, of a task worker or of the session pool. `dispatch` is a call of `Dispatch`
by the read handler of a connected session. The others are those of a worker: `try_pop`, `GetSession`, the call of
`HandlePacket` and its return. -/
inductive RouterStep where
  | tables (l : TablesStep)
  | dispatch (session : Nat) (buffer : Nat) (len : Int) (bytes : List UInt8)
  | pop (worker : Int)
  | getSession (worker : Int)
  | handlePacket (worker : Int)
  | handled (worker : Int)

namespace RouterState

open RecvState

/-- No sessions and nothing dispatched. -/
def init (poolSize : Nat) : RouterState where
  tables := SessionTables.init poolSize
  packetQueue := fun _ => []
  hand := fun _ => .idle
  dispatched := []
  handled := []
  dropped := []

/-- What a worker does next. -/
def setHand (s : RouterState) (worker : Int) (hand : WorkerHand) : RouterState :=
  { s with hand := Function.update s.hand worker hand }

/-- `Dispatch`: the item goes to the queue of the worker of its session. -/
def dispatch (s : RouterState) (numWorkers : Nat) (item : PacketQueueItem) : RouterState :=
  { s with
    packetQueue := Function.update s.packetQueue (workerIndex numWorkers item.sessionId)
      (s.packetQueue (workerIndex numWorkers item.sessionId) ++ [item])
    dispatched := s.dispatched ++ [item] }

end RouterState

open RouterState

/-- The step function, for a number of packet workers and one of task workers. -/
def routerStep (numWorkers numTaskWorkers : Nat) (s : RouterState) : RouterStep → Option RouterState
  | .tables l =>
    if ∀ thread ∈ l.thread?, numWorkers ≤ thread then
      (tablesStep (numWorkers + numTaskWorkers) s.tables l).map fun tables => { s with tables := tables }
    else none
  | .dispatch session buffer len bytes =>
    if s.tables.stage session = .connected then
      some (s.dispatch numWorkers { sessionId := s.tables.uid session, buffer := buffer, len := len, bytes := bytes })
    else none
  | .pop worker =>
    if 0 ≤ worker ∧ worker < numWorkers ∧ s.hand worker = .idle then
      match s.packetQueue worker with
      | [] => none
      | item :: rest =>
        some ({ s with packetQueue := Function.update s.packetQueue worker rest }.setHand worker (.popped item))
    else none
  | .getSession worker =>
    match s.hand worker with
    | .popped item =>
      (tablesStep (numWorkers + numTaskWorkers) s.tables (.getSession worker.toNat item.sessionId)).map fun tables =>
        match s.tables.getSession item.sessionId with
        | none => { s with tables := tables, dropped := s.dropped ++ [item] }.setHand worker .idle
        | some _ => { s with tables := tables }.setHand worker (.found item)
    | _ => none
  | .handlePacket worker =>
    match s.hand worker with
    | .found item => some ({ s with handled := s.handled ++ [item] }.setHand worker (.handling item))
    | _ => none
  | .handled worker =>
    match s.hand worker with
    | .handling _ =>
      (tablesStep (numWorkers + numTaskWorkers) s.tables (.letGo worker.toNat)).map fun tables =>
        { s with tables := tables }.setHand worker .idle
    | _ => none

/-- The router with these numbers of workers and pooled session objects. -/
def routerSystem (numWorkers numTaskWorkers poolSize : Nat) : Lts RouterState RouterStep where
  init := RouterState.init poolSize
  step := routerStep numWorkers numTaskWorkers

end ProjectYJ
