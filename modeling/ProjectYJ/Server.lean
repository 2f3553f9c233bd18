import ProjectYJ.Chat
import ProjectYJ.Connections
import ProjectYJ.Receive

/-!
# The server

The parts together, from `HandleAccept` to the deleter of the session pool: the io threads that run the handlers of the sessions,
the packet workers (`PacketProcessor::Run`), and the task workers (`TaskQueue::WorkerThread`). Accepts, handlers and workers
interleave at the points where they use what they share; a request is handled as one step, as in `Chat`.

Of a packet only its way is followed here, and what `HandlePacket` makes of it is left open: any request, or none. `Shutdown`
and `CloseService` end the server and are no steps.
-/

namespace ProjectYJ

/-- A `PacketQueueItem`: of its fields the `sessionId`. The others tell the items apart: the connection it came from, how many
items were dispatched before it, and whether it was dispatched before `ProcessDisconnect` pushed a task of its connection. -/
structure ServerItem where
  sessionId : Int
  conn : Nat
  serial : Nat
  early : Bool
  deriving DecidableEq, Repr

/-- What a packet worker is doing: nothing, looking up the session of an item it popped, about to call `HandlePacket` with the
session it found, or inside that call. -/
inductive PacketWorker where
  | idle
  | popped (item : ServerItem)
  | found (item : ServerItem)
  | handling (item : ServerItem)
  deriving DecidableEq

/-- The item a packet worker has still to call `HandlePacket` for. -/
def PacketWorker.waiting? : PacketWorker → Option ServerItem
  | .popped item => some item
  | .found item => some item
  | _ => none

/-- The read of a session: none; `async_read_some` is waiting; `HandleRead` is running; it is in `ProcessDisconnect` because of
an overflow of the receive buffer. -/
inductive Reading where
  | idle
  | waiting
  | receiving
  | overflowing
  deriving DecidableEq, Repr

/-- The state of the server: the connections and the chat, of whose sessions the UID, the `NetState` and the players are used; the
keys of `m_SessionBuffers`; the queues of the packet workers and of the task workers, what the packet workers are doing and
which tasks the task workers have popped; and for each session its read, the number of its writes that are waiting, and the
number of its handlers in `ProcessDisconnect` past the test of the `NetState`. The first threads of the session tables are the
packet workers, the others the task workers. The last four fields record the connections a task was pushed for, and the items
dispatched, those `HandlePacket` was called for and those whose session was not found. -/
structure Server where
  conns : Connections
  chat : ChatState
  sessionBuffers : Finset Int
  packetQueue : Int → List ServerItem
  worker : Nat → PacketWorker
  taskQueue : List IoTask
  task : Nat → Option IoTask
  reading : Nat → Reading
  writes : Nat → Nat
  disconnecting : Nat → Nat
  disconnected : List Nat
  dispatched : List ServerItem
  handled : List ServerItem
  dropped : List ServerItem

/-- The steps. `maker`, `addSession`, `setSessionUID` and `processRecv` are `HandleAccept`. `handleRead` to `readError` are the
handler of a read: `AddData`, an overflow in it with the two halves of its `ProcessDisconnect`, a call of `Dispatch`, the next
`DoRead`, or the branches for an error. `handleWrite` is the handler of a write, with or without an error, and `pushTask` the
second half of the `ProcessDisconnect` of either. `popPacket` to `handled` are a packet worker, and `popTask` to `releaseSession` a
task worker. `recycle` is the deleter. -/
inductive ServerStep where
  | maker
  | addSession (session : Nat)
  | setSessionUID (session : Nat)
  | processRecv (session : Nat)
  | handleRead (session : Nat)
  | overflow (session : Nat)
  | pushOverflow (session : Nat)
  | dispatch (session : Nat)
  | doRead (session : Nat)
  | readError (session : Nat)
  | handleWrite (session : Nat) (error : Bool)
  | pushTask (session : Nat)
  | popPacket (worker : Nat)
  | getSession (worker : Nat)
  | handlePacket (worker : Nat) (request : Option ChatRequest)
  | handled (worker : Nat)
  | popTask (worker : Nat)
  | processIoTask (worker : Nat)
  | setNetState (worker : Nat)
  | removeSession (worker : Nat)
  | releaseSession (worker : Nat)
  | recycle (session : Nat)

namespace Server

open RecvState (workerIndex)

/-- The server after `InitPool`. -/
def init (poolSize : Nat) : Server where
  conns := Connections.init poolSize
  chat := ChatState.init fun _ => 0
  sessionBuffers := ∅
  packetQueue := fun _ => []
  worker := fun _ => .idle
  taskQueue := []
  task := fun _ => none
  reading := fun _ => .idle
  writes := fun _ => 0
  disconnecting := fun _ => 0
  disconnected := []
  dispatched := []
  handled := []
  dropped := []

/-- `m_SessionUID` of a session. -/
def uid (s : Server) (session : Nat) : Int := s.conns.tables.uid session

/-- What the read of a session does next. -/
def setReading (s : Server) (session : Nat) (reading : Reading) : Server :=
  { s with reading := Function.update s.reading session reading }

/-- What a packet worker does next. -/
def setWorker (s : Server) (w : Nat) (worker : PacketWorker) : Server :=
  { s with worker := Function.update s.worker w worker }

/-- The task of a task worker. -/
def setTask (s : Server) (w : Nat) (task : Option IoTask) : Server := { s with task := Function.update s.task w task }

/-- A session with its fields changed. -/
def setSession (s : Server) (session : Nat) (g : GameSession) : Server :=
  { s with chat := { s.chat with session := Function.update s.chat.session session g } }

/-- `ProcessDisconnect` up to its test: it goes on unless the session is disconnected already. -/
def processDisconnect (s : Server) (session : Nat) : Server :=
  if (s.chat.session session).netState = .Disconnect then s
  else { s with disconnecting := Function.update s.disconnecting session (s.disconnecting session + 1) }

/-- The rest of `ProcessDisconnect`: the `NetState`, and the task with it. -/
def pushTask (s : Server) (session : Nat) : Server :=
  { s.setSession session { s.chat.session session with netState := .Disconnect } with
    taskQueue := s.taskQueue ++ [{ sessionUID := s.uid session, state := .Disconnect }]
    disconnected := (s.conns.conn session).toList ++ s.disconnected }

/-- `Dispatch`: the item goes to the queue of the worker of its session. -/
def dispatch (s : Server) (numWorkers session conn : Nat) : Server :=
  let item : ServerItem :=
    { sessionId := s.uid session, conn := conn, serial := s.dispatched.length, early := decide (conn ∉ s.disconnected) }
  { s with
    packetQueue := Function.update s.packetQueue (workerIndex numWorkers item.sessionId)
      (s.packetQueue (workerIndex numWorkers item.sessionId) ++ [item])
    dispatched := s.dispatched ++ [item] }

/-- What a request did, and its calls of `Send`. -/
def answer (s : Server) (out : Handled) : Server :=
  { s with chat := out.state, writes := fun session => s.writes session + (out.sends.map Prod.fst).count session }

/-- A read, a write or a `ProcessDisconnect` holds the session. -/
def Held (s : Server) (session : Nat) : Prop :=
  s.reading session ≠ .idle ∨ 0 < s.writes session ∨ 0 < s.disconnecting session

instance (s : Server) (session : Nat) : Decidable (s.Held session) := inferInstanceAs (Decidable (_ ∨ _ ∨ _))

/-- A player is in the `m_Player` of an object, which stays when the object is back in the pool, or in a room of the
`ChatRoomManager`. -/
def PlayerAlive (s : Server) (player : Nat) : Prop :=
  (∃ a < s.conns.tables.made, player ∈ (s.chat.session a).players) ∨ ∃ e ∈ s.chat.rooms.toList, player ∈ s.chat.members e.2

instance (s : Server) (player : Nat) : Decidable (s.PlayerAlive player) := inferInstanceAs (Decidable (_ ∨ _))

/-- The `ownerSession` of a player that is alive is the session. -/
def Owned (s : Server) (session : Nat) : Prop :=
  ∃ p < s.chat.playersMade, (s.chat.player p).ownerSession = session ∧ s.PlayerAlive p

instance (s : Server) (session : Nat) : Decidable (s.Owned session) := inferInstanceAs (Decidable (∃ p < _, _))

/-- A step of the session tables, and what goes with it. -/
def connStep (s : Server) (numThreads : Nat) (l : TablesStep) (f : Server → Server) : Option Server :=
  (ProjectYJ.connStep numThreads s.conns l).map fun conns => f { s with conns := conns }

end Server

open Server

/-- The step function, for the conversion of strings, a number of packet workers and one of task workers. -/
def serverStep (stringToUTF8 : String → String) (numWorkers numTaskWorkers : Nat) (s : Server) : ServerStep → Option Server
  | .maker => s.connStep (numWorkers + numTaskWorkers) .maker id
  | .addSession session => s.connStep (numWorkers + numTaskWorkers) (.addSession session) id
  | .setSessionUID session =>
    s.connStep (numWorkers + numTaskWorkers) (.setSessionUID session)
      (·.setSession session { s.chat.session session with sessionUID := s.conns.tables.nextUID })
  | .processRecv session =>
    s.connStep (numWorkers + numTaskWorkers) (.onConnected session) (·.setReading session .waiting)
  | .handleRead session =>
    if s.reading session = .waiting then
      some ({ s with sessionBuffers := insert (s.uid session) s.sessionBuffers }.setReading session .receiving)
    else none
  | .overflow session =>
    if s.reading session = .receiving ∧ (s.chat.session session).netState ≠ .Disconnect then
      some (s.setReading session .overflowing)
    else none
  | .pushOverflow session =>
    if s.reading session = .overflowing then some ((s.pushTask session).setReading session .receiving) else none
  | .dispatch session =>
    if s.reading session = .receiving ∧ s.uid session ∈ s.sessionBuffers then
      (s.conns.conn session).map (s.dispatch numWorkers session)
    else none
  | .doRead session => if s.reading session = .receiving then some (s.setReading session .waiting) else none
  | .readError session =>
    if s.reading session = .waiting then some ((s.processDisconnect session).setReading session .idle) else none
  | .handleWrite session error =>
    if 0 < s.writes session then
      let s := if error then s.processDisconnect session else s
      some { s with writes := Function.update s.writes session (s.writes session - 1) }
    else none
  | .pushTask session =>
    if 0 < s.disconnecting session then
      some { s.pushTask session with
        disconnecting := Function.update s.disconnecting session (s.disconnecting session - 1) }
    else none
  | .popPacket w =>
    if w < numWorkers ∧ s.worker w = .idle then
      match s.packetQueue w with
      | [] => none
      | item :: rest => some ({ s with packetQueue := Function.update s.packetQueue w rest }.setWorker w (.popped item))
    else none
  | .getSession w =>
    match s.worker w with
    | .popped item =>
      s.connStep (numWorkers + numTaskWorkers) (.getSession w item.sessionId) fun t =>
        match s.conns.tables.getSession item.sessionId with
        | none => { t with dropped := t.dropped ++ [item] }.setWorker w .idle
        | some _ => t.setWorker w (.found item)
    | _ => none
  | .handlePacket w request =>
    match s.worker w, s.conns.tables.hand w with
    | .found item, .got session =>
      match request with
      | none => some ({ s with handled := s.handled ++ [item] }.setWorker w (.handling item))
      | some request =>
        match s.chat.handle stringToUTF8 session request with
        | .error _ => none
        | .ok out => some ({ s.answer out with handled := s.handled ++ [item] }.setWorker w (.handling item))
    | _, _ => none
  | .handled w =>
    match s.worker w with
    | .handling _ => s.connStep (numWorkers + numTaskWorkers) (.letGo w) (·.setWorker w .idle)
    | _ => none
  | .popTask w =>
    if numWorkers ≤ w ∧ w < numWorkers + numTaskWorkers ∧ s.task w = none then
      match s.taskQueue with
      | [] => none
      | task :: rest => some ({ s with taskQueue := rest }.setTask w (some task))
    else none
  | .processIoTask w =>
    match s.task w with
    | some task =>
      s.connStep (numWorkers + numTaskWorkers) (.getSession w task.sessionUID) fun t =>
        match s.conns.tables.getSession task.sessionUID with
        | none => t.setTask w none
        | some _ => t
    | none => none
  | .setNetState w =>
    match s.task w, s.conns.tables.hand w with
    | some task, .got session =>
      if task.state = .Disconnect then none
      else
        s.connStep (numWorkers + numTaskWorkers) (.letGo w) fun t =>
          (if task.state = .Reconnect then t
            else t.setSession session { t.chat.session session with netState := task.state }).setTask w none
    | _, _ => none
  | .removeSession w =>
    match s.task w with
    | some task =>
      if task.state = .Disconnect then s.connStep (numWorkers + numTaskWorkers) (.removeSession w) id else none
    | none => none
  | .releaseSession w => s.connStep (numWorkers + numTaskWorkers) (.releaseSession w) (·.setTask w none)
  | .recycle session =>
    if s.Held session ∨ s.Owned session then none
    else s.connStep (numWorkers + numTaskWorkers) (.recycle session) id

/-- The server, with these numbers of workers and pooled session objects. -/
def serverSystem (stringToUTF8 : String → String) (numWorkers numTaskWorkers poolSize : Nat) : Lts Server ServerStep where
  init := Server.init poolSize
  step := serverStep stringToUTF8 numWorkers numTaskWorkers

end ProjectYJ
