import ProjectYJ.Lib.Lts
import ProjectYJ.PacketBuffer

/-!
# A session object and its lives

A `GameSession` object serves one connection after another. A life begins when the `SessionMaker` and `CreateSession` make a
session of the object (`create`), and ends when its last `shared_ptr` goes and the deleter pushes it to the session pool
again. The deleter resets nothing; what a new life begins with is what the last one left, except for the fields
`InitSession`, `SetService` and `SetSessionUID` write.
-/

namespace ProjectYJ

/-- `NetState`. -/
inductive NetState where
  | None
  | Connected
  | Disconnect
  | Reconnect
  deriving DecidableEq, Repr

/-- `IoTask`. -/
structure IoTask where
  sessionUID : Int
  state : NetState
  deriving DecidableEq, Repr

/-- The fields of a `GameSession`: the pointers to the io context and the socket, the service, the UID, the receive buffer
of the object, the `NetState`, the sequence number, and the players of `m_Player` (pointers, named by numbers). `m_Resolver`
and `m_Timer` are null throughout on a server. -/
structure GameSession where
  ioContext : Option Nat
  socket : Option Nat
  isRunning : Bool
  service : Option Nat
  sessionUID : Int
  packetBuffer : PacketBuffer
  netState : NetState
  seqNum : Nat
  players : List Nat

namespace GameSession

/-- A newly allocated object. -/
def new : GameSession where
  ioContext := none
  socket := none
  isRunning := false
  service := none
  sessionUID := 0
  packetBuffer := PacketBuffer.new
  netState := .None
  seqNum := 0
  players := []

/-- `InitSession`. -/
def initSession (g : GameSession) (ioContext socket : Nat) : GameSession :=
  { g with ioContext := some ioContext, socket := some socket, packetBuffer := g.packetBuffer.init 65536 }

/-- What the `SessionMaker` and `CreateSession` do to the object they got from the pool: `InitSession`, `SetService` and
`SetSessionUID`. -/
def create (g : GameSession) (ioContext socket service : Nat) (sessionUID : Int) : GameSession :=
  { g.initSession ioContext socket with service := some service, sessionUID := sessionUID }

/-- `ProcessDisconnect`, and the tasks it pushes. -/
def processDisconnect (g : GameSession) : GameSession × List IoTask :=
  if g.netState = .Disconnect then (g, [])
  else ({ g with netState := .Disconnect }, [{ sessionUID := g.sessionUID, state := .Disconnect }])

/-- `HandleRead` on the buffer of the object, for the bytes that `async_read_some` put behind the write position: `OnWrite`
moves the write position over them, `OnRead` and `Clear` drop them again. The bytes handed to `RecvData` are a copy. -/
def handleRead (g : GameSession) (data : List UInt8) : GameSession :=
  let written := (g.packetBuffer.onWrite data).2
  { g with packetBuffer := ((written.onRead data.length).2).clear }

/-- `HandleLoginReq` on the object: one more player. -/
def addPlayer (g : GameSession) (player : Nat) : GameSession := { g with players := g.players ++ [player] }

end GameSession

/-- An object and its present life: whether it is in the pool (`none`), in use, or in use and closed; and the tasks that its
calls of `ProcessDisconnect` pushed. -/
structure SessionLife where
  object : GameSession
  closed : Option Bool
  tasks : List IoTask

/-- What happens to an object. `read` is a successful `HandleRead`; `login` a handled `LoginReq`; `request` any other
request that is handled; `processDisconnect` is called for read and write errors and for an overflow; `closeSession` is
`CloseSession`, by a task worker that popped a `Disconnect` task of the session or, with `direct`, by `Disconnect`;
`release` is the deleter. -/
inductive LifeStep where
  | create (ioContext socket service : Nat) (sessionUID : Int)
  | read (data : List UInt8)
  | login (player : Nat)
  | request
  | processDisconnect
  | closeSession (direct : Bool)
  | release
  deriving DecidableEq

/-- The step function. The pool gets the object back when no `shared_ptr` to it is left: it was closed, so that no table
holds it, and it has no player, whose `ownerSession` would hold it. No request changes a field of the object except a
login. -/
def lifeStep (s : SessionLife) : LifeStep → Option SessionLife
  | .create ioContext socket service sessionUID =>
    if s.closed = none then
      some { s with object := s.object.create ioContext socket service sessionUID, closed := some false }
    else none
  | .read data =>
    if s.closed ≠ none ∧ data.length ≤ s.object.packetBuffer.freeSize then some { s with object := s.object.handleRead data }
    else none
  | .login player => if s.closed ≠ none then some { s with object := s.object.addPlayer player } else none
  | .request => if s.closed ≠ none then some s else none
  | .processDisconnect =>
    if s.closed ≠ none then
      some { s with object := s.object.processDisconnect.1, tasks := s.tasks ++ s.object.processDisconnect.2 }
    else none
  | .closeSession direct =>
    if s.closed ≠ none ∧ (direct = true ∨ ⟨s.object.sessionUID, .Disconnect⟩ ∈ s.tasks) then
      some { s with closed := some true }
    else none
  | .release => if s.closed = some true ∧ s.object.players = [] then some { s with closed := none } else none

/-- The lives of an object from its allocation on. -/
def lifeSystem : Lts SessionLife LifeStep where
  init := { object := GameSession.new, closed := none, tasks := [] }
  step := lifeStep

end ProjectYJ
