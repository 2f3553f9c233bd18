import ProjectYJ.Lib.Locks

/-!
# The mutexes of the server

`ObjectPool`, `AsioService`, `AsioSession`, `SessionManager` and `SessionPacketBuffer` have a mutex each (a session has its own),
held by a `lock_guard` to the end of the function that takes it. Each operation is the code a thread runs: the locks in the
order the source takes them, through all calls, and between them what is done to the data that decides which way the code
goes. What is done to bytes, packets and counters takes no mutex of these and is left to the other modules.
-/

namespace ProjectYJ

/-- The mutexes: `m_Mutex` of the session pool, of the service, of a session, of the session manager and of the
`SessionPacketBuffer`. -/
inductive Mutex where
  | pool
  | service
  | session (a : Nat)
  | manager
  | packetBuffer
  deriving DecidableEq, Repr

/-- What the operations do between their locks. `a` is a session object. -/
inductive ServerBody where
  | popTop
  | newObject
  | pushObject (a : Nat)
  | initSession
  | insertCurrent
  | setSessionUID
  | insertSession (a : Nat)
  | eraseSession (a : Nat)
  | closeSocket (a : Nat)
  | closeSessions
  | resetSession (a : Nat)
  | clearSessions
  | stop
  | addManaged (a : Nat)
  | removeManaged (a : Nat)
  | getManaged (uid : Int)
  | addData (a : Nat)
  | processBuffer (a : Nat)
  deriving DecidableEq, Repr

/-- The data: the free session objects, top of the stack first, and how many were made; `session` in `CreateSession` on each
thread; which sessions have a socket; their UIDs and the next one; `AsioService::m_Sessions`; the map of the session manager;
and the UIDs the `SessionPacketBuffer` has a buffer for. -/
structure ServerData where
  pool : List Nat
  created : Nat
  current : Nat → Nat
  socket : Nat → Bool
  sessionUID : Nat → Int
  nextUID : Int
  sessions : List Nat
  manager : Int → Option Nat
  sessionBuffers : Int → Bool

namespace Mutex

/-- A critical section. -/
def guarding (m : Mutex) (b : ServerBody) : List (Instr Mutex ServerBody) := [.lock m, .body b, .unlock m]

end Mutex

open Mutex

/-! ## The code of the operations -/

/-- `SessionManager::RemoveSession`. -/
def removeSessionCode (a : Nat) : List (Instr Mutex ServerBody) := manager.guarding (.removeManaged a)

/-- `AsioService::ReleaseSession`. -/
def releaseSessionCode (a : Nat) : List (Instr Mutex ServerBody) := service.guarding (.eraseSession a)

/-- `AsioSession::CloseSession`. What it does depends on `m_Socket`. -/
def closeSessionCode (a : Nat) : List (Instr Mutex ServerBody) := (session a).guarding (.closeSocket a)

/-- `AsioSession::Disconnect`: `OnDisconnected`, then `CloseSession`. -/
def disconnectCode (a : Nat) : List (Instr Mutex ServerBody) := removeSessionCode a ++ closeSessionCode a

/-- `ObjectPool::Push`, the deleter of a session. -/
def pushCode (a : Nat) : List (Instr Mutex ServerBody) := pool.guarding (.pushObject a)

/-- The operations a thread may call. -/
inductive ServerOp where
  | createSession
  | push (a : Nat)
  | addSession (a : Nat)
  | releaseSession (a : Nat)
  | closeSession (a : Nat)
  | closeService
  | managerAdd (a : Nat)
  | managerRemove (a : Nat)
  | managerGet (uid : Int)
  | addData (a : Nat)
  | processSessionBuffer (a : Nat)
  deriving DecidableEq, Repr

/-- The code of an operation. `CreateSession` calls the session maker (`Pop` and `InitSession`), `AddSession`, and
`SetSessionUID`. -/
def serverCode : ServerOp → List (Instr Mutex ServerBody)
  | .createSession => pool.guarding .popTop ++ [.body .initSession] ++ service.guarding .insertCurrent ++ [.body .setSessionUID]
  | .push a => pushCode a
  | .addSession a => service.guarding (.insertSession a)
  | .releaseSession a => releaseSessionCode a
  | .closeSession a => closeSessionCode a
  | .closeService =>
    [.lock service, .body .closeSessions, .body .clearSessions, .body .stop, .unlock service]
  | .managerAdd a => manager.guarding (.addManaged a)
  | .managerRemove a => removeSessionCode a
  | .managerGet uid => manager.guarding (.getManaged uid)
  | .addData a => packetBuffer.guarding (.addData a)
  | .processSessionBuffer a => packetBuffer.guarding (.processBuffer a)

/-! ## What happens between the locks -/

/-- What an instruction does on a thread, and the code it goes on with. `Pop` from an empty stack logs `GetSize()`, which locks
the mutex of the pool, before it makes a new object. `CloseSession` does nothing for a session without a socket. The sessions
whose last reference goes with `m_Sessions.clear()` are `dropped`: their deleter runs there. -/
def execBody (d : ServerData) (t : Nat) (b : ServerBody) (dropped : List Nat) :
    Option (ServerData × List (Instr Mutex ServerBody)) :=
  match b with
  | .popTop =>
    match d.pool with
    | a :: rest => some ({ d with pool := rest, current := Function.update d.current t a }, [])
    | [] => some (d, [.lock pool, .unlock pool, .body .newObject])
  | .newObject => some ({ d with created := d.created + 1, current := Function.update d.current t d.created }, [])
  | .pushObject a => some ({ d with pool := a :: d.pool }, [])
  | .initSession => some ({ d with socket := Function.update d.socket (d.current t) true }, [])
  | .insertCurrent => some ({ d with sessions := d.sessions.insert (d.current t) }, [])
  | .setSessionUID =>
    some ({ d with sessionUID := Function.update d.sessionUID (d.current t) d.nextUID, nextUID := d.nextUID + 1 }, [])
  | .insertSession a => some ({ d with sessions := d.sessions.insert a }, [])
  | .eraseSession a => some ({ d with sessions := d.sessions.erase a }, [])
  | .closeSocket a => some (d, if d.socket a then removeSessionCode a ++ releaseSessionCode a else [])
  | .closeSessions => some (d, d.sessions.flatMap fun a => disconnectCode a ++ [.body (.resetSession a)])
  | .resetSession a => some ({ d with socket := Function.update d.socket a false }, [])
  | .clearSessions =>
    if dropped ⊆ d.sessions ∧ dropped.Nodup then some ({ d with sessions := [] }, dropped.flatMap pushCode) else none
  | .stop => some (d, [])
  | .addManaged a =>
    match d.manager (d.sessionUID a) with
    | none => some ({ d with manager := Function.update d.manager (d.sessionUID a) (some a) }, [])
    | some _ => some (d, [])
  | .removeManaged a => some ({ d with manager := Function.update d.manager (d.sessionUID a) none }, [])
  | .getManaged _ => some (d, [])
  | .addData a => some ({ d with sessionBuffers := Function.update d.sessionBuffers (d.sessionUID a) true }, [])
  | .processBuffer _ => some (d, [])

/-- The operations of the server. -/
def serverProgram : LockProgram Nat Mutex ServerBody ServerData ServerOp (List Nat) where
  program := serverCode
  exec := execBody

/-- The server after `InitPool(count)`, with any number of threads. -/
def lockSystem (count : Nat) : Lts (LockState Nat Mutex ServerBody ServerData) (LockStep Nat ServerOp (List Nat)) where
  init :=
    { owner := fun _ => none
      code := fun _ => []
      data :=
        { pool := (List.range count).reverse
          created := count
          current := fun _ => 0
          socket := fun _ => false
          sessionUID := fun _ => 0
          nextUID := 0
          sessions := []
          manager := fun _ => none
          sessionBuffers := fun _ => false } }
  step := serverProgram.step

end ProjectYJ
