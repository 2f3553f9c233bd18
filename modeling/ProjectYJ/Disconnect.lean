import ProjectYJ.Server

/-!
# Closing a session directly

`AsioSession::Disconnect`: a thread that has a `shared_ptr` to a session closes it without a task, whatever its `NetState`. It calls
`OnDisconnected` and then `CloseSession`, which calls `OnDisconnected` once more, under the mutex of the session. The threads of the
session tables are the packet workers, the task workers and these callers, in that order.
-/

namespace ProjectYJ

open Server

/-- The steps: those of the server, and those of a call of `Disconnect`, to its `OnDisconnected` and from there into `CloseSession`.
The end of `CloseSession` is that of a task worker, `releaseSession`. -/
inductive DisconnectStep where
  | server (l : ServerStep)
  | disconnect (caller session : Nat)
  | closeSession (caller : Nat)

/-- `OnDisconnected`, which is `SessionManager::RemoveSession`, by a thread that has not taken the mutex of the session and holds
it from then on. -/
def SessionTables.disconnect (s : SessionTables) (caller session : Nat) : SessionTables :=
  { s with
    manager := s.manager.erase (s.uid session)
    closed := insert (s.uid session) s.closed
    hand := Function.update s.hand caller (.got session) }

namespace Server

/-- A table, a thread, a handler or a player holds the session, so that a thread can come by a `shared_ptr` to it. -/
def Referenced (s : Server) (numThreads session : Nat) : Prop :=
  ¬s.conns.tables.Unreferenced numThreads session ∨ s.Held session ∨ s.Owned session

instance (s : Server) (numThreads session : Nat) : Decidable (s.Referenced numThreads session) :=
  inferInstanceAs (Decidable (_ ∨ _ ∨ _))

/-- The first half of `Disconnect`. -/
def disconnect (s : Server) (caller session : Nat) : Server :=
  { s with
    conns := { s.conns with
      tables := s.conns.tables.disconnect caller session
      removed := (s.conns.conn session).toList ++ s.conns.removed } }

end Server

/-- The step function, for a number of packet workers, one of task workers and one of callers of `Disconnect`. Only task workers
pop tasks. -/
def disconnectStep (stringToUTF8 : String → String) (numWorkers numTaskWorkers numCallers : Nat) (s : Server) :
    DisconnectStep → Option Server
  | .server (.popTask w) =>
    if w < numWorkers + numTaskWorkers then
      serverStep stringToUTF8 numWorkers (numTaskWorkers + numCallers) s (.popTask w)
    else none
  | .server l => serverStep stringToUTF8 numWorkers (numTaskWorkers + numCallers) s l
  | .disconnect caller session =>
    if numWorkers + numTaskWorkers ≤ caller ∧ caller < numWorkers + (numTaskWorkers + numCallers) ∧
        s.conns.tables.hand caller = .idle ∧ s.conns.tables.stage session = .connected ∧
        s.Referenced (numWorkers + (numTaskWorkers + numCallers)) session then
      some (s.disconnect caller session)
    else none
  | .closeSession caller =>
    if numWorkers + numTaskWorkers ≤ caller then
      s.connStep (numWorkers + (numTaskWorkers + numCallers)) (.removeSession caller) id
    else none

/-- The server and the callers of `Disconnect`. -/
def disconnectSystem (stringToUTF8 : String → String) (numWorkers numTaskWorkers numCallers poolSize : Nat) :
    Lts Server DisconnectStep where
  init := Server.init poolSize
  step := disconnectStep stringToUTF8 numWorkers numTaskWorkers numCallers

end ProjectYJ
