import ProjectYJ.Lib.Lts
import ProjectYJ.Lib.MachineInt
import Mathlib.Data.Finset.Basic
import Mathlib.Data.List.AList
import Mathlib.Logic.Function.Basic

/-!
# The session tables

`HandleAccept` makes a session in `AsioService::CreateSession` (an object from the session pool, its entry in `m_Sessions`,
then its UID) and registers it in the `SessionManager` under its UID (`OnConnected`). `CloseSession`, on a session a thread
got from the `SessionManager`, takes it out of both tables again, under the mutex of the session. An object goes back to the
pool when no `shared_ptr` to it is left.

The session objects are named by numbers. What holds a `shared_ptr` here is the two tables, a `HandleAccept` in progress and
the hands of the threads that called `GetSession`; pending handlers and players hold others, which only delays `recycle`.
`m_Socket` is null in no session that was taken from the pool, so `CloseSession` always goes on.
-/

namespace ProjectYJ

/-- How far `HandleAccept` is with an object: it is in the pool or not made yet; taken from it (`SessionMaker`); in
`m_Sessions` (`AddSession`); given its UID (`SetSessionUID`); registered, with reads going on (`ProcessRecv`). -/
inductive Stage where
  | pooled
  | popped
  | listed
  | numbered
  | connected
  deriving DecidableEq, Repr

/-- What a thread holds: nothing, a session it got from the `SessionManager`, or a session it has taken out of the
`SessionManager` in the middle of `CloseSession`. -/
inductive Hand where
  | idle
  | got (session : Nat)
  | removed (session : Nat)
  deriving DecidableEq, Repr

/-- The hand holds this session. -/
def Hand.Holds (h : Hand) (session : Nat) : Prop := h = .got session ∨ h = .removed session

instance (h : Hand) (session : Nat) : Decidable (h.Holds session) := inferInstanceAs (Decidable (_ ∨ _))

/-- The two tables and the session objects: the stack of the pool and the number of objects made, where each object stands,
its `m_SessionUID` and the owner of its `m_Mutex`; `m_Sessions`, `m_SessionCount` and the counter `m_SessionUID` of the
service; the map of the `SessionManager`; the hands of the threads. `m_SessionCount` is an `int32` in the source and an integer
without bound here, which agrees with it below `2 ^ 31`. The last two fields record how many UIDs were given out, and the UIDs
of the sessions that were closed. -/
structure SessionTables where
  pool : List Nat
  made : Nat
  stage : Nat → Stage
  uid : Nat → Int
  mutex : Nat → Option Nat
  sessions : Finset Nat
  sessionCount : Int
  nextUID : Int
  manager : AList (fun _ : Int => Nat)
  hand : Nat → Hand
  created : Nat
  closed : Finset Int

/-- The steps. `maker` is the `SessionMaker` and `SetService`; `addSession` to `onConnected` are the rest of `HandleAccept`
for that object; `removeSession` and `releaseSession` are the two halves of `CloseSession` by a thread, and `letGo` is a
thread that drops its `shared_ptr` without closing; `recycle` is the deleter. -/
inductive TablesStep where
  | maker
  | addSession (session : Nat)
  | setSessionUID (session : Nat)
  | onConnected (session : Nat)
  | getSession (thread : Nat) (sessionUID : Int)
  | removeSession (thread : Nat)
  | releaseSession (thread : Nat)
  | letGo (thread : Nat)
  | recycle (session : Nat)

namespace SessionTables

/-- After `InitPool`: this many objects on the stack, the last made on top, and empty tables. -/
def init (poolSize : Nat) : SessionTables where
  pool := (List.range poolSize).reverse
  made := poolSize
  stage := fun _ => .pooled
  uid := fun _ => 0
  mutex := fun _ => none
  sessions := ∅
  sessionCount := 0
  nextUID := 0
  manager := ∅
  hand := fun _ => .idle
  created := 0
  closed := ∅

/-- `ObjectPool::Pop`: the object on top, or a new one when the stack is empty. -/
def pop (s : SessionTables) : Nat × SessionTables :=
  match s.pool with
  | session :: rest => (session, { s with pool := rest })
  | [] => (s.made, { s with made := s.made + 1 })

/-- The step of an object to its next stage. -/
def setStage (s : SessionTables) (session : Nat) (stage : Stage) : SessionTables :=
  { s with stage := Function.update s.stage session stage }

/-- A thread's hand. -/
def setHand (s : SessionTables) (thread : Nat) (hand : Hand) : SessionTables :=
  { s with hand := Function.update s.hand thread hand }

/-- `SessionManager::GetSession`. -/
def getSession (s : SessionTables) (sessionUID : Int) : Option Nat := s.manager.lookup sessionUID

/-- `AsioService::AddSession`. -/
def addSession (s : SessionTables) (session : Nat) : SessionTables :=
  { s with sessions := insert session s.sessions, sessionCount := s.sessionCount + 1 }

/-- `SetSessionUID(m_SessionUID.fetch_add(1))`: the counter is an `int32` that wraps around. -/
def setSessionUID (s : SessionTables) (session : Nat) : SessionTables :=
  { s with
    uid := Function.update s.uid session s.nextUID
    nextUID := toInt32 (s.nextUID + 1)
    created := s.created + 1 }

/-- `OnConnected`, which is `SessionManager::AddSession`: an entry that is there is left. -/
def onConnected (s : SessionTables) (session : Nat) : SessionTables :=
  match s.getSession (s.uid session) with
  | some _ => s
  | none => { s with manager := s.manager.insert (s.uid session) session }

/-- `OnDisconnected`, which is `SessionManager::RemoveSession`, with the mutex of the session taken. -/
def removeSession (s : SessionTables) (thread session : Nat) : SessionTables :=
  { s with
    mutex := Function.update s.mutex session (some thread)
    manager := s.manager.erase (s.uid session)
    closed := insert (s.uid session) s.closed }

/-- `AsioService::ReleaseSession`, and the mutex of the session given back. -/
def releaseSession (s : SessionTables) (session : Nat) : SessionTables :=
  { s with
    mutex := Function.update s.mutex session none
    sessions := s.sessions.erase session
    sessionCount := s.sessionCount - 1 }

/-- No table and no thread holds the session. -/
def Unreferenced (s : SessionTables) (numThreads session : Nat) : Prop :=
  session ∉ s.sessions ∧ (∀ e ∈ s.manager.entries, e.2 ≠ session) ∧ ∀ w < numThreads, ¬(s.hand w).Holds session

instance (s : SessionTables) (numThreads session : Nat) : Decidable (s.Unreferenced numThreads session) :=
  inferInstanceAs (Decidable (_ ∧ _))

end SessionTables

open SessionTables

/-- The step function, for a number of threads. -/
def tablesStep (numThreads : Nat) (s : SessionTables) : TablesStep → Option SessionTables
  | .maker => some (s.pop.2.setStage s.pop.1 .popped)
  | .addSession session =>
    if s.stage session = .popped then some ((s.addSession session).setStage session .listed) else none
  | .setSessionUID session =>
    if s.stage session = .listed then some ((s.setSessionUID session).setStage session .numbered) else none
  | .onConnected session =>
    if s.stage session = .numbered then some ((s.onConnected session).setStage session .connected) else none
  | .getSession thread sessionUID =>
    if thread < numThreads ∧ s.hand thread = .idle then
      match s.getSession sessionUID with
      | none => some s
      | some session => some (s.setHand thread (.got session))
    else none
  | .removeSession thread =>
    match s.hand thread with
    | .got session =>
      if s.mutex session = none then some ((s.removeSession thread session).setHand thread (.removed session)) else none
    | _ => none
  | .releaseSession thread =>
    match s.hand thread with
    | .removed session => some ((s.releaseSession session).setHand thread .idle)
    | _ => none
  | .letGo thread =>
    match s.hand thread with
    | .got _ => some (s.setHand thread .idle)
    | _ => none
  | .recycle session =>
    if s.stage session = .connected ∧ s.Unreferenced numThreads session then
      some ({ s with pool := session :: s.pool }.setStage session .pooled)
    else none

/-- The session tables with this many threads and pooled objects. -/
def tablesSystem (numThreads poolSize : Nat) : Lts SessionTables TablesStep where
  init := SessionTables.init poolSize
  step := tablesStep numThreads

end ProjectYJ
