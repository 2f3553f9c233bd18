import ProjectYJ.Lib.Lts
import Mathlib.Data.List.Sort

/-!
# The stress test of the client

With `IsStressTest` each of the client's `ConnectThreads` starts the service, which connects `maxSessionCnt` sessions, and then runs
`ClientManager::DummyClientProcess`: it waits until all sessions of all threads are connected, which the last call of
`ClientManager::Init` says, and goes round a loop while `run` is up. The mutex of the `ClientManager` is held by `Init`, by the test of
the condition variable and by each case of the loop, which are one step each; `run` and `m_RunningState` are also read without it.
-/

namespace ProjectYJ

/-- `RunningState`. -/
inductive RunningState where
  | None
  | Connect
  | Disconnect
  | Reconnect
  | Send
  | Recv
  deriving DecidableEq, Repr

/-- Where one of the `ConnectThreads` is: in `Start`, having made so many sessions; at the condition variable; before the test of
`run`; before the `switch`; in the case of a state; or at its end. -/
inductive StressThread where
  | starting (made : Nat)
  | waiting
  | atWhile
  | atSwitch
  | inCase (state : RunningState)
  | ended
  deriving DecidableEq, Repr

/-- The state: the threads; how many `async_connect` are under way, the next `SessionUID`, and the UIDs of sessions that are connected
and not yet passed to `Init`; then the `ClientManager`: the keys of `m_Sessions`, `m_SessionSeqNum`, `m_RunningState` and `run`. The
last field records the calls of `Send`: the thread, and the session. -/
structure StressTest where
  threads : List StressThread
  connecting : Nat
  nextUID : Nat
  connected : List Nat
  sessions : List Nat
  sessionSeqNum : Nat → Option Nat
  runningState : RunningState
  run : Bool
  sent : List (Nat × Nat)

/-- The steps. A thread makes the next session of its `Start`, fails to, since no address is found, or comes to the end of `Start`; an
`async_connect` succeeds or fails; `Init` is called for a session; and a thread passes the condition variable, tests `run`, chooses a
case, and runs it. -/
inductive StressStep where
  | create (t : Nat)
  | throws (t : Nat)
  | started (t : Nat)
  | connects
  | connectFails
  | init (j : Nat)
  | wake (t : Nat)
  | test (t : Nat)
  | choose (t : Nat)
  | runCase (t : Nat)
  deriving DecidableEq, Repr

namespace StressTest

/-- A thread goes on. -/
def setThread (s : StressTest) (t : Nat) (th : StressThread) : StressTest := { s with threads := s.threads.set t th }

/-- `ClientManager::Init`, where `threadCnt * maxSessionCnt` sessions are expected. -/
def clientInit (s : StressTest) (expected : Nat) (sessionUid : Nat) : StressTest :=
  let sessions := if sessionUid ∈ s.sessions then s.sessions else s.sessions.orderedInsert (· ≤ ·) sessionUid
  { s with
    sessions := sessions
    runningState := .Connect
    run := if sessions.length = expected then true else s.run }

/-- A case of the `switch` in `DummyClientProcess` on a thread. `Reconnect` starts the service once more. -/
def dummyClientProcess (s : StressTest) (maxSessionCnt : Nat) (t : Nat) : RunningState → StressTest
  | .Connect =>
    { s with
      sessionSeqNum := fun uid => if uid ∈ s.sessions then some 0 else s.sessionSeqNum uid
      runningState := .Send }
  | .Send => { s with sent := s.sent ++ s.sessions.map (fun uid => (t, uid)), run := false }
  | .Disconnect =>
    { s with
      sessions := []
      sessionSeqNum := fun uid => if uid ∈ s.sessions then none else s.sessionSeqNum uid
      runningState := .Reconnect
      run := false }
  | .Reconnect => { s with connecting := s.connecting + maxSessionCnt, runningState := .Connect }
  | .Recv => s
  | .None => s

end StressTest

open StressTest

/-- The step function, for the settings `threadCnt` and `maxSessionCnt`, whose product is taken to fit an `int32` as in the source. -/
def stressStep (threadCnt maxSessionCnt : Nat) (s : StressTest) : StressStep → Option StressTest
  | .create t =>
    match s.threads[t]? with
    | some (.starting made) =>
      if made < maxSessionCnt then some ({ s with connecting := s.connecting + 1 }.setThread t (.starting (made + 1))) else none
    | _ => none
  | .throws t =>
    match s.threads[t]? with
    | some (.starting made) => if made < maxSessionCnt then some (s.setThread t .ended) else none
    | _ => none
  | .started t =>
    match s.threads[t]? with
    | some (.starting made) => if made < maxSessionCnt then none else some (s.setThread t .waiting)
    | _ => none
  | .connects =>
    if 0 < s.connecting then
      some { s with connecting := s.connecting - 1, nextUID := s.nextUID + 1, connected := s.connected ++ [s.nextUID] }
    else none
  | .connectFails => if 0 < s.connecting then some { s with connecting := s.connecting - 1 } else none
  | .init j =>
    (s.connected[j]?).map fun uid => { s with connected := s.connected.eraseIdx j }.clientInit (threadCnt * maxSessionCnt) uid
  | .wake t =>
    match s.threads[t]? with
    | some .waiting => if s.run = true then some (s.setThread t .atWhile) else none
    | _ => none
  | .test t =>
    match s.threads[t]? with
    | some .atWhile => some (s.setThread t (if s.run = true then .atSwitch else .ended))
    | _ => none
  | .choose t =>
    match s.threads[t]? with
    | some .atSwitch => some (s.setThread t (.inCase s.runningState))
    | _ => none
  | .runCase t =>
    match s.threads[t]? with
    | some (.inCase state) => some ((s.dummyClientProcess maxSessionCnt t state).setThread t .atWhile)
    | _ => none

/-- The stress test with these settings, before the threads begin. -/
def stressTest (threadCnt maxSessionCnt : Nat) : Lts StressTest StressStep where
  init :=
    { threads := List.replicate threadCnt (.starting 0)
      connecting := 0
      nextUID := 0
      connected := []
      sessions := []
      sessionSeqNum := fun _ => none
      runningState := .None
      run := false
      sent := [] }
  step := stressStep threadCnt maxSessionCnt

end ProjectYJ
