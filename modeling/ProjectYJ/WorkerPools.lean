import ProjectYJ.GameSession
import ProjectYJ.Lib.WorkerPool
import ProjectYJ.Receive

/-!
# The task queue and the packet router from start to end

`TaskQueue` (`Initialize`, `PushTask`, `WorkerThread`, `Shutdown`) and `PacketRouter` (`Init`, `Dispatch`, `Run`, `Shutdown`) are two
pools of workers behind an `m_IsRunning`. The task queue has one queue for all workers, which outlives a `Shutdown`, and is woken up by
a default `IoTask` for each thread; the router has a queue for each worker, which `Init` makes once `m_IsRunning` is up and
`m_NumWorkers` is set, and before it starts the threads, and which `Shutdown` destroys. One thread at a time starts and stops a pool.
What the workers do with an item, `ProcessIoTask` and `HandlePacket`, is a matter of other modules, and is taken to return.
-/

namespace ProjectYJ

/-- The number of threads that `Initialize` and `Init` start: half of the cores unless a positive number is asked for. -/
def numThreads (hardwareConcurrency : Nat) (threadCount : Int) : Nat :=
  if threadCount ≤ 0 then
    if hardwareConcurrency / 2 < 1 then 1 else hardwareConcurrency / 2
  else threadCount.toNat

/-- `IoTask()`. -/
def IoTask.default : IoTask := { sessionUID := -1, state := .None }

/-- `TaskQueue`, where the hardware has so many cores. -/
def taskQueue (hardwareConcurrency : Nat) : WorkProgram Unit IoTask where
  workers := numThreads hardwareConcurrency
  route _ _ := some ()
  source _ := ()
  makes _ := 0
  queues _ := [()]
  wakeUps threads := List.replicate threads ((), IoTask.default)

/-- `PacketRouter`. Until the first `Init` has set `m_NumWorkers` it is 0, and there is no index to compute with it. -/
def packetRouter (hardwareConcurrency : Nat) : WorkProgram Int PacketQueueItem where
  workers := numThreads hardwareConcurrency
  route numWorkers item := if numWorkers = 0 then none else some (RecvState.workerIndex numWorkers item.sessionId)
  source worker := worker
  makes numWorkers := numWorkers
  queues made := (List.range made).map Int.ofNat
  wakeUps _ := []

end ProjectYJ
