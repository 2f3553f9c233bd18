import ProjectYJ.PacketHandler
import ProjectYJ.Receive
import ProjectYJ.SendPath

/-!
# Processes and sockets

Server and clients are processes, each with the send path and the receive path of the core library. A session of one process and a
session of another are the two ends of a socket: what `RecvData` is given on one end are the next bytes of what went out on the other,
as many of them as there are yet. Nothing else passes between processes.
-/

namespace ProjectYJ

universe u

/-- The processes of a network: the program each runs, the size of its packet pool and the number of its packet workers; and for each
session the process and the session at the other end of its socket, where the other program runs. -/
structure Network (π : Type u) where
  program : π → Program
  poolSize : π → Nat
  numWorkers : π → Nat
  peer : π → Int → π × Int
  opposite : ∀ p v, program p = (program (peer p v).1).peer

/-- The send path and the receive path of each process; and the items its workers dropped. -/
structure NetworkState (π : Type u) where
  send : π → SendState
  recv : π → RecvState
  dropped : π → List PacketQueueItem

/-- A step of one process. -/
inductive NetworkStep (π : Type u) where
  | send (p : π) (l : SendStep)
  | recv (p : π) (l : RecvStep)

/-- The item a worker drops in a step. -/
def RecvState.dropping (s : RecvState) : RecvStep → List PacketQueueItem
  | .drop worker => (s.hand worker).toList
  | _ => []

section

variable {π : Type u} [DecidableEq π]

/-- The chunk of a `RecvData` is what comes next on the socket. -/
def NetworkState.carries (N : Network π) (s : NetworkState π) (p : π) : RecvStep → Bool
  | .addData sessionId data =>
    let peer := N.peer p sessionId
    ((s.recv p).received sessionId ++ data).isPrefixOf ((s.send peer.1).out peer.2)
  | _ => true

/-- The step function. -/
def networkStep (N : Network π) (s : NetworkState π) : NetworkStep π → Option (NetworkState π)
  | .send p l => (sendStep (s.send p) l).map fun t => { s with send := Function.update s.send p t }
  | .recv p l =>
    if s.carries N p l = true then
      (recvStep (N.numWorkers p) (s.recv p) l).map fun t =>
        { s with
          recv := Function.update s.recv p t
          dropped := Function.update s.dropped p (s.dropped p ++ (s.recv p).dropping l) }
    else none

/-- The network, before anything is sent. -/
def networkSystem (N : Network π) : Lts (NetworkState π) (NetworkStep π) where
  init := { send := fun p => SendState.init (N.poolSize p), recv := fun _ => RecvState.init, dropped := fun _ => [] }
  step := networkStep N

end

end ProjectYJ
