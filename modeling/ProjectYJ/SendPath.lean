import ProjectYJ.Lib.Lts
import ProjectYJ.PacketHandler
import ProjectYJ.PacketPool

/-!
# The send path

`AsioSession::Send` takes a packet from the pool, moves its argument into it and starts an `async_write` of its bytes;
`HandleWrite` gives the packet back. Nothing orders the writes of a session: workers call `Send` on it at any time, from its
own handlers and from `ChatRoom::BroadCast` of other sessions. An `async_write` is carried out in steps that each transfer
some more of its bytes, read from the storage of the packet then, and the steps of the writes on one socket may alternate.
-/

namespace ProjectYJ

/-- The packets the constructors of `Packet` make: no data and size 0, or as many bytes as the size says. -/
def Packet.WellFormed (k : Packet) : Prop := (k.data.getD []).length = k.size

instance (k : Packet) : Decidable k.WellFormed := inferInstanceAs (Decidable (_ = _))

/-- A call of `Send` between its `Pop` and the start of its write: the session, the packet of the pool and the argument. -/
structure Sending where
  session : Int
  packet : Nat
  argument : Packet

/-- An outstanding `async_write`: the session, the packet `HandleWrite` will push, the size of the buffer, and the number of
the call of `Send` that started it. -/
structure OutstandingWrite where
  session : Int
  packet : Nat
  size : Nat
  serial : Nat

/-- The state of the send path. `packets` are the objects of the pool by name. The last three fields record what happened: the
writes started (session and argument of `Send`), how much of each has been transferred, and what went out on each socket. -/
structure SendState where
  pool : PacketPool
  packets : Nat → Packet
  sending : List Sending
  writes : List OutstandingWrite
  sends : List (Int × Packet)
  transferred : Nat → Nat
  out : Int → List UInt8

/-- The steps. `makePacket` is the `Pop` in `MakePacket`, whose packet is freed unused; `pop` and `start` are the two halves
of `Send`; `transfer` moves that many more bytes of a write; `handleWrite` is its completion, with or without an error. -/
inductive SendStep where
  | makePacket
  | pop (session : Int) (argument : Packet)
  | start (i : Nat)
  | transfer (i : Nat) (n : Nat)
  | handleWrite (i : Nat) (error : Bool)

namespace SendState

/-- After `PacketPool::Init`, before any `Send`. -/
def init (poolSize : Nat) : SendState where
  pool := PacketPool.init poolSize
  packets := fun _ => Packet.empty
  sending := []
  writes := []
  sends := []
  transferred := fun _ => 0
  out := fun _ => []

/-- The second half of `Send`: the assignment, and the start of the write. -/
def start (s : SendState) (i : Nat) (x : Sending) : SendState :=
  { s with
    packets := Function.update s.packets x.packet x.argument
    sending := s.sending.eraseIdx i
    writes := s.writes ++
      [{ session := x.session, packet := x.packet, size := x.argument.size, serial := s.sends.length }]
    sends := s.sends ++ [(x.session, x.argument)] }

/-- Some more bytes of a write go out: those its buffer holds now. -/
def transfer (s : SendState) (w : OutstandingWrite) (n : Nat) : SendState :=
  { s with
    transferred := Function.update s.transferred w.serial (s.transferred w.serial + n)
    out := Function.update s.out w.session
      (s.out w.session ++ ((s.packets w.packet).sent.drop (s.transferred w.serial)).take n) }

/-- `HandleWrite`: the packet goes back to the pool. -/
def handleWrite (s : SendState) (i : Nat) (w : OutstandingWrite) : SendState :=
  { s with pool := s.pool.push w.packet, writes := s.writes.eraseIdx i }

end SendState

open SendState

/-- The step function. A write completes without an error only when all of it was transferred. -/
def sendStep (s : SendState) : SendStep → Option SendState
  | .makePacket => some { s with pool := s.pool.pop.2 }
  | .pop session argument =>
    if argument.WellFormed then
      some { s with pool := s.pool.pop.2, sending := s.sending ++ [⟨session, s.pool.pop.1, argument⟩] }
    else none
  | .start i => (s.sending[i]?).map fun x => s.start i x
  | .transfer i n =>
    (s.writes[i]?).bind fun w =>
      if 0 < n ∧ s.transferred w.serial + n ≤ w.size then some (s.transfer w n) else none
  | .handleWrite i error =>
    (s.writes[i]?).bind fun w =>
      if error = true ∨ s.transferred w.serial = w.size then some (s.handleWrite i w) else none

/-- The send path with a pool of this size. -/
def sendSystem (poolSize : Nat) : Lts SendState SendStep where
  init := SendState.init poolSize
  step := sendStep

/-! ## Runs that call Init themselves -/

/-- The steps of a process: a call of `PacketPool::Init`, the first one or a later one, or a step of the send path. -/
inductive PoolUserStep where
  | init (poolSize : Nat)
  | send (l : SendStep)

/-- The step function. -/
def poolUserStep (s : SendState) : PoolUserStep → Option SendState
  | .init poolSize => some { s with pool := s.pool.initFrom poolSize }
  | .send l => sendStep s l

/-- The send path from the construction of the pool, whose `m_PoolSize` holds anything. -/
def poolUserSystem (poolSize : Nat) : Lts SendState PoolUserStep where
  init := { SendState.init 0 with pool := PacketPool.constructed poolSize }
  step := poolUserStep

end ProjectYJ
