import ProjectYJ.Lib.Lts
import Mathlib.Logic.Function.Basic

/-!
# The object pool

`ObjectPool<T>` of `Pool.h`: a stack of objects nobody uses. `Pop` hands out the object on top, or a new one, in a `shared_ptr`
whose deleter is `Push`; so an object comes back when the last copy of that `shared_ptr` goes. The `SessionMaker` of the server
pops its sessions here.

Objects are named by the order they were made in, `shared_ptr`s by the `Pop` they are copies of. Every operation holds `m_Mutex`
throughout, and `Pop` on an empty stack logs `GetSize()`, which locks it once more: with debug messages logged, that `Pop` does
not return, and the mutex is held for ever.
-/

namespace ProjectYJ

/-- The stack (`m_Pool`, its top first), the number of objects made, the number of `Pop`s that returned, and for each of these the
control block of its `shared_ptr`s while there are any: the object and the use count. `locked` says that a `Pop` holds `m_Mutex`
for ever. -/
structure ObjectPool where
  pool : List Nat
  made : Nat
  pops : Nat
  block : Nat → Option (Nat × Nat)
  locked : Bool

/-- What is done with a pool and the objects it hands out: `copy` and `drop` are a copy and the end of a `shared_ptr` of a
`Pop`. -/
inductive ObjectUse where
  | initPool (count : Nat)
  | pop
  | copy (k : Nat)
  | drop (k : Nat)
  deriving DecidableEq

namespace ObjectPool

/-- A new pool. -/
def init : ObjectPool where
  pool := []
  made := 0
  pops := 0
  block := fun _ => none
  locked := false

/-- `m_Pool.push(new T())`. -/
def pushNew (s : ObjectPool) : ObjectPool := { s with pool := s.made :: s.pool, made := s.made + 1 }

/-- The loop of `InitPool`. -/
def initPool (s : ObjectPool) : Nat → ObjectPool
  | 0 => s
  | count + 1 => s.pushNew.initPool count

/-- The `shared_ptr` that `Pop` returns: one owner of the object, with a control block of its own. -/
def handOut (s : ObjectPool) (obj : Nat) : ObjectPool :=
  { s with pops := s.pops + 1, block := Function.update s.block s.pops (some (obj, 1)) }

/-- `Pop`: the object it returns, or `none` where it does not return. -/
def pop (logsDebug : Bool) (s : ObjectPool) : Option (Nat × ObjectPool) :=
  match s.pool with
  | obj :: rest => some (obj, { s with pool := rest }.handOut obj)
  | [] => if logsDebug then none else some (s.made, { s with made := s.made + 1 }.handOut s.made)

/-- `Push`, called by the deleter of the control block `k`. -/
def push (s : ObjectPool) (k obj : Nat) : ObjectPool :=
  { s with pool := obj :: s.pool, block := Function.update s.block k none }

/-- `Clean`: the objects it deletes, in order, and the pool it leaves. -/
def clean (s : ObjectPool) : List Nat × ObjectPool := (s.pool, { s with pool := [] })

/-- A `shared_ptr` of the `k`-th `Pop` still owns this object. -/
def LiveThrough (s : ObjectPool) (k obj : Nat) : Prop := ∃ count, s.block k = some (obj, count)

/-- An object that some `shared_ptr` still owns. -/
def Live (s : ObjectPool) (obj : Nat) : Prop := ∃ k, s.LiveThrough k obj

end ObjectPool

/-- The step function. The last `shared_ptr` of a `Pop` is gone when its deleter got the mutex and pushed the object. -/
def objectPoolStep (logsDebug : Bool) (s : ObjectPool) : ObjectUse → Option ObjectPool
  | .initPool count => if s.locked then none else some (s.initPool count)
  | .pop =>
    if s.locked then none
    else
      match s.pop logsDebug with
      | some (_, t) => some t
      | none => some { s with locked := true }
  | .copy k => (s.block k).map fun b => { s with block := Function.update s.block k (some (b.1, b.2 + 1)) }
  | .drop k =>
    (s.block k).bind fun b =>
      if 1 < b.2 then some { s with block := Function.update s.block k (some (b.1, b.2 - 1)) }
      else if s.locked then none
      else some (s.push k b.1)

/-- A pool and its uses, with or without debug messages in the log. -/
def objectPoolSystem (logsDebug : Bool) : Lts ObjectPool ObjectUse where
  init := ObjectPool.init
  step := objectPoolStep logsDebug

end ProjectYJ
