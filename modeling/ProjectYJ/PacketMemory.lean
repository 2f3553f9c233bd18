import ProjectYJ.Lib.Cells
import ProjectYJ.Lib.Lts
import ProjectYJ.PacketHandler

/-!
# Packets in memory

`Packet` of `Packet.h` as it lies in memory: a pointer to the data, which is its own buffer or memory of somebody else, and the buffer,
which is allocated, moved and freed by the constructors and assignments. A buffer that is freed twice, or read after it was freed, is
undefined behaviour and has no step. `Packet` of the other modules is the value of such an object, and the operations on values are
given beside those on memory.
-/

namespace ProjectYJ

/-- What `m_Data` points to: a buffer, or bytes that belong to somebody else and stay as they are. -/
inductive PacketPointer where
  | buffer (p : Nat)
  | external (data : List UInt8)
  deriving DecidableEq, Repr

/-- A `Packet` object: `m_Data`, `m_Size`, `m_PacketType`, and the address `m_Buffer` owns. -/
structure PacketObject where
  data : Option PacketPointer
  size : Nat
  packetType : Nat
  buffer : Option Nat
  deriving DecidableEq, Repr

/-- The objects there are, by name, and the buffers. -/
structure PacketMemory where
  objects : Nat → Option PacketObject
  heap : Cells (List UInt8)

/-- The operations of `Packet`, on the object `k`, with the argument `j`. -/
inductive PacketOp where
  | construct (k : Nat)
  | constructData (k : Nat) (data : List UInt8) (packetType : Nat)
  | constructMove (k j : Nat)
  | constructCopy (k j : Nat)
  | assignMove (k j : Nat)
  | assignCopy (k j : Nat)
  | setExternalData (k : Nat) (data : List UInt8) (packetType : Nat)
  | destroy (k : Nat)
  deriving DecidableEq, Repr

/-! ## Objects -/

/-- The bytes a pointer points to. -/
def PacketPointer.bytes (heap : Cells (List UInt8)) : PacketPointer → Option (List UInt8)
  | buffer p => heap.cell p
  | external data => some data

/-- What `memcpy` reads through a pointer, if as much is there. -/
def PacketPointer.load (heap : Cells (List UInt8)) (pointer : PacketPointer) (size : Nat) : Option (List UInt8) :=
  (pointer.bytes heap).bind fun b => if size ≤ b.length then some (b.take size) else none

/-- What a `unique_ptr` does with its buffer when it goes, or gets another one. -/
def releaseBuffer (heap : Cells (List UInt8)) : Option Nat → Option (Cells (List UInt8))
  | none => some heap
  | some p => if (heap.cell p).isSome = true then some (heap.free p) else none

namespace PacketObject

/-- `Packet()`, and what a move leaves behind. -/
def empty : PacketObject := { data := none, size := 0, packetType := 0, buffer := none }

/-- `Packet(data, size, packetType)`: a buffer with a copy of the data. -/
def ofData (heap : Cells (List UInt8)) (data : List UInt8) (packetType : Nat) : PacketObject × Cells (List UInt8) :=
  ({ data := some (.buffer heap.made), size := data.length, packetType := packetType, buffer := some heap.made }, heap.alloc data)

/-- `Packet(const Packet&)`: a buffer with a copy of the data, if there are any. -/
def copy (heap : Cells (List UInt8)) (other : PacketObject) : Option (PacketObject × Cells (List UInt8)) :=
  match other.data with
  | some pointer =>
    if 0 < other.size then (pointer.load heap other.size).map fun data => ofData heap data other.packetType
    else some ({ other with data := none, buffer := none }, heap)
  | none => some ({ other with data := none, buffer := none }, heap)

end PacketObject

namespace PacketMemory

/-- An object is made, or gets other members. -/
def put (s : PacketMemory) (k : Nat) (o : PacketObject) (heap : Cells (List UInt8)) : PacketMemory :=
  { objects := Function.update s.objects k (some o), heap := heap }

/-- The members of `j` go to `k`. -/
def move (s : PacketMemory) (k j : Nat) (o : PacketObject) (heap : Cells (List UInt8)) : PacketMemory :=
  (s.put k o heap).put j PacketObject.empty heap

end PacketMemory

open PacketMemory

/-- The step function. The copy assignment allocates before it frees, but no address is given out again here. -/
def packetMemoryStep (s : PacketMemory) : PacketOp → Option PacketMemory
  | .construct k =>
    match s.objects k with
    | none => some (s.put k PacketObject.empty s.heap)
    | some _ => none
  | .constructData k data packetType =>
    match s.objects k with
    | none =>
      let made := PacketObject.ofData s.heap data packetType
      if data.length < 4294967296 then some (s.put k made.1 made.2) else none
    | some _ => none
  | .constructMove k j =>
    match s.objects k, s.objects j with
    | none, some other => some (s.move k j other s.heap)
    | _, _ => none
  | .constructCopy k j =>
    match s.objects k, s.objects j with
    | none, some other => (PacketObject.copy s.heap other).map fun made => s.put k made.1 made.2
    | _, _ => none
  | .assignMove k j =>
    match s.objects k, s.objects j with
    | some this, some other =>
      if k = j then some s else (releaseBuffer s.heap this.buffer).map fun heap => s.move k j other heap
    | _, _ => none
  | .assignCopy k j =>
    match s.objects k, s.objects j with
    | some this, some other =>
      if k = j then some s
      else
        (releaseBuffer s.heap this.buffer).bind fun heap =>
          (PacketObject.copy heap other).map fun made => s.put k made.1 made.2
    | _, _ => none
  | .setExternalData k data packetType =>
    match s.objects k with
    | some this =>
      if data.length < 4294967296 then
        (releaseBuffer s.heap this.buffer).map fun heap =>
          s.put k { data := some (.external data), size := data.length, packetType := packetType, buffer := none } heap
      else none
    | none => none
  | .destroy k =>
    match s.objects k with
    | some this =>
      (releaseBuffer s.heap this.buffer).map fun heap => { objects := Function.update s.objects k none, heap := heap }
    | none => none

/-- Packets in memory, from where there are none. -/
def packetMemory : Lts PacketMemory PacketOp where
  init := { objects := fun _ => none, heap := Cells.empty }
  step := packetMemoryStep

/-! ## Values -/

/-- The packet an object is. -/
def PacketMemory.value (s : PacketMemory) (k : Nat) : Option Packet :=
  (s.objects k).map fun o =>
    { data := o.data.bind (PacketPointer.bytes s.heap), size := o.size, packetType := o.packetType }

/-- A copy of a packet: without data when the size is 0. -/
def Packet.copied (x : Packet) : Packet := if x.data.isSome = true ∧ 0 < x.size then x else { x with data := none }

/-- The operations on values. -/
def packetValueStep (v : Nat → Option Packet) : PacketOp → Option (Nat → Option Packet)
  | .construct k => if v k = none then some (Function.update v k (some Packet.empty)) else none
  | .constructData k data packetType =>
    if v k = none ∧ data.length < 4294967296 then some (Function.update v k (some ⟨some data, data.length, packetType⟩)) else none
  | .constructMove k j =>
    match v k, v j with
    | none, some x => some (Function.update (Function.update v k (some x)) j (some Packet.empty))
    | _, _ => none
  | .constructCopy k j =>
    match v k, v j with
    | none, some x => some (Function.update v k (some x.copied))
    | _, _ => none
  | .assignMove k j =>
    match v k, v j with
    | some _, some x => some (if k = j then v else Function.update (Function.update v k (some x)) j (some Packet.empty))
    | _, _ => none
  | .assignCopy k j =>
    match v k, v j with
    | some _, some x => some (if k = j then v else Function.update v k (some x.copied))
    | _, _ => none
  | .setExternalData k data packetType =>
    if (v k).isSome = true ∧ data.length < 4294967296 then some (Function.update v k (some ⟨some data, data.length, packetType⟩)) else none
  | .destroy k => if (v k).isSome = true then some (Function.update v k none) else none

/-- Packets as values. -/
def packetValues : Lts (Nat → Option Packet) PacketOp where
  init := fun _ => none
  step := packetValueStep

end ProjectYJ
