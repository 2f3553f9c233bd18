import ProjectYJ.Packet
import Mathlib.Logic.Function.Basic

/-!
# Packet types, the handler table, encoding and decoding

`ClientPacketHandler.h` (server) and `ServerPacketHandler.h` (client), generated from one template: the packet types and their
numbers, the table `GPacketHadler` that `Init` fills, `HandlePacket`, which looks a packet up by the type in its header and
parses its payload, and `MakePacket`, which serializes a message behind a header. The two programs differ in which types they
register and which they make. The protobuf runtime is a parameter.
-/

namespace ProjectYJ

/-- The packet types of `Protocol.proto`. -/
inductive PacketType where
  | EnterChatRoomReq | EnterChatRoomAck | LoginReq | LoginAck | ChatRoomListReq | ChatRoomListAck | CreateChatRoomReq
  | CreateChatRoomAck | RefreshChatRoomReq | RefreshChatRoomAck | ChatReq | ChatAck | DummyPacketReq | DummyPacketAck
  deriving DecidableEq, Repr

/-- The number of a packet type. -/
def PacketType.code : PacketType → Nat
  | .EnterChatRoomReq => 1000
  | .EnterChatRoomAck => 1001
  | .LoginReq => 1002
  | .LoginAck => 1003
  | .ChatRoomListReq => 1004
  | .ChatRoomListAck => 1005
  | .CreateChatRoomReq => 1006
  | .CreateChatRoomAck => 1007
  | .RefreshChatRoomReq => 1008
  | .RefreshChatRoomAck => 1009
  | .ChatReq => 1010
  | .ChatAck => 1011
  | .DummyPacketReq => 1012
  | .DummyPacketAck => 1013

/-- The two programs. -/
inductive Program where
  | server | client
  deriving DecidableEq, Repr

/-- The types `Init` registers a handler for, in its order. -/
def Program.registered : Program → List PacketType
  | .server => [.EnterChatRoomReq, .LoginReq, .ChatRoomListReq, .CreateChatRoomReq, .RefreshChatRoomReq, .ChatReq,
      .DummyPacketReq]
  | .client => [.EnterChatRoomAck, .LoginAck, .ChatRoomListAck, .CreateChatRoomAck, .RefreshChatRoomAck, .ChatAck,
      .DummyPacketAck]

/-- The types `MakePacket` has an overload for. -/
def Program.makes : Program → List PacketType
  | .server => [.EnterChatRoomAck, .LoginAck, .ChatRoomListAck, .CreateChatRoomAck, .RefreshChatRoomAck, .ChatAck,
      .DummyPacketAck]
  | .client => [.EnterChatRoomReq, .LoginReq, .ChatRoomListReq, .CreateChatRoomReq, .RefreshChatRoomReq, .ChatReq,
      .DummyPacketReq]

/-- The program at the other end of a connection. -/
def Program.peer : Program → Program
  | .server => .client
  | .client => .server

/-- `UINT16_MAX`, the number of entries of `GPacketHadler`. -/
def uint16Max : Nat := 65535

/-- The assignment of `Init` for one type: the entry of its number becomes its handler. -/
def register (table : Nat → Option PacketType) (t : PacketType) : Nat → Option PacketType :=
  Function.update table t.code (some t)

/-- `GPacketHadler` after `Init`: an entry is empty or holds the handler of a type. The loop that would fill every entry with
`HandleInvalid` is commented out in the source. -/
def gPacketHadler (p : Program) : Nat → Option PacketType :=
  p.registered.foldl register (fun _ => none)

/-- The protobuf runtime: for each type its messages, the bytes a message is serialized to, and the parser. -/
structure Protobuf where
  Message : PacketType → Type
  serialize : {t : PacketType} → Message t → List UInt8
  parse : (t : PacketType) → List UInt8 → Option (Message t)

variable (P : Protobuf)

/-- `ByteSizeLong`. -/
def Protobuf.byteSizeLong {t : PacketType} (m : P.Message t) : Nat := (P.serialize m).length

/-- `SerializeToArray(data, size)`: `none` when it returns false (the message is over `INT_MAX` bytes, or over `size`),
otherwise the bytes it writes. -/
def Protobuf.serializeToArray {t : PacketType} (m : P.Message t) (size : Int) : Option (List UInt8) :=
  if 2147483647 < P.byteSizeLong m then none
  else if size < P.byteSizeLong m then none
  else some (P.serialize m)

/-! ## Decoding -/

/-- What a call of `HandlePacket` does: it indexes past the end of the table, calls an empty `std::function`, hands
`ParseFromArray` a negative length, or calls `ParseFromArray` on the payload at this offset of the packet and of this size;
then it returns false, or calls the handler of the type with the message. -/
inductive HandleResult (P : Protobuf) where
  | outOfTable (index : Nat)
  | badFunctionCall (index : Nat)
  | badLength (size : Int)
  | rejected (t : PacketType) (offset size : Nat)
  | handled (t : PacketType) (offset size : Nat) (m : P.Message t)

/-- `HandlePacket<PacketType>(func, session, buffer, len)`: `len - sizeof(PacketHeader)` is computed in `size_t` and passed
as an `int`. -/
def handlePacketOf (t : PacketType) (buffer : List UInt8) (len : Int) : HandleResult P :=
  let size := toInt32 (toSizeT (toSizeT len - sizeofPacketHeader))
  if size < 0 then .badLength size
  else
    match P.parse t ((buffer.drop sizeofPacketHeader).take size.toNat) with
    | none => .rejected t sizeofPacketHeader size.toNat
    | some m => .handled t sizeofPacketHeader size.toNat m

/-- `HandlePacket(session, buffer, len)` on the bytes `buffer` points to. -/
def handlePacket (p : Program) (buffer : List UInt8) (len : Int) : HandleResult P :=
  let packetType := (PacketHeader.ofBytes buffer).packetType
  if uint16Max ≤ packetType then .outOfTable packetType
  else
    match gPacketHadler p packetType with
    | none => .badFunctionCall packetType
    | some t => handlePacketOf P t buffer len

/-! ## Encoding -/

/-- `Packet`: the data (`none` for a null pointer), the size and the type. -/
structure Packet where
  data : Option (List UInt8)
  size : Nat
  packetType : Nat
  deriving DecidableEq, Repr

/-- `Packet()`. -/
def Packet.empty : Packet := { data := none, size := 0, packetType := 0 }

/-- `IsValid`. -/
def Packet.isValid (k : Packet) : Bool := k.data.isSome && decide (0 < k.size)

/-- The bytes `Send` writes: `GetSize()` bytes from `GetData()`. -/
def Packet.sent (k : Packet) : List UInt8 := (k.data.getD []).take k.size

/-- `memcpy` into a vector: `none` when the range is not inside it. -/
def copyInto (dst : List UInt8) (off : Nat) (src : List UInt8) : Option (List UInt8) :=
  if off + src.length ≤ dst.length then some (dst.take off ++ src ++ dst.drop (off + src.length)) else none

/-- `MakePacket(pkt, packetType)`, given the bytes its local header has in memory: `none` when a `memcpy` leaves
`packetBuffer`. The sizes are `uint16`; the declared size is a `uint32`. The `Pop` of the packet pool is a step of its own
(`SendPath`). -/
def makePacketOf {t : PacketType} (headerBytes : PacketHeader → List UInt8) (m : P.Message t) (packetType : Nat) :
    Option Packet :=
  let dataSize := toUInt16 (P.byteSizeLong m)
  let packetSize := toUInt16 (dataSize + sizeofPacketHeader)
  let header : PacketHeader :=
    { packetType := packetType, packetSize := toUInt32 (sizeofPacketHeader + dataSize), seqNum := 1 }
  match P.serializeToArray m dataSize with
  | none => some Packet.empty
  | some data =>
    let buf := data ++ List.replicate (dataSize - data.length) 0
    (copyInto (List.replicate packetSize 0) 0 (headerBytes header)).bind fun packetBuffer =>
      (copyInto packetBuffer sizeofPacketHeader buf).map fun packetBuffer =>
        { data := some (packetBuffer.take header.packetSize), size := header.packetSize, packetType := packetType }

/-- The template `MakePacket`, given what the padding of the header's memory holds. -/
def makePacketAs {t : PacketType} (m : P.Message t) (packetType : Nat) (padding : UInt8 × UInt8) : Option Packet :=
  makePacketOf P (fun header => header.toBytes padding) m packetType

/-- `MakePacket(pkt)`: each overload calls the template with the number of its message's type. -/
def makePacket {t : PacketType} (m : P.Message t) (padding : UInt8 × UInt8) : Option Packet :=
  makePacketAs P m t.code padding

/-! ## The table -/

/-- Two types have two numbers. -/
theorem PacketType.code_injective : Function.Injective PacketType.code := by
  intro a b h
  cases a <;> cases b <;> first | rfl | cases h

/-- Registering types one after the other leaves each of them at its own number, and what was there before elsewhere. -/
theorem foldl_register (ts : List PacketType) (table : Nat → Option PacketType)
    (h0 : ∀ i t, table i = some t → t.code = i) (i : Nat) (t : PacketType) :
    ts.foldl register table i = some t ↔ t.code = i ∧ (t ∈ ts ∨ table i = some t) := by
  induction ts generalizing table with
  | nil =>
    simp only [List.foldl_nil, List.not_mem_nil, false_or]
    exact ⟨fun h => ⟨h0 i t h, h⟩, fun h => h.2⟩
  | cons u ts ih =>
    have h1 : ∀ i t, register table u i = some t → t.code = i := by
      intro i t h
      rw [register, Function.update_apply] at h
      split at h
      · rename_i hi
        rw [← Option.some.inj h, hi]
      · exact h0 i t h
    rw [List.foldl_cons, ih _ h1, register, Function.update_apply, List.mem_cons]
    refine and_congr_right (fun hc => ?_)
    by_cases hu : t = u
    · subst hu
      simp [hc]
    · have hi : i ≠ u.code := fun hi => hu (PacketType.code_injective (hc.trans hi))
      simp [hu, hi]

/-- The entries of the table after `Init`: each registered type at its own number, and nothing else. -/
theorem gPacketHadler_eq_some (p : Program) (i : Nat) (t : PacketType) :
    gPacketHadler p i = some t ↔ t ∈ p.registered ∧ t.code = i := by
  rw [gPacketHadler, foldl_register p.registered _ (by intro i t h; cases h)]
  simp [and_comm]

/-- Every type has a number inside the table. -/
theorem PacketType.code_lt (t : PacketType) : t.code < uint16Max := by
  cases t <;> decide

/-- What one program makes, the other has registered. -/
theorem Program.registered_peer (p : Program) : p.peer.registered = p.makes := by
  cases p <;> rfl

/-- The types of what one program makes are found in the table of the other, each under its own number. -/
theorem gPacketHadler_peer {p : Program} {t : PacketType} (h : t ∈ p.makes) : gPacketHadler p.peer t.code = some t :=
  (gPacketHadler_eq_some p.peer t.code t).2 ⟨p.registered_peer ▸ h, rfl⟩

/-! ## The payload -/

/-- A length of at least a header and below `2 ^ 31` leaves its remainder as the length of the payload. -/
theorem payload_size {len : Nat} (h12 : sizeofPacketHeader ≤ len) (hlt : len < 2147483648) :
    toInt32 (toSizeT (toSizeT len - sizeofPacketHeader)) = ((len - sizeofPacketHeader : Nat) : Int) := by
  unfold sizeofPacketHeader at *
  unfold toInt32 toSizeT
  omega

/-- With a header in the packet, `HandlePacket<PacketType>` parses exactly the bytes behind it. -/
theorem handlePacketOf_eq (t : PacketType) (buffer : List UInt8) {len : Nat} (h12 : sizeofPacketHeader ≤ len)
    (hlt : len < 2147483648) :
    handlePacketOf P t buffer len =
      match P.parse t ((buffer.drop sizeofPacketHeader).take (len - sizeofPacketHeader)) with
      | none => .rejected t sizeofPacketHeader (len - sizeofPacketHeader)
      | some m => .handled t sizeofPacketHeader (len - sizeofPacketHeader) m := by
  unfold handlePacketOf
  simp only [payload_size h12 hlt]
  rw [if_neg (by omega), Int.toNat_natCast]

/-! ## The packet `MakePacket` builds -/

/-- Copying into the front of a vector and then behind it, to its end, leaves the two copies. -/
theorem copyInto_copyInto (dst a b : List UInt8) (h : dst.length = a.length + b.length) :
    (copyInto dst 0 a).bind (fun d => copyInto d a.length b) = some (a ++ b) := by
  have ha : copyInto dst 0 a = some (a ++ dst.drop a.length) := by
    rw [copyInto, if_pos (by omega)]
    simp
  have hl : (dst.drop a.length).length = b.length := by
    rw [List.length_drop]
    omega
  rw [ha, Option.bind_some, copyInto, if_pos (by rw [List.length_append]; omega)]
  rw [List.take_left' rfl, List.drop_eq_nil_of_le (by rw [List.length_append]; omega), List.append_nil]

/-- The bytes of the packet that carries a message. -/
def packetBytes {t : PacketType} (m : P.Message t) (padding : UInt8 × UInt8) : List UInt8 :=
  PacketHeader.toBytes { packetType := t.code, packetSize := sizeofPacketHeader + P.byteSizeLong m, seqNum := 1 } padding ++
    P.serialize m

theorem packetBytes_length {t : PacketType} (m : P.Message t) (padding : UInt8 × UInt8) :
    (packetBytes P m padding).length = sizeofPacketHeader + P.byteSizeLong m := by
  rw [packetBytes, List.length_append, PacketHeader.toBytes_length, Protobuf.byteSizeLong]

/-- A message whose packet fits `uint16` is encoded as its header and its serialization. -/
theorem makePacketAs_eq {t : PacketType} (m : P.Message t) (packetType : Nat) (padding : UInt8 × UInt8)
    (h : P.byteSizeLong m ≤ 65523) :
    makePacketAs P m packetType padding = some
      { data := some (PacketHeader.toBytes
          { packetType := packetType, packetSize := sizeofPacketHeader + P.byteSizeLong m, seqNum := 1 } padding ++
          P.serialize m)
        size := sizeofPacketHeader + P.byteSizeLong m, packetType := packetType } := by
  have hd : toUInt16 (P.byteSizeLong m) = P.byteSizeLong m := toUInt16_of_lt (by omega)
  have hs : toUInt16 ((P.byteSizeLong m : Int) + sizeofPacketHeader) = sizeofPacketHeader + P.byteSizeLong m := by
    unfold sizeofPacketHeader toUInt16
    omega
  have hz : toUInt32 ((sizeofPacketHeader : Int) + P.byteSizeLong m) = sizeofPacketHeader + P.byteSizeLong m := by
    unfold sizeofPacketHeader toUInt32
    omega
  have hser : P.serializeToArray m (P.byteSizeLong m) = some (P.serialize m) := by
    rw [Protobuf.serializeToArray, if_neg (by omega), if_neg (by omega)]
  have hcopy := copyInto_copyInto (List.replicate (sizeofPacketHeader + P.byteSizeLong m) 0)
    (PacketHeader.toBytes { packetType := packetType, packetSize := sizeofPacketHeader + P.byteSizeLong m, seqNum := 1 }
      padding) (P.serialize m)
    (by rw [List.length_replicate, PacketHeader.toBytes_length, Protobuf.byteSizeLong])
  rw [PacketHeader.toBytes_length] at hcopy
  unfold makePacketAs makePacketOf
  simp only [hd, hs, hz, hser]
  rw [show (P.byteSizeLong m - (P.serialize m).length) = 0 from Nat.sub_self _, List.replicate_zero, List.append_nil]
  simp only [Option.map_eq_bind]
  rw [← Option.bind_assoc, hcopy]
  simp only [Option.bind_some, Function.comp_apply]
  rw [List.take_of_length_le (by rw [List.length_append, PacketHeader.toBytes_length, Protobuf.byteSizeLong])]

/-- The same for the overload of the message's own type. -/
theorem makePacket_eq {t : PacketType} (m : P.Message t) (padding : UInt8 × UInt8)
    (h : P.byteSizeLong m ≤ 65523) :
    makePacket P m padding = some
      { data := some (packetBytes P m padding), size := sizeofPacketHeader + P.byteSizeLong m, packetType := t.code } := by
  rw [makePacket]
  exact makePacketAs_eq P m t.code padding h

/-- A message within 12 bytes of the largest `uint16`: its own size fits, the size of its packet wraps around to less than a
header, and the copy of the header leaves `packetBuffer`. -/
theorem makePacketAs_of_wraps {t : PacketType} (m : P.Message t) (packetType : Nat) (padding : UInt8 × UInt8)
    (h : 65524 ≤ P.byteSizeLong m) (h' : P.byteSizeLong m ≤ 65535) : makePacketAs P m packetType padding = none := by
  have hd : toUInt16 (P.byteSizeLong m) = P.byteSizeLong m := toUInt16_of_lt (by omega)
  have hs : toUInt16 ((P.byteSizeLong m : Int) + sizeofPacketHeader) < sizeofPacketHeader := by
    unfold sizeofPacketHeader toUInt16
    omega
  have hser : P.serializeToArray m (P.byteSizeLong m) = some (P.serialize m) := by
    rw [Protobuf.serializeToArray, if_neg (by omega), if_neg (by omega)]
  unfold makePacketAs makePacketOf
  simp only [hd, hser]
  rw [copyInto, if_neg (by rw [PacketHeader.toBytes_length, List.length_replicate]; omega), Option.bind_none]

/-- A message over the largest `uint16`: `SerializeToArray` is given its size modulo `2 ^ 16` and refuses. -/
theorem makePacketAs_of_long {t : PacketType} (m : P.Message t) (packetType : Nat) (padding : UInt8 × UInt8)
    (h : 65535 < P.byteSizeLong m) : makePacketAs P m packetType padding = some Packet.empty := by
  have hlt := toUInt16_lt (P.byteSizeLong m : Int)
  have hser : P.serializeToArray m (toUInt16 (P.byteSizeLong m) : Int) = none := by
    unfold Protobuf.serializeToArray
    split
    · rfl
    · rw [if_pos (by omega)]
  unfold makePacketAs makePacketOf
  simp only [hser]

end ProjectYJ
