import ProjectYJ.PacketHandler

/-!
# The packet of a message of any size

`MakePacket` holds one length three times: `dataSize` and `packetSize` are `uint16`, the size in the header is a `uint32`.
A message of up to 65523 bytes makes a whole packet (`makePacketAs_eq`). From 65524 bytes on `packetSize` wraps around while
`dataSize` does not, and the two `memcpy` write past the end of `packetBuffer` (`makePacketAs_of_wraps`). From 65536 bytes on
`dataSize` wraps around too, `SerializeToArray` refuses, and the packet is empty (`makePacketAs_of_long`).
-/

namespace ProjectYJ

variable (P : Protobuf)

/-- Some bytes are the packet of a message, with this size: the header declares it, and behind the header is the serialization. -/
structure CarriesWhole {t : PacketType} (m : P.Message t) (data : List UInt8) (size : Nat) : Prop where
  length : data.length = size
  header : (PacketHeader.ofBytes data).packetSize = size
  size_eq : size = sizeofPacketHeader + P.byteSizeLong m
  payload : data.drop sizeofPacketHeader = P.serialize m

/-- What `MakePacket` is to do: every `memcpy` stays inside its vector, and the packet is empty or carries the message whole. -/
def MakesWhole {t : PacketType} (m : P.Message t) (packetType : UInt16) (padding : UInt8 × UInt8) : Prop :=
  ∃ packet, makePacketAs P m packetType.toNat padding = some packet ∧
    ((packet = Packet.empty ∧ packet.isValid = false) ∨
      ∃ data, packet.data = some data ∧ CarriesWhole P m data packet.size)

/-- The header and the serialization, one behind the other, carry the message whole. -/
theorem carriesWhole_append {t : PacketType} (m : P.Message t) (packetType : UInt16) (padding : UInt8 × UInt8)
    (h : P.byteSizeLong m ≤ 65523) :
    CarriesWhole P m
      (PacketHeader.toBytes
        { packetType := packetType.toNat, packetSize := sizeofPacketHeader + P.byteSizeLong m, seqNum := 1 } padding ++
        P.serialize m)
      (sizeofPacketHeader + P.byteSizeLong m) where
  length := by rw [List.length_append, PacketHeader.toBytes_length, Protobuf.byteSizeLong]
  header := by
    have hs : sizeofPacketHeader + P.byteSizeLong m < 4294967296 := by
      unfold sizeofPacketHeader
      omega
    rw [PacketHeader.ofBytes_toBytes _ padding _ packetType.toNat_lt hs (by simp only; omega)]
  size_eq := rfl
  payload := List.drop_left' (PacketHeader.toBytes_length _ _)

/-- `MakePacket` fails for the messages within 12 bytes of the largest `uint16`. -/
theorem not_makesWhole_of_wraps {t : PacketType} (m : P.Message t) (packetType : UInt16) (padding : UInt8 × UInt8)
    (h : 65524 ≤ P.byteSizeLong m) (h' : P.byteSizeLong m ≤ 65535) : ¬MakesWhole P m packetType padding := by
  rintro ⟨packet, hp, -⟩
  rw [makePacketAs_of_wraps P m packetType.toNat padding h h'] at hp
  cases hp

/-- `MakePacket` makes an empty packet or a whole one, inside its vectors, exactly for the messages that are not within 12
bytes of the largest `uint16`. -/
theorem makePacket_whole_iff {t : PacketType} (m : P.Message t) (packetType : UInt16) (padding : UInt8 × UInt8) :
    MakesWhole P m packetType padding ↔ P.byteSizeLong m < 65524 ∨ 65535 < P.byteSizeLong m := by
  constructor
  · intro hm
    by_contra hn
    obtain ⟨h, h'⟩ := not_or.1 hn
    exact not_makesWhole_of_wraps P m packetType padding (Nat.not_lt.1 h) (Nat.not_lt.1 h') hm
  · rintro (h | h)
    · exact ⟨_, makePacketAs_eq P m packetType.toNat padding (by omega), Or.inr
        ⟨_, rfl, carriesWhole_append P m packetType padding (by omega)⟩⟩
    · exact ⟨Packet.empty, makePacketAs_of_long P m packetType.toNat padding h, Or.inl ⟨rfl, rfl⟩⟩

/-- A protobuf runtime whose messages are byte strings, serialized as they are. -/
def bytesProtobuf : Protobuf where
  Message := fun _ => List UInt8
  serialize := fun bs => bs
  parse := fun _ bs => some bs

/-- A list of rooms of 65524 bytes: its packet would be 65536 bytes, and `packetSize` is 0. -/
theorem makePacket_overruns :
    ¬∀ (P : Protobuf) (t : PacketType) (m : P.Message t) (packetType : UInt16) (padding : UInt8 × UInt8),
      MakesWhole P m packetType padding := by
  intro hall
  have hlen : bytesProtobuf.byteSizeLong (t := .ChatRoomListAck) (List.replicate 65524 0) = 65524 := List.length_replicate
  exact not_makesWhole_of_wraps bytesProtobuf (t := .ChatRoomListAck) (List.replicate 65524 0) 1005 (0, 0)
    (by rw [hlen]) (by rw [hlen]; omega) (hall bytesProtobuf .ChatRoomListAck (List.replicate 65524 0) 1005 (0, 0))

end ProjectYJ
