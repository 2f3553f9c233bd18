import ProjectYJ.Lib.Bytes
import ProjectYJ.Lib.Framing
import ProjectYJ.Lib.MachineInt

/-!
# Packets on the wire

`Packet.h`: the header every packet starts with, laid out as 12 bytes (`uint16` type at 0, two bytes of padding, `uint32` size
at 4, `uint32` sequence number at 8, little-endian). A packet of the wire is a byte string whose header declares its own
length: a frame of `packetFraming`.
-/

namespace ProjectYJ

/-- `PacketHeader`: the type is a `uint16`, the size and the sequence number are `uint32`. -/
structure PacketHeader where
  packetType : Nat
  packetSize : Nat
  seqNum : Nat
  deriving DecidableEq, Repr

/-- `sizeof(PacketHeader)`. -/
def sizeofPacketHeader : Nat := 12

/-- The header a `reinterpret_cast` reads at the front of some bytes. -/
def PacketHeader.ofBytes (bs : List UInt8) : PacketHeader where
  packetType := leValue (bs.take 2)
  packetSize := leValue ((bs.drop 4).take 4)
  seqNum := leValue ((bs.drop 8).take 4)

/-- The object representation of a header. No assignment to a field writes the two bytes of padding after the type. -/
def PacketHeader.toBytes (h : PacketHeader) (padding : UInt8 × UInt8) : List UInt8 :=
  leBytes 2 h.packetType ++ [padding.1, padding.2] ++ leBytes 4 h.packetSize ++ leBytes 4 h.seqNum

theorem PacketHeader.toBytes_length (h : PacketHeader) (padding : UInt8 × UInt8) :
    (h.toBytes padding).length = sizeofPacketHeader := by
  simp [PacketHeader.toBytes, sizeofPacketHeader]

/-- Only the first 12 bytes are read. -/
theorem PacketHeader.ofBytes_append {l : List UInt8} (m : List UInt8) (h : sizeofPacketHeader ≤ l.length) :
    PacketHeader.ofBytes (l ++ m) = PacketHeader.ofBytes l := by
  unfold sizeofPacketHeader at h
  simp only [PacketHeader.ofBytes]
  rw [List.take_append_of_le_length (by omega), List.drop_append_of_le_length (by omega),
    List.drop_append_of_le_length (by omega), List.take_append_of_le_length (by simp only [List.length_drop]; omega),
    List.take_append_of_le_length (by simp only [List.length_drop]; omega)]

/-- A header whose fields fit their types reads back from its own bytes, whatever the padding holds. -/
theorem PacketHeader.ofBytes_toBytes (h : PacketHeader) (padding : UInt8 × UInt8) (rest : List UInt8)
    (ht : h.packetType < 65536) (hs : h.packetSize < 4294967296) (hn : h.seqNum < 4294967296) :
    PacketHeader.ofBytes (h.toBytes padding ++ rest) = h := by
  rw [PacketHeader.ofBytes_append rest (by rw [PacketHeader.toBytes_length])]
  have e2 : (h.toBytes padding).take 2 = leBytes 2 h.packetType := by
    simp [PacketHeader.toBytes, List.append_assoc, List.take_left']
  have e4 : ((h.toBytes padding).drop 4).take 4 = leBytes 4 h.packetSize := by
    have : (h.toBytes padding).drop 4 = leBytes 4 h.packetSize ++ leBytes 4 h.seqNum := by
      rw [PacketHeader.toBytes, List.append_assoc]
      exact List.drop_left' (by simp)
    rw [this]
    exact List.take_left' (by simp)
  have e8 : ((h.toBytes padding).drop 8).take 4 = leBytes 4 h.seqNum := by
    have : (h.toBytes padding).drop 8 = leBytes 4 h.seqNum := by
      rw [PacketHeader.toBytes]
      exact List.drop_left' (by simp)
    rw [this]
    exact List.take_of_length_le (by simp)
  simp only [PacketHeader.ofBytes, e2, e4, e8]
  rw [leValue_leBytes 2 _ ht, leValue_leBytes 4 _ hs, leValue_leBytes 4 _ hn]

/-- Packets are framed by the size their header declares. -/
def packetFraming : Framing UInt8 where
  header := sizeofPacketHeader
  size := fun bs => (PacketHeader.ofBytes bs).packetSize
  header_pos := by decide
  size_append := fun l m h => by rw [PacketHeader.ofBytes_append m h]

/-- A packet of the wire: a byte string of at least a header, whose header declares its length. -/
abbrev WirePacket : Type := packetFraming.Frame

instance (bs : List UInt8) : Decidable (packetFraming.Incomplete bs) :=
  inferInstanceAs (Decidable (_ ∨ _))

end ProjectYJ
