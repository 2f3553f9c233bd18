import ProjectYJ.Lib.Memory
import ProjectYJ.Theorems.MakePacket

/-!
# What was in memory before is sent

`MakePacket` copies its local `PacketHeader` byte by byte. The constructor and the assignments write the three fields, ten of the
twelve bytes (`PacketHeader.representation_eq`); the two behind the type keep what the stack held, and are sent. Only an empty
packet, made for a message too long for `uint16`, holds nothing of it.
-/

namespace ProjectYJ

/-- The fields of a header written to its memory: the type at 0, the size at 4, the sequence number at 8. -/
def PacketHeader.store (h : PacketHeader) (m : Memory UInt8) : Memory UInt8 :=
  ((m.write 0 (leBytes 2 h.packetType)).write 4 (leBytes 4 h.packetSize)).write 8 (leBytes 4 h.seqNum)

/-- `PacketHeader()`: the constructor writes 0 to the three fields. -/
def PacketHeader.construct (m : Memory UInt8) : Memory UInt8 :=
  PacketHeader.store { packetType := 0, packetSize := 0, seqNum := 0 } m

/-- The bytes at `&header`, constructed and assigned where memory held `prior`. -/
def PacketHeader.representation (h : PacketHeader) (prior : Memory UInt8) : List UInt8 :=
  (h.store (PacketHeader.construct prior)).read 0 sizeofPacketHeader

variable (P : Protobuf)

/-- The template `MakePacket`, with its local header where memory held `prior`. -/
def makePacketIn {t : PacketType} (m : P.Message t) (packetType : Nat) (prior : Memory UInt8) : Option Packet :=
  makePacketOf P (fun header => header.representation prior) m packetType

/-- Whatever the memory of the header held, `MakePacket` makes a packet with the same bytes, and the same bytes are sent. -/
def NoStaleMemory {t : PacketType} (m : P.Message t) (packetType : UInt16) : Prop :=
  ∀ prior prior', ∃ packet packet', makePacketIn P m packetType.toNat prior = some packet ∧
    makePacketIn P m packetType.toNat prior' = some packet' ∧ packet.data = packet'.data ∧ packet.sent = packet'.sent

/-! ## The memory of a header -/

/-- Writing the fields sets the bytes of the fields and leaves the two behind the type. -/
theorem PacketHeader.read_store (h : PacketHeader) (m : Memory UInt8) :
    (h.store m).read 0 sizeofPacketHeader = h.toBytes (m 2, m 3) := by
  have htype : (h.store m).read 0 2 = leBytes 2 h.packetType := by
    have hsame := Memory.read_write_same m 0 (leBytes 2 h.packetType)
    rw [leBytes_length] at hsame
    rw [store, Memory.read_write_disjoint _ (Or.inr (by omega)), Memory.read_write_disjoint _ (Or.inr (by omega)), hsame]
  have hpadding : (h.store m).read 2 2 = [m 2, m 3] := by
    rw [store, Memory.read_write_disjoint _ (Or.inr (by omega)), Memory.read_write_disjoint _ (Or.inr (by omega)),
      Memory.read_write_disjoint _ (Or.inl (by simp))]
    rfl
  have hsize : (h.store m).read 4 4 = leBytes 4 h.packetSize := by
    have hsame := Memory.read_write_same (m.write 0 (leBytes 2 h.packetType)) 4 (leBytes 4 h.packetSize)
    rw [leBytes_length] at hsame
    rw [store, Memory.read_write_disjoint _ (Or.inr (by omega)), hsame]
  have hseq : (h.store m).read 8 4 = leBytes 4 h.seqNum := by
    have hsame := Memory.read_write_same ((m.write 0 (leBytes 2 h.packetType)).write 4 (leBytes 4 h.packetSize)) 8
      (leBytes 4 h.seqNum)
    rw [leBytes_length] at hsame
    rw [store, hsame]
  calc (h.store m).read 0 sizeofPacketHeader
      = (h.store m).read 0 2 ++ (h.store m).read 2 2 ++ (h.store m).read 4 4 ++ (h.store m).read 8 4 := by
        rw [← Memory.read_add, ← Memory.read_add, ← Memory.read_add]
        rfl
    _ = h.toBytes (m 2, m 3) := by rw [htype, hpadding, hsize, hseq, toBytes]

/-- The constructor writes no byte of the padding either. -/
theorem PacketHeader.representation_eq (h : PacketHeader) (prior : Memory UInt8) :
    h.representation prior = h.toBytes (prior 2, prior 3) := by
  have hkeep : ∀ i, 2 ≤ i → i < 4 → PacketHeader.construct prior i = prior i := by
    intro i h2 h4
    rw [construct, store, Memory.write_outside _ (Or.inl (by omega)), Memory.write_outside _ (Or.inl (by omega)),
      Memory.write_outside _ (Or.inr (by rw [leBytes_length]; omega))]
  rw [representation, read_store, hkeep 2 (by omega) (by omega), hkeep 3 (by omega) (by omega)]

/-- What `MakePacket` needs to know of the memory is what the padding held. -/
theorem makePacketIn_eq {t : PacketType} (m : P.Message t) (packetType : Nat) (prior : Memory UInt8) :
    makePacketIn P m packetType prior = makePacketAs P m packetType (prior 2, prior 3) := by
  unfold makePacketIn makePacketAs
  simp only [PacketHeader.representation_eq]

/-! ## Two runs -/

/-- Two headers with different padding are different bytes. -/
theorem PacketHeader.toBytes_padding {h : PacketHeader} {padding padding' : UInt8 × UInt8} {rest : List UInt8}
    (heq : h.toBytes padding ++ rest = h.toBytes padding' ++ rest) : padding = padding' := by
  simp only [toBytes, List.append_assoc, List.append_cancel_left_eq, List.cons_append, List.cons.injEq] at heq
  exact Prod.ext heq.1 heq.2.1

/-- No message that fits `uint16` keeps the memory to itself: up to 65523 bytes the padding is sent, and above that there is no
packet, because a `memcpy` leaves `packetBuffer`. -/
theorem not_noStaleMemory {t : PacketType} (m : P.Message t) (packetType : UInt16) (h : P.byteSizeLong m ≤ 65535) :
    ¬NoStaleMemory P m packetType := by
  intro hall
  obtain ⟨packet, packet', hp, hp', hdata, -⟩ := hall (fun _ => 0) (fun _ => 1)
  rw [makePacketIn_eq] at hp hp'
  by_cases hlong : 65524 ≤ P.byteSizeLong m
  · rw [makePacketAs_of_wraps P m packetType.toNat _ hlong h] at hp
    cases hp
  · rw [makePacketAs_eq P m packetType.toNat _ (by omega)] at hp hp'
    obtain rfl := Option.some.inj hp
    obtain rfl := Option.some.inj hp'
    have hpadding := PacketHeader.toBytes_padding (Option.some.inj hdata)
    cases hpadding

/-- `MakePacket` sends nothing of what its header's memory held exactly for the messages over the largest `uint16`, for which the
packet is empty. -/
theorem noStaleMemory_iff {t : PacketType} (m : P.Message t) (packetType : UInt16) :
    NoStaleMemory P m packetType ↔ 65535 < P.byteSizeLong m := by
  constructor
  · intro hall
    by_contra hn
    exact not_noStaleMemory P m packetType (Nat.not_lt.1 hn) hall
  · intro hlong prior prior'
    refine ⟨Packet.empty, Packet.empty, ?_, ?_, rfl, rfl⟩
    · rw [makePacketIn_eq, makePacketAs_of_long P m packetType.toNat _ hlong]
    · rw [makePacketIn_eq, makePacketAs_of_long P m packetType.toNat _ hlong]

/-- A `LoginAck` of no bytes, sent under its number 1003: two runs send different bytes. -/
theorem not_every_packet_noStaleMemory :
    ¬∀ (P : Protobuf) (t : PacketType) (m : P.Message t) (packetType : UInt16), NoStaleMemory P m packetType := by
  intro hall
  exact not_noStaleMemory bytesProtobuf (t := .LoginAck) [] 1003 (by decide) (hall bytesProtobuf .LoginAck [] 1003)

end ProjectYJ
