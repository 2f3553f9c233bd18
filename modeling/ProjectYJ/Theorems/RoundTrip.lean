import ProjectYJ.PacketHandler
import ProjectYJ.ProcessPacket

/-!
# What one program sends, the other handles

A list of messages goes through `MakePacket`, `Send`, the loop of `ProcessPacket` and `HandlePacket` of the other program.
The packet of a message is a frame (`Outgoing.frame`), so the loop over the packets put end to end dispatches exactly one
slice for each (`processPacketLoop_stream`), and each slice is handled as its message (`handlePacket_frame`).
-/

namespace ProjectYJ

variable (P : Protobuf)

/-- A message on its way out, and what the padding of its header holds. -/
structure Outgoing where
  type : PacketType
  msg : P.Message type
  padding : UInt8 × UInt8

variable {P}

/-- The bytes `Send` writes for a message. -/
def Outgoing.wire (m : Outgoing P) : List UInt8 := ((makePacket P m.msg m.padding).map Packet.sent).getD []

/-- The header of a packet reads back as the type and the size of its message. -/
theorem ofBytes_packetBytes (m : Outgoing P) (hsize : P.byteSizeLong m.msg ≤ 65523) :
    PacketHeader.ofBytes (packetBytes P m.msg m.padding) =
      { packetType := m.type.code, packetSize := sizeofPacketHeader + P.byteSizeLong m.msg, seqNum := 1 } := by
  have hc := m.type.code_lt
  have hs : sizeofPacketHeader + P.byteSizeLong m.msg < 4294967296 := by
    unfold sizeofPacketHeader
    omega
  unfold uint16Max at hc
  exact PacketHeader.ofBytes_toBytes
    { packetType := m.type.code, packetSize := sizeofPacketHeader + P.byteSizeLong m.msg, seqNum := 1 }
    m.padding _ (by simp only; omega) hs (by simp only; omega)

/-- The packet of a message, as a packet of the wire. -/
def Outgoing.frame (m : Outgoing P) (hsize : P.byteSizeLong m.msg ≤ 65523) : WirePacket where
  bytes := packetBytes P m.msg m.padding
  header_le := by
    rw [packetBytes_length]
    exact Nat.le_add_right _ _
  size_eq := by
    show (PacketHeader.ofBytes _).packetSize = _
    rw [ofBytes_packetBytes m hsize, packetBytes_length]

theorem Outgoing.wire_eq (m : Outgoing P) (hsize : P.byteSizeLong m.msg ≤ 65523) :
    m.wire = (m.frame hsize).bytes := by
  rw [Outgoing.wire, makePacket_eq P m.msg m.padding hsize, Option.map_some, Option.getD_some, Packet.sent]
  exact List.take_of_length_le (Nat.le_of_eq (packetBytes_length P m.msg m.padding))

/-- The other program handles the packet of a message as that message, whatever follows it. -/
theorem handlePacket_frame {p : Program} (m : Outgoing P) (hmake : m.type ∈ p.makes)
    (hsize : P.byteSizeLong m.msg ≤ 65523) (hparse : P.parse m.type (P.serialize m.msg) = some m.msg)
    (rest : List UInt8) :
    handlePacket P p.peer ((m.frame hsize).bytes ++ rest) (m.frame hsize).bytes.length =
      .handled m.type sizeofPacketHeader (P.byteSizeLong m.msg) m.msg := by
  have hbytes : (m.frame hsize).bytes = packetBytes P m.msg m.padding := rfl
  have hlen : (m.frame hsize).bytes.length = sizeofPacketHeader + P.byteSizeLong m.msg := packetBytes_length P m.msg m.padding
  have hheader : (PacketHeader.ofBytes ((m.frame hsize).bytes ++ rest)).packetType = m.type.code := by
    rw [PacketHeader.ofBytes_append rest (m.frame hsize).header_le, hbytes, ofBytes_packetBytes m hsize]
  have hpayload : (((m.frame hsize).bytes ++ rest).drop sizeofPacketHeader).take (P.byteSizeLong m.msg) =
      P.serialize m.msg := by
    rw [hbytes, packetBytes, List.append_assoc, List.drop_left' (PacketHeader.toBytes_length _ _)]
    exact List.take_left' rfl
  have hreg := gPacketHadler_peer hmake
  have hc := m.type.code_lt
  unfold handlePacket
  simp only [hheader, hreg]
  rw [if_neg (by omega), hlen, handlePacketOf_eq P m.type _ (Nat.le_add_right _ _)
    (by unfold sizeofPacketHeader; omega), Nat.add_sub_cancel_left, hpayload, hparse]

/-- The slices of packets end to end, each handled by the other program. -/
theorem handlePacket_slicesFrom {p : Program} (msgs : List (Outgoing P)) (hmake : ∀ m ∈ msgs, m.type ∈ p.makes)
    (hsize : ∀ m ∈ msgs, P.byteSizeLong m.msg ≤ 65523)
    (hparse : ∀ m ∈ msgs, P.parse m.type (P.serialize m.msg) = some m.msg) (front : List UInt8) :
    (slicesFrom front.length (msgs.pmap Outgoing.frame hsize)).map
        (fun s => handlePacket P p.peer ((front ++ Framing.stream (msgs.pmap Outgoing.frame hsize)).drop s.offset.toNat) s.size) =
      msgs.map (fun m => .handled m.type sizeofPacketHeader (P.byteSizeLong m.msg) m.msg) := by
  induction msgs generalizing front with
  | nil => rfl
  | cons m msgs ih =>
    have hm := hsize m List.mem_cons_self
    have htail := fun x hx => hsize x (List.mem_cons_of_mem m hx)
    have hfirst := handlePacket_frame m (hmake m List.mem_cons_self) hm (hparse m List.mem_cons_self)
      (Framing.stream (msgs.pmap Outgoing.frame htail))
    have hrest := ih (fun x hx => hmake x (List.mem_cons_of_mem m hx)) htail
      (fun x hx => hparse x (List.mem_cons_of_mem m hx)) (front ++ (m.frame hm).bytes)
    simp only [List.length_append, List.append_assoc] at hrest
    simp only [List.pmap_cons, slicesFrom, Framing.stream_cons, List.map_cons, Int.toNat_natCast, List.drop_left', hfirst,
      hrest]

/-- The bytes of the messages are their packets put end to end. -/
theorem flatMap_wire (msgs : List (Outgoing P)) (hsize : ∀ m ∈ msgs, P.byteSizeLong m.msg ≤ 65523) :
    msgs.flatMap Outgoing.wire = Framing.stream (msgs.pmap Outgoing.frame hsize) := by
  induction msgs with
  | nil => rfl
  | cons m msgs ih =>
    rw [List.flatMap_cons, List.pmap_cons, Framing.stream_cons, m.wire_eq (hsize m List.mem_cons_self),
      ih (fun x hx => hsize x (List.mem_cons_of_mem m hx))]

/-- Messages of the types one program makes, each of at most 65523 bytes: every one is encoded as a valid packet,
`ProcessPacket` on the packets put end to end consumes them all and dispatches one item for each, in order, and the other
program hands each item to the handler of its type with the message that was sent. -/
theorem wire_round_trip (P : Protobuf) (p : Program) (msgs : List (Outgoing P)) (hmake : ∀ m ∈ msgs, m.type ∈ p.makes)
    (hsize : ∀ m ∈ msgs, P.byteSizeLong m.msg ≤ 65523)
    (hparse : ∀ m ∈ msgs, P.parse m.type (P.serialize m.msg) = some m.msg)
    (hlen : (msgs.flatMap Outgoing.wire).length < 2147483648) :
    (∀ m ∈ msgs, ∃ k, makePacket P m.msg m.padding = some k ∧ k.isValid = true) ∧
      ∃ slices : List Slice,
        (∀ n, msgs.length < n → processPacketLoop (msgs.flatMap Outgoing.wire) n 0 =
          (slices, some ((msgs.flatMap Outgoing.wire).length : Int))) ∧
        slices.map (fun s => handlePacket P p.peer ((msgs.flatMap Outgoing.wire).drop s.offset.toNat) s.size) =
          msgs.map (fun m => .handled m.type sizeofPacketHeader (P.byteSizeLong m.msg) m.msg) := by
  refine ⟨fun m hm => ⟨_, makePacket_eq P m.msg m.padding (hsize m hm), ?_⟩,
    slicesFrom 0 (msgs.pmap Outgoing.frame hsize), ?_, ?_⟩
  · simp [Packet.isValid, sizeofPacketHeader]
  · intro n hn
    have hflat := flatMap_wire msgs hsize
    have h := @processPacketLoop_stream (msgs.pmap Outgoing.frame hsize) [] [] Framing.incomplete_nil
      (by rw [List.nil_append, List.append_nil, ← hflat]; exact hlen) n (by rwa [List.length_pmap])
    simp only [List.nil_append, List.append_nil, List.length_nil, Nat.zero_add, ← hflat] at h
    exact h
  · rw [flatMap_wire msgs hsize]
    exact handlePacket_slicesFrom msgs hmake hsize hparse []

/-- The protobuf encoding of messages whose fields are strings of fewer than 128 bytes, numbered from `k`: a tag of wire
type 2, the length, the bytes. -/
def encodeStrings : Nat → List (List UInt8) → List UInt8
  | _, [] => []
  | k, s :: ss => UInt8.ofNat (8 * k + 2) :: UInt8.ofNat s.length :: (s ++ encodeStrings (k + 1) ss)

/-- The parser of that encoding, for at most `n` fields numbered from `k`. -/
def decodeStrings : (n k : Nat) → List UInt8 → Option (List (List UInt8))
  | _, _, [] => some []
  | n + 1, k, tag :: len :: rest =>
    if tag.toNat = 8 * k + 2 ∧ len.toNat ≤ rest.length then
      (decodeStrings n (k + 1) (rest.drop len.toNat)).map (rest.take len.toNat :: ·)
    else none
  | _, _, _ => none

/-- A runtime for such messages. -/
def stringMessages : Protobuf where
  Message := fun _ => List (List UInt8)
  serialize := encodeStrings 1
  parse := fun _ => decodeStrings 15 1

/-- A client logs in as `ab` with the password `c` and then asks for a refresh, which has no field. -/
def loginThenRefresh : List (Outgoing stringMessages) :=
  [⟨.LoginReq, [[97, 98], [99]], (205, 205)⟩, ⟨.RefreshChatRoomReq, [], (0, 7)⟩]

/-- `wire_round_trip` at a login and an empty message. -/
theorem wire_round_trip_login :
    ∃ slices : List Slice,
      (∀ n, 2 < n → processPacketLoop (loginThenRefresh.flatMap Outgoing.wire) n 0 = (slices, some 31)) ∧
      slices.map (fun s => handlePacket stringMessages .server
          ((loginThenRefresh.flatMap Outgoing.wire).drop s.offset.toNat) s.size) =
        [.handled .LoginReq 12 7 [[97, 98], [99]], .handled .RefreshChatRoomReq 12 0 []] := by
  have hlen : (loginThenRefresh.flatMap Outgoing.wire).length = 31 := by decide
  have h := (wire_round_trip stringMessages .client loginThenRefresh
    (by intro m hm; simp only [loginThenRefresh, List.mem_cons, List.not_mem_nil, or_false] at hm
        rcases hm with rfl | rfl <;> decide)
    (by intro m hm; simp only [loginThenRefresh, List.mem_cons, List.not_mem_nil, or_false] at hm
        rcases hm with rfl | rfl <;> decide)
    (by intro m hm; simp only [loginThenRefresh, List.mem_cons, List.not_mem_nil, or_false] at hm
        rcases hm with rfl | rfl <;> rfl)
    (by rw [hlen]; decide)).2
  rw [hlen] at h
  exact h

end ProjectYJ
