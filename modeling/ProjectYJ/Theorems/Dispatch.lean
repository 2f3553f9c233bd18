import ProjectYJ.PacketHandler
import ProjectYJ.ProcessPacket

/-!
# What a handler does with whatever a peer sends

`ProcessPacket` checks that a whole header and the declared size are there; `HandlePacket` checks neither the size nor the type.
`HandleResult.Safe` says what a call may do: call the handler of the type, or return false, with all it reads inside the packet.
`handlePacket_safe_iff` says which items are handled so: those that hold a whole header and whose type is registered.
-/

namespace ProjectYJ

/-- A range of bytes lies inside a packet of this length. -/
def InPacket (len : Int) (offset size : Nat) : Prop := ((offset + size : Nat) : Int) ≤ len

/-- What `HandlePacket` may do with the `len` bytes at `packet`: it reads a header that lies inside them; then it returns false
where `ParseFromArray` refuses bytes of the packet, or calls the handler that the table has for the type in the header, with the
message that the `len - sizeof(PacketHeader)` bytes behind the header parse to. It may not index past the table, call an empty
`std::function` or pass on a length below zero. -/
inductive HandleResult.Safe {P : Protobuf} (p : Program) (packet : List UInt8) (len : Int) : HandleResult P → Prop where
  | rejected {t : PacketType} {offset size : Nat} (header : InPacket len 0 sizeofPacketHeader)
      (payload : InPacket len offset size) : Safe p packet len (.rejected t offset size)
  | handled {t : PacketType} {offset size : Nat} {m : P.Message t} (header : InPacket len 0 sizeofPacketHeader)
      (payload : InPacket len offset size)
      (registered : gPacketHadler p (PacketHeader.ofBytes packet).packetType = some t)
      (behindHeader : offset = sizeofPacketHeader ∧ (size : Int) = len - sizeofPacketHeader)
      (parsed : P.parse t ((packet.drop offset).take size) = some m) : Safe p packet len (.handled t offset size m)

/-- The item at a slice of a buffer is handled safely. -/
def HandledSafely (P : Protobuf) (p : Program) (buffer : List UInt8) (s : Slice) : Prop :=
  (handlePacket P p (buffer.drop s.offset.toNat) s.size).Safe p (buffer.drop s.offset.toNat) s.size

/-- An item of a type that is not registered indexes past the table, or finds an empty function there. -/
theorem handlePacket_of_not_registered (P : Protobuf) {p : Program} {packet : List UInt8} (len : Int)
    (ht : gPacketHadler p (PacketHeader.ofBytes packet).packetType = none) :
    ¬(handlePacket P p packet len).Safe p packet len := by
  unfold handlePacket
  simp only [ht]
  split <;> nofun

/-- An item of a registered type goes to the handler of that type. -/
theorem handlePacket_of_registered (P : Protobuf) {p : Program} {packet : List UInt8} (len : Int) {t : PacketType}
    (ht : gPacketHadler p (PacketHeader.ofBytes packet).packetType = some t) :
    handlePacket P p packet len = handlePacketOf P t packet len := by
  have hc := ((gPacketHadler_eq_some _ _ _).1 ht).2
  have hlt := t.code_lt
  unfold handlePacket
  simp only [ht]
  rw [if_neg (by omega)]

/-- An item of less than a header hands `ParseFromArray` a length below zero. -/
theorem handlePacketOf_of_short (P : Protobuf) (t : PacketType) (packet : List UInt8) {len : Nat}
    (hshort : len < sizeofPacketHeader) : handlePacketOf P t packet len = .badLength ((len : Int) - sizeofPacketHeader) := by
  have hsize : toInt32 (toSizeT (toSizeT len - sizeofPacketHeader)) = (len : Int) - sizeofPacketHeader := by
    unfold sizeofPacketHeader at *
    unfold toInt32 toSizeT
    omega
  unfold handlePacketOf
  simp only [hsize]
  exact if_pos (by omega)

/-- An item of at least a header is parsed from behind its header to its end. -/
theorem handlePacketOf_safe (P : Protobuf) {p : Program} {t : PacketType} {packet : List UInt8} {len : Nat}
    (ht : gPacketHadler p (PacketHeader.ofBytes packet).packetType = some t) (h12 : sizeofPacketHeader ≤ len)
    (hlt : len < 2147483648) : (handlePacketOf P t packet len).Safe p packet len := by
  have hheader : InPacket len 0 sizeofPacketHeader := by
    unfold InPacket
    omega
  have hpayload : InPacket len sizeofPacketHeader (len - sizeofPacketHeader) := by
    unfold InPacket
    omega
  rw [handlePacketOf_eq P t _ h12 hlt]
  cases hm : P.parse t ((packet.drop sizeofPacketHeader).take (len - sizeofPacketHeader)) with
  | none => exact .rejected hheader hpayload
  | some m => exact .handled hheader hpayload ht ⟨rfl, Int.natCast_sub h12⟩ hm

/-- For every byte array `ProcessPacket` may be given and every item it dispatches from it, in either program: `HandlePacket`
handles the item safely exactly when the size its header declares is at least a header's and its type is a registered one. -/
theorem handlePacket_safe_iff (P : Protobuf) (p : Program) (buffer : List UInt8) (hlen : buffer.length < 2147483648)
    (n : Nat) (s : Slice) (hs : s ∈ (processPacketLoop buffer n 0).1) :
    HandledSafely P p buffer s ↔
      sizeofPacketHeader ≤ (PacketHeader.ofBytes (buffer.drop s.offset.toNat)).packetSize ∧
        ∃ t ∈ p.registered, t.code = (PacketHeader.ofBytes (buffer.drop s.offset.toNat)).packetType := by
  obtain ⟨off, size, rfl, hle, -, hsize⟩ := mem_processPacketLoop hlen n (show (0 : Nat) ≤ buffer.length from Nat.zero_le _) hs
  simp only [HandledSafely, Int.toNat_natCast]
  have hdecl : (PacketHeader.ofBytes (buffer.drop off)).packetSize = size := hsize.symm
  rw [hdecl]
  constructor
  · intro hsafe
    cases ht : gPacketHadler p (PacketHeader.ofBytes (buffer.drop off)).packetType with
    | none => exact absurd hsafe (handlePacket_of_not_registered P size ht)
    | some t =>
      refine ⟨?_, t, (gPacketHadler_eq_some _ _ _).1 ht⟩
      rw [handlePacket_of_registered P size ht] at hsafe
      by_contra hshort
      rw [handlePacketOf_of_short P t _ (Nat.lt_of_not_le hshort)] at hsafe
      cases hsafe
  · rintro ⟨h12, t, ht, hc⟩
    have hreg := (gPacketHadler_eq_some p _ t).2 ⟨ht, hc⟩
    rw [handlePacket_of_registered P size hreg]
    exact handlePacketOf_safe P hreg h12 (by omega)

/-- `handlePacket_safe_iff` at a packet of 12 bytes and a registered type. -/
theorem handlePacket_safe_iff_refresh :
    HandledSafely ⟨fun _ => Unit, fun _ => [], fun _ _ => some ()⟩ .server [240, 3, 0, 0, 12, 0, 0, 0, 1, 0, 0, 0] ⟨0, 12⟩ :=
  (handlePacket_safe_iff _ .server [240, 3, 0, 0, 12, 0, 0, 0, 1, 0, 0, 0] (by decide) 1 ⟨0, 12⟩ (by decide)).2
    ⟨by decide, .RefreshChatRoomReq, by decide, by decide⟩

/-- Not every item is handled safely: a packet of 12 bytes and type 65535 is dispatched, and `HandlePacket` indexes the table
behind its last entry. -/
theorem not_every_item_handledSafely :
    ¬∀ (P : Protobuf) (p : Program) (buffer : List UInt8), buffer.length < 2147483648 → ∀ (n : Nat) (s : Slice),
      s ∈ (processPacketLoop buffer n 0).1 → HandledSafely P p buffer s := by
  intro h
  have hsafe := h ⟨fun _ => Unit, fun _ => [], fun _ _ => none⟩ .server
    [255, 255, 0, 0, 12, 0, 0, 0, 1, 0, 0, 0] (by decide) 1 ⟨0, 12⟩ (by decide)
  have hresult : handlePacket ⟨fun _ => Unit, fun _ => [], fun _ _ => none⟩ .server
      [255, 255, 0, 0, 12, 0, 0, 0, 1, 0, 0, 0] 12 = .outOfTable 65535 := rfl
  rw [HandledSafely, Int.toNat_zero, List.drop_zero, hresult] at hsafe
  cases hsafe

end ProjectYJ
