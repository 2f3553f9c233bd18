import ProjectYJ.Lemmas.SendPath

/-!
# What goes out on a socket

Each socket is a `Line` to which the packets passed to `Send` are handed when their writes start. The bytes that went out are
whole packets and at most a part of one more, as long as a write moves bytes only while no other write on its socket is left
partly transferred. The code does nothing to keep two writes of a session from being outstanding together.
-/

namespace ProjectYJ

namespace SendState

/-- The packet passed to this call of `Send`, if its write was started and is on the socket of this session. -/
def sentOn (s : SendState) (u : Int) (k : Nat) : Option Packet :=
  (s.sends[k]?).bind fun x => if x.1 = u then some x.2 else none

/-- The write of this call of `Send` is on this socket and was transferred in part: it is outstanding, or it failed. -/
def partlySent (s : SendState) (u : Int) (k : Nat) : Bool :=
  (s.sentOn u k).any fun packet => decide (0 < s.transferred k ∧ s.transferred k < packet.size)

/-- If the step transfers bytes of a write, no other write on that socket is transferred in part. -/
def Undivided (s : SendState) : SendStep → Prop
  | .transfer i _ => ∀ w ∈ s.writes[i]?, ∀ k < s.sends.length, k ≠ w.serial → s.partlySent w.session k = false
  | _ => True

instance (s : SendState) (l : SendStep) : Decidable (s.Undivided l) := by
  cases l <;> unfold Undivided <;> infer_instance

/-- The bytes a call of `Send` was to write. -/
def sendBytes (s : SendState) (k : Nat) : List UInt8 := ((s.sends[k]?).map (fun x => x.2.sent)).getD []

/-- The socket of a session as a line: the packets whose writes were started on it, how much of each was transferred, and what
went out. -/
def line (s : SendState) (u : Int) : Line UInt8 where
  messages k := (s.sentOn u k).map Packet.sent
  progress k := ((s.sentOn u k).map fun _ => s.transferred k).getD 0
  out := s.out u

end SendState

open SendState

section

variable {s t : SendState} {u : Int}

theorem sentOn_eq_some {k : Nat} {p : Packet} : s.sentOn u k = some p ↔ s.sends[k]? = some (u, p) := by
  simp only [sentOn, Option.bind_eq_some_iff, Option.ite_none_right_eq_some, Option.some.injEq, Prod.exists]
  constructor
  · rintro ⟨v, q, hk, rfl, rfl⟩
    exact hk
  · intro hk
    exact ⟨u, p, hk, rfl, rfl⟩

theorem sentOn_length : s.sentOn u s.sends.length = none := by
  rw [sentOn, List.getElem?_eq_none (Nat.le_refl _), Option.bind_none]

theorem line_messages {k : Nat} {p : Packet} (h : s.sends[k]? = some (u, p)) : (s.line u).messages k = some p.sent := by
  simp only [line, sentOn_eq_some.2 h, Option.map_some]

theorem line_progress {k : Nat} {p : Packet} (h : s.sends[k]? = some (u, p)) : (s.line u).progress k = s.transferred k := by
  simp only [line, sentOn_eq_some.2 h, Option.map_some, Option.getD_some]

/-- A message of the line is a packet passed to `Send`. -/
theorem of_line_messages {k : Nat} {m : List UInt8} (h : (s.line u).messages k = some m) :
    ∃ p, s.sends[k]? = some (u, p) ∧ m = p.sent := by
  obtain ⟨p, hp, rfl⟩ := Option.map_eq_some_iff.1 h
  exact ⟨p, sentOn_eq_some.1 hp, rfl⟩

/-- The packets that are partly carried on the line are those partly sent. -/
theorem partlySent_of_partial {k : Nat} (h : (s.line u).Partial k) : k < s.sends.length ∧ s.partlySent u k = true := by
  obtain ⟨m, hm, h0, hlt⟩ := h
  obtain ⟨p, hp, rfl⟩ := of_line_messages hm
  rw [line_progress hp] at h0 hlt
  have hle : p.sent.length ≤ p.size := List.length_take_le ..
  refine ⟨(List.getElem?_eq_some_iff.1 hp).1, ?_⟩
  simp only [partlySent, sentOn_eq_some.2 hp, Option.any_some, decide_eq_true_eq]
  exact ⟨h0, by omega⟩

/-- The start of a write adds its packet under the next number, on the socket of its session. -/
theorem sentOn_start {i : Nat} {x : Sending} (k : Nat) :
    (s.start i x).sentOn u k =
      if k = s.sends.length then (if x.session = u then some x.argument else none) else s.sentOn u k := by
  simp only [sentOn, SendState.start]
  by_cases hk : k = s.sends.length
  · rw [if_pos hk, hk, List.getElem?_concat_length, Option.bind_some]
  · rw [if_neg hk]
    rcases Nat.lt_or_gt_of_ne hk with hlt | hgt
    · rw [List.getElem?_append_left hlt]
    · rw [List.getElem?_eq_none (by rw [List.length_append, List.length_singleton]; omega),
        List.getElem?_eq_none (by omega)]

/-- The start of a write hands its packet to the line of its session, under a new number, and leaves the other lines. -/
theorem line_start (hs : SendInv s) {i : Nat} {x : Sending} :
    (s.start i x).line u = if x.session = u then (s.line u).hand s.sends.length x.argument.sent else s.line u := by
  have hzero : (s.start i x).transferred s.sends.length = 0 := hs.transferred s.sends.length (Nat.le_refl _)
  split
  · rename_i hu
    simp only [line, Line.hand, Line.mk.injEq]
    refine ⟨?_, ?_, rfl⟩
    · funext k
      by_cases hk : k = s.sends.length
      · rw [sentOn_start, if_pos hk, if_pos hu, hk, Function.update_self]
        rfl
      · rw [sentOn_start, if_neg hk, Function.update_of_ne hk]
    · funext k
      by_cases hk : k = s.sends.length
      · rw [sentOn_start, if_pos hk, if_pos hu, hk, Function.update_self, Option.map_some, hzero]
        rfl
      · rw [sentOn_start, if_neg hk, Function.update_of_ne hk]
        rfl
  · rename_i hu
    have hsame : ∀ k, (s.start i x).sentOn u k = s.sentOn u k := by
      intro k
      rw [sentOn_start, if_neg hu]
      split
      · rename_i hk
        rw [hk, sentOn_length]
      · rfl
    simp only [line, hsame]
    rfl

/-- A transfer carries the next bytes of the packet on the line of its session, and leaves the other lines. -/
theorem line_transfer {w : OutstandingWrite} {k : Packet} (hk : s.sends[w.serial]? = some (w.session, k))
    (hpk : s.packets w.packet = k) (n : Nat) :
    (s.transfer w n).line u = if w.session = u then (s.line u).transfer w.serial k.sent n else s.line u := by
  have hsame : ∀ v j, (s.transfer w n).sentOn v j = s.sentOn v j := fun _ _ => rfl
  have hself : (s.transfer w n).transferred w.serial = s.transferred w.serial + n := Function.update_self ..
  have hother : ∀ j, j ≠ w.serial → (s.transfer w n).transferred j = s.transferred j :=
    fun j hj => Function.update_of_ne hj ..
  split
  · rename_i hu
    subst hu
    have hp := line_progress hk
    simp only [Line.transfer, hp]
    simp only [line, hsame, Line.mk.injEq, true_and]
    constructor
    · funext j
      by_cases hj : j = w.serial
      · rw [hj, hself, Function.update_self, sentOn_eq_some.2 hk]
        rfl
      · rw [hother j hj, Function.update_of_ne hj]
    · rw [← hpk]
      exact Function.update_self ..
  · rename_i hu
    simp only [line, hsame, Line.mk.injEq, true_and]
    constructor
    · funext j
      by_cases hj : j = w.serial
      · have hnone : s.sentOn u w.serial = none := by
          rw [sentOn, hk, Option.bind_some, if_neg hu]
        rw [hj, hnone]
        rfl
      · rw [hother j hj]
    · exact Function.update_of_ne (Ne.symm hu) ..

end

/-! ## Every run that divides no packet -/

/-- On every socket whole packets went out, each once, and behind them at most a part of one more. -/
structure FramingInv (s : SendState) : Prop where
  packets : SendInv s
  framed : ∀ u, ∃ whole tail, (s.line u).Framed whole tail

theorem FramingInv.init (poolSize : Nat) : FramingInv (SendState.init poolSize) where
  packets := SendInv.init poolSize
  framed u := by
    refine ⟨[], [], ?_⟩
    have hline : (SendState.init poolSize).line u = Line.empty := rfl
    rw [hline]
    exact Line.framed_empty

theorem FramingInv.step {s t : SendState} (hs : FramingInv s) {l : SendStep} (hl : s.Undivided l)
    (h : sendStep s l = some t) : FramingInv t := by
  refine ⟨hs.packets.step h, fun u => ?_⟩
  obtain ⟨whole, tail, hframed⟩ := hs.framed u
  cases l with
  | makePacket =>
    obtain rfl := sendStep_makePacket h
    exact ⟨whole, tail, hframed⟩
  | pop v k =>
    obtain ⟨_, rfl⟩ := sendStep_pop h
    exact ⟨whole, tail, hframed⟩
  | start i =>
    obtain ⟨x, hx, rfl⟩ := sendStep_start h
    rw [line_start hs.packets]
    split
    · refine ⟨whole, tail, hframed.hand ?_⟩
      simp only [line, sentOn_length, Option.map_none]
    · exact ⟨whole, tail, hframed⟩
  | transfer i n =>
    obtain ⟨w, hw, hn, hle, rfl⟩ := sendStep_transfer h
    obtain ⟨k, hk, hpk, hsize, hwf⟩ := hs.packets.content w (List.mem_of_getElem? hw)
    rw [line_transfer hk hpk]
    split
    · rename_i hu
      subst hu
      have hlen : k.sent.length = w.size := by
        rw [hsize, Packet.sent, List.length_take, Nat.min_eq_left (Nat.le_of_eq (Eq.symm hwf))]
      refine hframed.transfer (line_messages hk) hn (by rw [line_progress hk, hlen]; exact hle) ?_
      intro j hj hpart
      obtain ⟨hlt, hsent⟩ := partlySent_of_partial hpart
      rw [hl w hw j hlt hj] at hsent
      cases hsent
    · exact ⟨whole, tail, hframed⟩
  | handleWrite i error =>
    obtain ⟨w, _, rfl⟩ := sendStep_handleWrite h
    exact ⟨whole, tail, hframed⟩

/-- In a run in which no write moves bytes while another on the same socket is transferred in part, what went out on a
socket is whole packets of different calls of `Send` on that session, and behind them a part of the packet of at most one
more. -/
theorem out_framed (poolSize : Nat) {ls : List SendStep} {s : SendState}
    (hu : (sendSystem poolSize).Meets Undivided (SendState.init poolSize) ls)
    (hr : (sendSystem poolSize).run (SendState.init poolSize) ls = some s) (u : Int) :
    ∃ (whole : List Nat) (tail : List UInt8), s.out u = whole.flatMap s.sendBytes ++ tail ∧ whole.Nodup ∧
      (∀ k ∈ whole, ∃ packet, s.sends[k]? = some (u, packet)) ∧
      (tail = [] ∨ ∃ k packet, k ∉ whole ∧ s.sends[k]? = some (u, packet) ∧ tail <+: packet.sent) := by
  have hinv : FramingInv s :=
    (sendSystem poolSize).meets_invariant (fun _ _ _ hl hs h => hs.step hl h) (FramingInv.init poolSize) hu hr
  obtain ⟨whole, tail, hf⟩ := hinv.framed u
  have hsends : ∀ k ∈ whole, ∃ packet, s.sends[k]? = some (u, packet) := by
    intro k hk
    obtain ⟨m, hm, _⟩ := hf.whole k hk
    obtain ⟨p, hp, _⟩ := of_line_messages hm
    exact ⟨p, hp⟩
  refine ⟨whole, tail, ?_, hf.nodup, hsends, ?_⟩
  · rw [show s.out u = (s.line u).out from rfl, hf.out]
    congr 1
    refine List.flatMap_congr (fun k hk => ?_)
    obtain ⟨p, hp⟩ := hsends k hk
    rw [Line.message_of_some (line_messages hp), sendBytes, hp]
    rfl
  · rcases hf.tail with ⟨rfl, _⟩ | ⟨k, m, hm, rfl, hpart, _⟩
    · exact Or.inl rfl
    · obtain ⟨p, hp, rfl⟩ := of_line_messages hm
      refine Or.inr ⟨k, p, ?_, hp, List.take_prefix ..⟩
      intro hk
      obtain ⟨m', hm', hfull⟩ := hf.whole k hk
      obtain ⟨m'', hm'', _, hlt⟩ := hpart
      obtain rfl := Option.some.inj (hm'.symm.trans hm'')
      omega

/-- The packet of a refresh acknowledgement with the sequence number `n`, of 12 bytes. -/
def ackPacket (n : Nat) : Packet where
  data := some (PacketHeader.toBytes { packetType := PacketType.RefreshChatRoomAck.code, packetSize := 12, seqNum := n } (0, 0))
  size := 12
  packetType := PacketType.RefreshChatRoomAck.code

/-- Two writes on one socket, the second moved in part after the first is out, and one on another socket meanwhile. -/
def oneByOne : List SendStep :=
  [.makePacket, .pop 7 (ackPacket 1), .pop 7 (ackPacket 2), .start 0, .pop 8 (ackPacket 3), .start 0, .start 0,
    .transfer 0 5, .transfer 2 1, .transfer 0 7, .handleWrite 0 false, .transfer 0 4]

/-- `out_framed` at the run `oneByOne`: 16 bytes went out on the socket. -/
theorem out_framed_oneByOne : ∃ s, (sendSystem 2).run (SendState.init 2) oneByOne = some s ∧ (s.out 7).length = 16 ∧
    ∃ (whole : List Nat) (tail : List UInt8), s.out 7 = whole.flatMap s.sendBytes ++ tail ∧ whole.Nodup ∧
      (∀ k ∈ whole, ∃ packet, s.sends[k]? = some (7, packet)) ∧
      (tail = [] ∨ ∃ k packet, k ∉ whole ∧ s.sends[k]? = some (7, packet) ∧ tail <+: packet.sent) := by
  have hrun : ((sendSystem 2).run (SendState.init 2) oneByOne).map (fun s => (s.out 7).length) = some 16 := by decide
  obtain ⟨s, hs, hlen⟩ := Option.map_eq_some_iff.1 hrun
  exact ⟨s, hs, hlen, out_framed 2 (by decide) hs 7⟩

/-- Two workers have a write outstanding on one socket, and each write moves one byte. -/
def alternating : List SendStep :=
  [.pop 7 (ackPacket 1), .pop 7 (ackPacket 2), .start 0, .start 0, .transfer 0 1, .transfer 1 1]

/-- Two outstanding writes can mix their packets: after `alternating` the first byte of each packet went out, which is no
part of either. -/
theorem not_every_out_framed :
    ¬∀ (poolSize : Nat) (ls : List SendStep) (s : SendState),
      (sendSystem poolSize).run (SendState.init poolSize) ls = some s → ∀ u,
        ∃ (whole : List Nat) (tail : List UInt8), s.out u = whole.flatMap s.sendBytes ++ tail ∧ whole.Nodup ∧
          (∀ k ∈ whole, ∃ packet, s.sends[k]? = some (u, packet)) ∧
          (tail = [] ∨ ∃ k packet, k ∉ whole ∧ s.sends[k]? = some (u, packet) ∧ tail <+: packet.sent) := by
  intro h
  have hrun : ((sendSystem 2).run (SendState.init 2) alternating).map (fun s => (s.out 7, s.sends)) =
      some ([241, 241], [(7, ackPacket 1), (7, ackPacket 2)]) := by decide
  obtain ⟨s, hs, hfields⟩ := Option.map_eq_some_iff.1 hrun
  obtain ⟨hout, hsends⟩ := Prod.mk.inj hfields
  obtain ⟨whole, tail, heq, -, hwhole, htail⟩ := h 2 alternating s hs 7
  have hpacket : ∀ (k : Nat) packet, s.sends[k]? = some (7, packet) → packet = ackPacket 1 ∨ packet = ackPacket 2 := by
    intro k packet hk
    rw [hsends] at hk
    have hmem := List.mem_of_getElem? hk
    simp only [List.mem_cons, Prod.mk.injEq, true_and, List.not_mem_nil, or_false] at hmem
    exact hmem
  rw [hout] at heq
  cases whole with
  | nil =>
    rcases htail with rfl | ⟨k, packet, -, hk, hprefix⟩
    · cases heq
    · rw [show tail = [241, 241] from heq.symm] at hprefix
      rcases hpacket k packet hk with rfl | rfl
      · exact absurd hprefix (by decide)
      · exact absurd hprefix (by decide)
  | cons k whole =>
    obtain ⟨packet, hk⟩ := hwhole k List.mem_cons_self
    have hlen : (s.sendBytes k).length = 12 := by
      rw [sendBytes, hk]
      rcases hpacket k packet hk with rfl | rfl
      · rfl
      · rfl
    have hcount := congrArg List.length heq
    rw [List.flatMap_cons, List.length_append, List.length_append, hlen] at hcount
    simp only [List.length_cons, List.length_nil] at hcount
    omega

end ProjectYJ
