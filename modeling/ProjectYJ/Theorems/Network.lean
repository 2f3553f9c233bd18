import ProjectYJ.Lib.HandOver
import ProjectYJ.Network
import ProjectYJ.Theorems.QueuedBytes
import ProjectYJ.Theorems.Reassembly
import ProjectYJ.Theorems.RoundTrip
import ProjectYJ.Theorems.SendFraming

/-!
# From `Send` to the handler at the other end

A socket carries messages: what the handlers of a session are given are messages that were passed to `Send` at the other end, each call
at most once, in the order in which their packets went out, and none left out before the last (`messages_arrive`). This holds as long
as neither end comes to one of its defects: a write that goes between the bytes of another, a packet overwritten before a worker reads
it, a partial packet lost by `Clear`, a chunk that does not fit.
-/

namespace ProjectYJ

universe u

open RecvState SendState

variable {P : Protobuf}

/-- A packet that `MakePacket` makes of a message of the program, which can be read back. -/
structure IsPacketOf (p : Program) (packet : Packet) (m : Outgoing P) : Prop where
  makes : m.type ∈ p.makes
  fits : P.byteSizeLong m.msg ≤ 65523
  parses : P.parse m.type (P.serialize m.msg) = some m.msg
  made : makePacket P m.msg m.padding = some packet

/-- What the calls of `HandlePacket` for a session read, and the lengths they were given. -/
def RecvState.handledFor (s : RecvState) (u : Int) : List (List UInt8 × Int) :=
  (s.handled.filter fun e => e.1.sessionId = u).map fun e => (e.2, e.1.len)

section

variable {π : Type u} [DecidableEq π]

/-- A step at which no defect shows: on the way out writes keep together, and the argument of `Send` is the packet of a message; on the
way in nothing that is yet to be read is overwritten, no partial packet is moved, and after an item of a session was dropped, since
there was no session, none is handled. -/
def Orderly (N : Network π) (P : Protobuf) (s : NetworkState π) : NetworkStep π → Prop
  | .send p l => (s.send p).Undivided l ∧ ∀ v packet, l = .pop v packet → ∃ m : Outgoing P, IsPacketOf (N.program p) packet m
  | .recv p l =>
    (s.recv p).Undisturbed l ∧ (∀ v, movesPartial v (s.recv p) l = false) ∧
      ∀ w item, l = .handle w → (s.recv p).hand w = some item → ∀ x ∈ s.dropped p, x.sessionId ≠ item.sessionId

end

/-! ## The way out -/

/-- What is passed to `Send` has a property. -/
structure Arguments (Q : Packet → Prop) (s : SendState) : Prop where
  sending : ∀ x ∈ s.sending, Q x.argument
  sends : ∀ x ∈ s.sends, Q x.2

section

variable {s t : SendState}

theorem Arguments.step {Q : Packet → Prop} (h : Arguments Q s) {l : SendStep} (hl : ∀ v packet, l = .pop v packet → Q packet)
    (hstep : sendStep s l = some t) : Arguments Q t := by
  cases l with
  | makePacket =>
    obtain rfl := sendStep_makePacket hstep
    exact ⟨h.sending, h.sends⟩
  | pop v packet =>
    obtain ⟨-, rfl⟩ := sendStep_pop hstep
    refine ⟨fun x hx => ?_, h.sends⟩
    rcases List.mem_append.1 hx with hx | hx
    · exact h.sending x hx
    · rw [List.mem_singleton.1 hx]
      exact hl v packet rfl
  | start i =>
    obtain ⟨x, hx, rfl⟩ := sendStep_start hstep
    refine ⟨fun y hy => h.sending y (List.mem_of_mem_eraseIdx hy), fun y hy => ?_⟩
    rcases List.mem_append.1 hy with hy | hy
    · exact h.sends y hy
    · rw [List.mem_singleton.1 hy]
      exact h.sending x (List.mem_of_getElem? hx)
  | transfer i n =>
    obtain ⟨w, -, -, -, rfl⟩ := sendStep_transfer hstep
    exact ⟨h.sending, h.sends⟩
  | handleWrite i error =>
    obtain ⟨w, -, rfl⟩ := sendStep_handleWrite hstep
    exact ⟨h.sending, h.sends⟩

/-- What went out on a socket stays. -/
theorem out_grows {l : SendStep} (hstep : sendStep s l = some t) (v : Int) : s.out v <+: t.out v := by
  cases l with
  | makePacket =>
    obtain rfl := sendStep_makePacket hstep
    exact List.prefix_rfl
  | pop u packet =>
    obtain ⟨-, rfl⟩ := sendStep_pop hstep
    exact List.prefix_rfl
  | start i =>
    obtain ⟨x, -, rfl⟩ := sendStep_start hstep
    exact List.prefix_rfl
  | transfer i n =>
    obtain ⟨w, -, -, -, rfl⟩ := sendStep_transfer hstep
    simp only [SendState.transfer]
    by_cases hv : v = w.session
    · subst hv
      rw [Function.update_self]
      exact List.prefix_append _ _
    · rw [Function.update_of_ne hv]
  | handleWrite i error =>
    obtain ⟨w, -, rfl⟩ := sendStep_handleWrite hstep
    exact List.prefix_rfl

/-- What went out on a socket is the front of the packets of different calls of `Send`. -/
theorem FramingInv.exists_calls (h : FramingInv s) (v : Int) :
    ∃ calls : List Nat, calls.Nodup ∧ (∀ k ∈ calls, ∃ packet, s.sends[k]? = some (v, packet)) ∧
      s.out v <+: calls.flatMap s.sendBytes := by
  obtain ⟨whole, tail, hframed⟩ := h.framed v
  have hsends : ∀ k m, (s.line v).messages k = some m → ∃ packet, s.sends[k]? = some (v, packet) := by
    intro k m hm
    obtain ⟨packet, hpacket, -⟩ := of_line_messages hm
    exact ⟨packet, hpacket⟩
  have hmessage : ∀ k m, (s.line v).messages k = some m → (s.line v).message k = s.sendBytes k ∧ s.sendBytes k = m := by
    intro k m hm
    obtain ⟨packet, hpacket, rfl⟩ := of_line_messages hm
    rw [Line.message_of_some hm, SendState.sendBytes, hpacket]
    exact ⟨rfl, rfl⟩
  have hwhole : ∀ k ∈ whole, ∃ m, (s.line v).messages k = some m := fun k hk => (hframed.whole k hk).imp fun _ hm => hm.1
  have hout : s.out v = whole.flatMap s.sendBytes ++ tail := by
    rw [show s.out v = (s.line v).out from rfl, hframed.out]
    congr 1
    refine List.flatMap_congr fun k hk => ?_
    obtain ⟨m, hm⟩ := hwhole k hk
    exact (hmessage k m hm).1
  rcases hframed.tail with ⟨rfl, -⟩ | ⟨k, m, hm, rfl, hpartial, -⟩
  · refine ⟨whole, hframed.nodup, fun k hk => ?_, ?_⟩
    · obtain ⟨m, hm⟩ := hwhole k hk
      exact hsends k m hm
    · rw [hout, List.append_nil]
  · -- the packet of the call that is partly transferred is the last
    have hnot : k ∉ whole := by
      intro hk
      obtain ⟨m', hm', hprogress⟩ := hframed.whole k hk
      obtain ⟨m'', hm'', -, hlt⟩ := hpartial
      obtain rfl := Option.some.inj (hm'.symm.trans hm'')
      omega
    refine ⟨whole ++ [k], ?_, fun j hj => ?_, ?_⟩
    · rw [List.nodup_append_comm, List.singleton_append, List.nodup_cons]
      exact ⟨hnot, hframed.nodup⟩
    · rcases List.mem_append.1 hj with hj | hj
      · obtain ⟨m', hm'⟩ := hwhole j hj
        exact hsends j m' hm'
      · rw [List.mem_singleton.1 hj]
        exact hsends k m hm
    · rw [hout, List.flatMap_append, List.flatMap_singleton, (hmessage k m hm).2]
      exact (List.prefix_append_right_inj _).2 (List.take_prefix _ _)

end

/-! ## The way to the workers -/

/-- The items of a process, from `Dispatch` on. -/
def NetworkState.handOver {π : Type u} (s : NetworkState π) (p : π) : HandOver Int PacketQueueItem where
  queue := (s.recv p).packetQueue
  hand := (s.recv p).hand
  dispatched := (s.recv p).dispatched
  handled := (s.recv p).handled.map Prod.fst
  dropped := s.dropped p

/-- The items of each session are with its worker, and in order. -/
structure InTurn (n : Nat) (H : HandOver Int PacketQueueItem) : Prop where
  routed : HandOver.Routed PacketQueueItem.sessionId (workerIndex n) H
  inOrder : HandOver.InOrder PacketQueueItem.sessionId (workerIndex n) H

/-- What a step of the receive path does to the items. -/
theorem InTurn.step {n : Nat} {r t : RecvState} {dropped : List PacketQueueItem} {l : RecvStep}
    (h : InTurn n ⟨r.packetQueue, r.hand, r.dispatched, r.handled.map Prod.fst, dropped⟩)
    (hl : ∀ w item, l = .handle w → r.hand w = some item → ∀ x ∈ dropped, x.sessionId ≠ item.sessionId)
    (hstep : recvStep n r l = some t) :
    InTurn n ⟨t.packetQueue, t.hand, t.dispatched, t.handled.map Prod.fst, dropped ++ r.dropping l⟩ := by
  have hsame : ∀ k : RecvStep, r.dropping k = [] → dropped ++ r.dropping k = dropped := fun k hk => by rw [hk, List.append_nil]
  cases l with
  | addData v data =>
    obtain ⟨-, -, -, -, rfl⟩ := recvStep_addData hstep
    rw [hsame _ rfl]
    exact h
  | process v =>
    obtain ⟨-, -, ⟨-, rfl⟩ | ⟨b, -, rfl⟩⟩ := recvStep_process hstep <;>
    · rw [hsame _ rfl]
      exact h
  | dispatch =>
    obtain ⟨v, pl, b, slice, next, -, -, -, rfl⟩ := recvStep_dispatch hstep
    rw [hsame _ rfl]
    exact ⟨h.routed.push (queueItem v b slice), h.inOrder.push (queueItem v b slice)⟩
  | finish =>
    obtain ⟨v, pl, b, -, -, -, rfl⟩ := recvStep_finish hstep
    rw [hsame _ rfl]
    exact h
  | pop w =>
    obtain ⟨hhand, item, rest, hqueue, rfl⟩ := recvStep_pop hstep
    rw [hsame _ rfl]
    exact ⟨h.routed.pop hqueue, h.inOrder.pop hhand hqueue⟩
  | handle w =>
    obtain ⟨item, b, hhand, -, rfl⟩ := recvStep_handle hstep
    have hnone : HandOver.ofKey PacketQueueItem.sessionId item.sessionId dropped = [] := by
      refine List.filter_eq_nil_iff.2 fun x hx => ?_
      simpa using hl w item rfl hhand x hx
    have hhandle := h.inOrder.handle h.routed hhand hnone
    simp only [HandOver.handle] at hhandle
    rw [hsame _ rfl, List.map_append]
    exact ⟨h.routed.release w rfl rfl, hhandle⟩
  | drop w =>
    obtain ⟨item, hhand, -⟩ := Option.map_eq_some_iff.1 hstep
    obtain rfl := recvStep_drop hstep
    have hdrop := h.inOrder.drop h.routed hhand
    simp only [HandOver.drop] at hdrop
    rw [show r.dropping (.drop w) = [item] by simp [RecvState.dropping, hhand]]
    exact ⟨h.routed.release w rfl rfl, hdrop⟩

/-- What was handled for a session are the first items that were dispatched for it, if each was read as it was dispatched. -/
theorem handledFor_prefix {n : Nat} {s : RecvState} {dropped : List PacketQueueItem}
    (h : InTurn n ⟨s.packetQueue, s.hand, s.dispatched, s.handled.map Prod.fst, dropped⟩)
    (hread : ∀ item bytes, (item, bytes) ∈ s.handled → bytes = item.bytes) (v : Int) : s.handledFor v <+: s.dispatchedFor v := by
  have hprefix := (h.inOrder.handled_prefix v).map fun i => (i.bytes, i.len)
  have hhandled : s.handledFor v =
      (HandOver.ofKey PacketQueueItem.sessionId v (s.handled.map Prod.fst)).map fun i => (i.bytes, i.len) := by
    simp only [RecvState.handledFor, HandOver.ofKey, List.filter_map, List.map_map]
    refine List.map_congr_left fun e he => ?_
    have hmem := (List.mem_filter.1 he).1
    simp only [Function.comp_apply, hread e.1 e.2 hmem]
  have hdispatched : s.dispatchedFor v =
      (HandOver.ofKey PacketQueueItem.sessionId v s.dispatched).map fun i => (i.bytes, i.len) := by
    simp only [RecvState.dispatchedFor, HandOver.ofKey]
    congr 1
  rw [hhandled, hdispatched]
  exact hprefix

/-! ## Every orderly run -/

section

variable {π : Type u} [DecidableEq π] {N : Network π} {s t : NetworkState π}

/-- What holds of every process in every orderly run, and of every socket. -/
structure NetworkInv (N : Network π) (P : Protobuf) (s : NetworkState π) : Prop where
  framing : ∀ p, FramingInv (s.send p)
  made : ∀ p, Arguments (fun packet => ∃ m : Outgoing P, IsPacketOf (N.program p) packet m) (s.send p)
  items : ∀ p, ItemsInv (s.recv p)
  reassembly : ∀ p v fs, ReassemblyInv v fs (s.recv p)
  carried : ∀ p v, (s.recv p).received v <+: (s.send (N.peer p v).1).out (N.peer p v).2
  inTurn : ∀ p, InTurn (N.numWorkers p) (s.handOver p)

namespace NetworkInv

theorem init (N : Network π) (P : Protobuf) : NetworkInv N P (networkSystem N).init where
  framing _ := FramingInv.init _
  made _ := ⟨nofun, nofun⟩
  items _ := ItemsInv.init
  reassembly _ v fs := ReassemblyInv.init v fs
  carried _ _ := List.nil_prefix
  inTurn _ := ⟨⟨fun _ _ h => absurd h List.not_mem_nil, nofun⟩, fun _ => rfl⟩

/-- A step of the send path of a process. -/
theorem send (h : NetworkInv N P s) {p : π} {l : SendStep} (hl : Orderly N P s (.send p l)) {x : SendState}
    (hstep : sendStep (s.send p) l = some x) : NetworkInv N P { s with send := Function.update s.send p x } where
  framing := (Function.forall_update_iff s.send fun _ y => FramingInv y).2 ⟨(h.framing p).step hl.1 hstep, fun q _ => h.framing q⟩
  made := (Function.forall_update_iff s.send fun q y => Arguments (fun packet => ∃ m : Outgoing P, IsPacketOf (N.program q) packet m) y).2
    ⟨(h.made p).step hl.2 hstep, fun q _ => h.made q⟩
  items := h.items
  reassembly := h.reassembly
  carried q v := by
    refine (h.carried q v).trans ?_
    by_cases hp : (N.peer q v).1 = p
    · simp only [hp, Function.update_self]
      exact out_grows hstep _
    · simp only [Function.update_of_ne hp]
      exact List.prefix_rfl
  inTurn := h.inTurn

/-- What has been received on a socket grows by the chunk. -/
theorem received_step {n : Nat} {r x : RecvState} {l : RecvStep} (hstep : recvStep n r l = some x) (v : Int) :
    x.received v = r.received v ∨ ∃ data, l = .addData v data ∧ x.received v = r.received v ++ data := by
  cases l with
  | addData u data =>
    obtain ⟨-, -, -, -, rfl⟩ := recvStep_addData hstep
    by_cases hv : v = u
    · subst hv
      exact Or.inr ⟨data, rfl, addData_received r v data⟩
    · exact Or.inl (Function.update_of_ne hv ..)
  | process u =>
    obtain ⟨-, -, ⟨-, rfl⟩ | ⟨b, -, rfl⟩⟩ := recvStep_process hstep <;> exact Or.inl rfl
  | dispatch =>
    obtain ⟨u, pl, b, slice, next, -, -, -, rfl⟩ := recvStep_dispatch hstep
    exact Or.inl rfl
  | finish =>
    obtain ⟨u, pl, b, -, -, -, rfl⟩ := recvStep_finish hstep
    exact Or.inl rfl
  | pop w =>
    obtain ⟨-, item, rest, -, rfl⟩ := recvStep_pop hstep
    exact Or.inl rfl
  | handle w =>
    obtain ⟨item, b, -, -, rfl⟩ := recvStep_handle hstep
    exact Or.inl rfl
  | drop w =>
    obtain rfl := recvStep_drop hstep
    exact Or.inl rfl

/-- A step of the receive path of a process. -/
theorem recv (h : NetworkInv N P s) {p : π} {l : RecvStep} (hl : Orderly N P s (.recv p l)) (hcarries : s.carries N p l = true)
    {x : RecvState} (hstep : recvStep (N.numWorkers p) (s.recv p) l = some x) :
    NetworkInv N P { s with
      recv := Function.update s.recv p x
      dropped := Function.update s.dropped p (s.dropped p ++ (s.recv p).dropping l) } where
  framing := h.framing
  made := h.made
  items := (Function.forall_update_iff s.recv fun _ y => ItemsInv y).2 ⟨(h.items p).step hl.1 hstep, fun q _ => h.items q⟩
  reassembly := (Function.forall_update_iff s.recv fun _ y => ∀ v fs, ReassemblyInv v fs y).2
    ⟨fun v fs => (h.reassembly p v fs).step (hl.2.1 v) hstep, fun q _ => h.reassembly q⟩
  carried q v := by
    by_cases hq : q = p
    · subst hq
      simp only [Function.update_self]
      rcases received_step hstep v with heq | ⟨data, rfl, heq⟩
      · rw [heq]
        exact h.carried q v
      · rw [heq]
        exact List.isPrefixOf_iff_prefix.1 hcarries
    · simp only [Function.update_of_ne hq]
      exact h.carried q v
  inTurn q := by
    by_cases hq : q = p
    · subst hq
      simp only [NetworkState.handOver, Function.update_self]
      exact (h.inTurn q).step hl.2.2 hstep
    · simp only [NetworkState.handOver, Function.update_of_ne hq]
      exact h.inTurn q

theorem step (h : NetworkInv N P s) {l : NetworkStep π} (hl : Orderly N P s l) (hstep : networkStep N s l = some t) :
    NetworkInv N P t := by
  cases l with
  | send p l =>
    obtain ⟨x, hx, rfl⟩ := Option.map_eq_some_iff.1 hstep
    exact h.send hl hx
  | recv p l =>
    simp only [networkStep, Option.ite_none_right_eq_some] at hstep
    obtain ⟨hcarries, hstep⟩ := hstep
    obtain ⟨x, hx, rfl⟩ := Option.map_eq_some_iff.1 hstep
    exact h.recv hl hcarries hx

end NetworkInv

/-- Something for each element of a list. -/
theorem exists_forall₂ {α β : Type*} {R : α → β → Prop} {l : List α} (h : ∀ a ∈ l, ∃ b, R a b) : ∃ m, List.Forall₂ R l m := by
  induction l with
  | nil => exact ⟨[], .nil⟩
  | cons a l ih =>
    obtain ⟨b, hb⟩ := h a List.mem_cons_self
    obtain ⟨m, hm⟩ := ih fun x hx => h x (List.mem_cons_of_mem a hx)
    exact ⟨b :: m, .cons hb hm⟩

/-- The frame of a message that fits. -/
def Outgoing.frameOf (m : { m : Outgoing P // P.byteSizeLong m.msg ≤ 65523 }) : WirePacket := m.1.frame m.2

/-- The packets of calls of `Send` are the frames of their messages, end to end. -/
theorem flatMap_sendBytes {x : SendState} {v : Int} {prog : Program} {calls : List Nat}
    {ms : List { m : Outgoing P // P.byteSizeLong m.msg ≤ 65523 }}
    (h : List.Forall₂ (fun k m => ∃ packet, x.sends[k]? = some (v, packet) ∧ IsPacketOf prog packet m.1) calls ms) :
    calls.flatMap x.sendBytes = Framing.stream (ms.map Outgoing.frameOf) := by
  induction h with
  | nil => rfl
  | @cons k m calls ms hkm _ ih =>
    obtain ⟨packet, hpacket, hof⟩ := hkm
    have hbytes : x.sendBytes k = (Outgoing.frameOf m).bytes := by
      rw [SendState.sendBytes, hpacket, Outgoing.frameOf, ← m.1.wire_eq m.2, Outgoing.wire, hof.made]
      rfl
    rw [List.flatMap_cons, List.map_cons, Framing.stream_cons, hbytes, ih]

/-- What the other program does with the frames of messages. -/
theorem handlePacket_frameOf {x : SendState} {v : Int} {prog prog' : Program} (hprog : prog' = prog.peer) {calls : List Nat}
    {ms : List { m : Outgoing P // P.byteSizeLong m.msg ≤ 65523 }}
    (h : List.Forall₂ (fun k m => ∃ packet, x.sends[k]? = some (v, packet) ∧ IsPacketOf prog packet m.1) calls ms) :
    ((ms.map Outgoing.frameOf).map dispatchOf).map (fun e => handlePacket P prog' e.1 e.2) =
      (ms.map Subtype.val).map fun m => .handled m.type sizeofPacketHeader (P.byteSizeLong m.msg) m.msg := by
  induction h with
  | nil => rfl
  | @cons k m calls ms hkm _ ih =>
    obtain ⟨packet, -, hof⟩ := hkm
    have hframe := handlePacket_frame m.1 hof.makes m.2 hof.parses []
    rw [List.append_nil] at hframe
    simp only [List.map_cons, dispatchOf, Outgoing.frameOf, hprog, hframe]
    rw [← hprog]
    exact congrArg _ ih

/-- For every orderly run of any processes, every process and every session of it for which no overflow was reported: what its calls of
`HandlePacket` do is to call the handlers with the messages of some calls of `Send` on the other end of its socket, each at most once,
which are the first ones by what went out on that socket. -/
theorem messages_arrive (N : Network π) (P : Protobuf) {ls : List (NetworkStep π)} {s : NetworkState π}
    (hls : (networkSystem N).Meets (Orderly N P) (networkSystem N).init ls)
    (h : (networkSystem N).run (networkSystem N).init ls = some s) (p : π) (v : Int) (ho : (s.recv p).overflowed v = false) :
    ∃ (calls : List Nat) (msgs : List (Outgoing P)), calls.Nodup ∧
      List.Forall₂ (fun k m => ∃ packet, (s.send (N.peer p v).1).sends[k]? = some ((N.peer p v).2, packet) ∧
        IsPacketOf (N.program (N.peer p v).1) packet m) calls msgs ∧
      calls.flatMap (s.send (N.peer p v).1).sendBytes <+: (s.send (N.peer p v).1).out (N.peer p v).2 ∧
      ((s.recv p).handledFor v).map (fun e => handlePacket P (N.program p) e.1 e.2) =
        msgs.map fun m => .handled m.type sizeofPacketHeader (P.byteSizeLong m.msg) m.msg := by
  have hinv : NetworkInv N P s :=
    (networkSystem N).meets_invariant (fun _ _ _ hl hs hstep => hs.step hl hstep) (NetworkInv.init N P) hls h
  obtain ⟨sent, hnodup, hsent, hout⟩ := (hinv.framing (N.peer p v).1).exists_calls (N.peer p v).2
  have hmade : ∀ k ∈ sent, ∃ m : { m : Outgoing P // P.byteSizeLong m.msg ≤ 65523 }, ∃ packet,
      (s.send (N.peer p v).1).sends[k]? = some ((N.peer p v).2, packet) ∧ IsPacketOf (N.program (N.peer p v).1) packet m.1 := by
    intro k hk
    obtain ⟨packet, hpacket⟩ := hsent k hk
    obtain ⟨m, hm⟩ := (hinv.made (N.peer p v).1).sends _ (List.mem_of_getElem? hpacket)
    exact ⟨⟨m, hm.fits⟩, packet, hpacket, hm⟩
  obtain ⟨ms, hms⟩ := exists_forall₂ hmade
  rw [flatMap_sendBytes hms] at hout
  -- the session stands in the stream of these messages
  obtain ⟨don, cur, rest, q, hfs, hin⟩ :=
    (hinv.reassembly p v (ms.map Outgoing.frameOf)).inStream ho ((hinv.carried p v).trans hout)
  have hhandled := handledFor_prefix (hinv.inTurn p) (hinv.items p).handled v
  rw [hin.dispatched] at hhandled
  have hlen : ((s.recv p).handledFor v).length ≤ (don ++ cur).length := by simpa using hhandled.length_le
  have hfirst : (ms.take ((s.recv p).handledFor v).length).map Outgoing.frameOf =
      (don ++ cur).take ((s.recv p).handledFor v).length := by
    rw [List.map_take, hfs, List.take_append_of_le_length hlen]
  have htaken := List.forall₂_take ((s.recv p).handledFor v).length hms
  refine ⟨sent.take ((s.recv p).handledFor v).length, (ms.take ((s.recv p).handledFor v).length).map Subtype.val,
    hnodup.sublist (List.take_sublist _ _), List.forall₂_map_right_iff.2 htaken, ?_, ?_⟩
  · rw [flatMap_sendBytes htaken, hfirst]
    refine List.IsPrefix.trans ?_ (hinv.carried p v)
    rw [hin.received]
    refine List.IsPrefix.trans ?_ (List.prefix_append _ _)
    conv_rhs => rw [← List.take_append_drop ((s.recv p).handledFor v).length (don ++ cur), Framing.stream_append]
    exact List.prefix_append _ _
  · rw [← handlePacket_frameOf (N.opposite p v) htaken, hfirst, List.map_take, ← List.prefix_iff_eq_take.1 hhandled]

end

/-- A server and a client with one session each, which are the ends of one socket. -/
def oneSocket : Network Program where
  program p := p
  poolSize _ := 2
  numWorkers _ := 1
  peer p v := (p.peer, v)
  opposite p _ := by cases p <;> rfl

/-- A login of the user `ab` with the password `c`. -/
def loginMessage : Outgoing stringMessages := ⟨.LoginReq, [[97, 98], [99]], (205, 205)⟩

/-- The packet of the login. -/
def loginPacket : Packet := ⟨some (packetBytes stringMessages loginMessage.msg loginMessage.padding), 19, 1002⟩

theorem isPacketOf_login : IsPacketOf .client loginPacket loginMessage := ⟨by decide, by decide, rfl, by rfl⟩

/-- The client sends a login, and the server handles it. -/
def sendsLogin : List (NetworkStep Program) :=
  [.send .client (.pop 0 loginPacket), .send .client (.start 0), .send .client (.transfer 0 19),
    .recv .server (.addData 0 loginPacket.sent), .recv .server (.process 0), .recv .server .dispatch, .recv .server .finish,
    .recv .server (.pop 0), .recv .server (.handle 0)]

/-- A step in which no worker of a process drops an item. -/
theorem dropped_of_step {l : NetworkStep Program} {s t : NetworkState Program} (h : (networkSystem oneSocket).step s l = some t)
    (hl : ∀ p w, l ≠ .recv p (.drop w)) : t.dropped = s.dropped := by
  cases l with
  | send p l =>
    obtain ⟨x, -, rfl⟩ := Option.map_eq_some_iff.1 h
    rfl
  | recv p l =>
    replace h : networkStep oneSocket s (.recv p l) = some t := h
    simp only [networkStep, Option.ite_none_right_eq_some] at h
    obtain ⟨x, -, rfl⟩ := Option.map_eq_some_iff.1 h.2
    have hnone : (s.recv p).dropping l = [] := by
      cases l with
      | drop w => exact absurd rfl (hl p w)
      | _ => rfl
    simp only [hnone, List.append_nil, Function.update_eq_self]

theorem sendsLogin_orderly :
    (networkSystem oneSocket).Meets (Orderly oneSocket stringMessages) (networkSystem oneSocket).init sendsLogin := by
  refine ⟨⟨trivial, ?_⟩, fun a ha => ?_⟩
  · rintro v packet ⟨⟩
    exact ⟨loginMessage, isPacketOf_login⟩
  obtain rfl := Option.some.inj ha
  refine ⟨⟨trivial, by simp⟩, fun b hb => ?_⟩
  obtain rfl := Option.some.inj hb
  refine ⟨⟨by decide, by simp⟩, fun c hc => ?_⟩
  obtain rfl := Option.some.inj hc
  refine ⟨⟨?_, fun _ => rfl, by simp⟩, fun d hd => ?_⟩
  · -- nothing is pending when the chunk comes
    rintro u off len - item (⟨w, hw⟩ | ⟨w, hw⟩)
    · exact absurd hw List.not_mem_nil
    · cases hw
  obtain rfl := Option.some.inj hd
  refine ⟨⟨undisturbed_of_none rfl, fun _ => rfl, by simp⟩, fun e he => ?_⟩
  obtain rfl := Option.some.inj he
  refine ⟨⟨undisturbed_of_none rfl, fun _ => rfl, by simp⟩, fun f hf => ?_⟩
  obtain rfl := Option.some.inj hf
  refine ⟨⟨undisturbed_of_none (by decide +kernel), fun v => Bool.and_eq_false_imp.2 fun _ => by decide +kernel, by simp⟩,
    fun g hg => ?_⟩
  refine ⟨⟨undisturbed_of_none rfl, fun _ => rfl, by simp⟩, fun i hi => ?_⟩
  refine ⟨⟨undisturbed_of_none rfl, fun _ => rfl, fun w item _ _ x hx => ?_⟩, fun _ _ => trivial⟩
  rw [dropped_of_step hi (by simp), dropped_of_step hg (by simp)] at hx
  exact absurd hx List.not_mem_nil

theorem messages_arrive_login : ∃ s, (networkSystem oneSocket).run (networkSystem oneSocket).init sendsLogin = some s ∧
    ((s.recv .server).handledFor 0).length = 1 ∧
    ∃ (calls : List Nat) (msgs : List (Outgoing stringMessages)), calls.Nodup ∧
      List.Forall₂ (fun k m => ∃ packet, (s.send .client).sends[k]? = some (0, packet) ∧ IsPacketOf .client packet m) calls msgs ∧
      calls.flatMap (s.send .client).sendBytes <+: (s.send .client).out 0 ∧
      ((s.recv .server).handledFor 0).map (fun e => handlePacket stringMessages .server e.1 e.2) =
        msgs.map fun m => .handled m.type sizeofPacketHeader (stringMessages.byteSizeLong m.msg) m.msg := by
  obtain ⟨s, hs, hf⟩ := Option.map_eq_some_iff.1
    (show ((networkSystem oneSocket).run (networkSystem oneSocket).init sendsLogin).map
      (fun s => (((s.recv .server).handledFor 0).length, (s.recv .server).overflowed 0)) = some (1, false) by decide +kernel)
  obtain ⟨hlen, ho⟩ := Prod.mk.injEq .. ▸ hf
  exact ⟨s, hs, hlen, messages_arrive oneSocket stringMessages sendsLogin_orderly hs .server 0 ho⟩

end ProjectYJ
