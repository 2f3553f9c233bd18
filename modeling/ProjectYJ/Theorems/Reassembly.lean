import ProjectYJ.Lemmas.Receive

/-!
# Reassembly

A session's bytes arrive cut anywhere, and the packets dispatched for it are those its bytes so far hold whole. The
invariant follows the packets of the stream: those consumed, those dispatched by the `ProcessPacket` that is running, and
those to come, of which the unread bytes hold the front. It is kept as long as `Clear` never has to move a partial packet to
the front: when it does, the write position is not put behind the bytes it moved, and the next chunk overwrites them.
-/

namespace ProjectYJ

namespace RecvState

/-- What was dispatched for a session: the bytes at that time, and the length. -/
def dispatchedFor (s : RecvState) (u : Int) : List (List UInt8 × Int) :=
  (s.dispatched.filter (fun i => i.sessionId == u)).map (fun i => (i.bytes, i.len))

/-- The arguments of the `Dispatch` of a packet. -/
def dispatchOf (f : WirePacket) : List UInt8 × Int := (f.bytes, (f.bytes.length : Int))

/-- The step is the end of `ProcessSessionBuffer` for the session, some bytes were processed, and `Clear` moves the others
to the front: there are others, and less than one buffer size is free behind them. -/
def movesPartial (u : Int) (s : RecvState) : RecvStep → Bool
  | .finish =>
    match s.processing with
    | none => false
    | some (v, pl) => v == u && decide (0 < pl) && ((s.buffer v).onRead pl.toNat).2.compacts
  | _ => false

end RecvState

open RecvState

/-- Where a session stands in its stream of packets: `don` were consumed, `cur` dispatched since, `rest` not yet, and the
unread bytes are those of `cur` and the front `q` of those of `rest`. -/
structure InStream (u : Int) (s : RecvState) (don cur rest : List WirePacket) (q : List UInt8) : Prop where
  unread : (s.buffer u).unread = Framing.stream cur ++ q
  received : s.received u = Framing.stream (don ++ cur) ++ q
  dispatched : s.dispatchedFor u = (don ++ cur).map dispatchOf
  front : q <+: Framing.stream rest
  processing : ∀ pl, s.processing = some (u, pl) → pl = (Framing.stream cur).length
  idle : (∀ pl, s.processing ≠ some (u, pl)) → cur = []
  incomplete : s.receiving u = false → packetFraming.Incomplete q

/-- While no overflow was reported and the bytes received are those of the stream, the session stands somewhere in it. -/
structure ReassemblyInv (u : Int) (fs : List WirePacket) (s : RecvState) : Prop where
  buffers : BuffersInv s
  inStream : s.overflowed u = false → s.received u <+: Framing.stream fs →
    ∃ don cur rest q, fs = don ++ cur ++ rest ∧ InStream u s don cur rest q

section

variable {n : Nat} {u : Int} {fs : List WirePacket} {s t : RecvState} {don cur rest : List WirePacket} {q : List UInt8}

theorem dispatchedFor_dispatch (s : RecvState) (v : Int) (b : PacketBuffer) (slice : Slice) (next : Int) :
    (s.dispatch n (queueItem v b slice) next).dispatchedFor u =
      s.dispatchedFor u ++ if v = u then [(slice.bytes b.unread, slice.size)] else [] := by
  simp only [dispatchedFor, RecvState.dispatch, List.filter_append, List.map_append]
  by_cases h : v = u
  · simp [h, queueItem]
  · simp [h, queueItem]

/-- Two states look the same to a session. -/
structure SameFor (u : Int) (s t : RecvState) : Prop where
  buffer : t.buffer u = s.buffer u
  received : t.received u = s.received u
  overflowed : t.overflowed u = s.overflowed u
  dispatchedFor : t.dispatchedFor u = s.dispatchedFor u
  processing : ∀ pl, t.processing = some (u, pl) ↔ s.processing = some (u, pl)
  receiving : t.receiving u = s.receiving u

/-- What a step is for a session: nothing, or one of the steps of its own `RecvData`. -/
inductive SessionStep (n : Nat) (u : Int) (s t : RecvState) : RecvStep → Prop
  | same {l : RecvStep} : SameFor u s t → SessionStep n u s t l
  | addData {data : List UInt8} : s.processing = none → s.receiving u = false → t = s.addData u data →
      SessionStep n u s t (.addData u data)
  | noBuffer : s.processing = none → s.sessionBuffers u = none →
      t = { s with receiving := Function.update s.receiving u false } → SessionStep n u s t (.process u)
  | start : s.processing = none → t = { s with processing := some (u, 0) } → SessionStep n u s t (.process u)
  | dispatch {b : PacketBuffer} {k : Nat} : s.processing = some (u, (k : Int)) → s.receiving u = true →
      s.sessionBuffers u = some b → ¬packetFraming.Incomplete (b.unread.drop k) →
      t = s.dispatch n (queueItem u b ⟨k, packetFraming.size (b.unread.drop k)⟩)
        ((k + packetFraming.size (b.unread.drop k) : Nat) : Int) →
      SessionStep n u s t .dispatch
  | finish {b : PacketBuffer} {k : Nat} : s.processing = some (u, (k : Int)) → s.sessionBuffers u = some b → k ≤ b.dataSize →
      packetFraming.Incomplete (b.unread.drop k) → t = s.finish u b k → SessionStep n u s t .finish

theorem buffer_update_of_ne {v : Int} (hv : u ≠ v) {b : Option PacketBuffer}
    (ht : t.sessionBuffers = Function.update s.sessionBuffers v b) : t.buffer u = s.buffer u := by
  simp only [RecvState.buffer, ht, Function.update_of_ne hv]

/-- While no `ProcessPacket` runs but that of another session, none runs for this one. -/
theorem processing_ne_of_ne {v : Int} (hv : u ≠ v) (hs : s.processing = none ∨ ∃ pl, s.processing = some (v, pl)) (pl : Int) :
    s.processing ≠ some (u, pl) := by
  intro h
  rcases hs with hs | ⟨pl', hs⟩
  · cases hs.symm.trans h
  · exact hv (Prod.mk.inj (Option.some.inj (hs.symm.trans h))).1.symm

/-- Every step is one of these for every session. -/
theorem BuffersInv.sessionStep (hs : BuffersInv s) {l : RecvStep} (h : recvStep n s l = some t) (u : Int) :
    SessionStep n u s t l := by
  cases l with
  | addData v data =>
    obtain ⟨hp, hr, _, _, rfl⟩ := recvStep_addData h
    by_cases hv : u = v
    · subst hv
      exact .addData hp hr rfl
    · have ho : (s.addData v data).overflowed u = s.overflowed u := by
        simp only [RecvState.addData]
        split
        · rfl
        · exact Function.update_of_ne hv ..
      exact .same ⟨buffer_update_of_ne hv rfl, Function.update_of_ne hv .., ho, rfl, fun _ => Iff.rfl,
        Function.update_of_ne hv ..⟩
  | process v =>
    obtain ⟨hp, hr, ⟨hb, rfl⟩ | ⟨b, hb, rfl⟩⟩ := recvStep_process h
    · by_cases hv : u = v
      · subst hv
        exact .noBuffer hp hb rfl
      · exact .same ⟨rfl, rfl, rfl, rfl, fun _ => Iff.rfl, Function.update_of_ne hv ..⟩
    · by_cases hv : u = v
      · subst hv
        exact .start hp rfl
      · refine .same ⟨rfl, rfl, rfl, rfl, ?_, rfl⟩
        exact fun pl => iff_of_false (processing_ne_of_ne hv (Or.inr ⟨_, rfl⟩) pl) (processing_ne_of_ne hv (Or.inl hp) pl)
  | dispatch =>
    obtain ⟨v, b, k, size, hp, hb, _, hc, rfl, rfl⟩ := hs.dispatch h
    by_cases hv : u = v
    · subst hv
      exact .dispatch hp (hs.processing u k hp).1 hb hc rfl
    · refine .same ⟨rfl, rfl, rfl, ?_, ?_, rfl⟩
      · rw [dispatchedFor_dispatch, if_neg (Ne.symm hv), List.append_nil]
      · intro pl
        exact iff_of_false (processing_ne_of_ne hv (Or.inr ⟨_, rfl⟩) pl) (processing_ne_of_ne hv (Or.inr ⟨_, hp⟩) pl)
  | finish =>
    obtain ⟨v, b, k, hp, _, hb, hk, hi, rfl⟩ := hs.finish h
    by_cases hv : u = v
    · subst hv
      exact .finish hp hb hk hi rfl
    · refine .same ⟨buffer_update_of_ne hv rfl, rfl, rfl, rfl, ?_, Function.update_of_ne hv ..⟩
      exact fun pl => iff_of_false (processing_ne_of_ne hv (Or.inl rfl) pl) (processing_ne_of_ne hv (Or.inr ⟨_, hp⟩) pl)
  | pop w =>
    obtain ⟨_, item, tail, _, rfl⟩ := recvStep_pop h
    exact .same ⟨rfl, rfl, rfl, rfl, fun _ => Iff.rfl, rfl⟩
  | handle w =>
    obtain ⟨item, b, _, _, rfl⟩ := recvStep_handle h
    exact .same ⟨rfl, rfl, rfl, rfl, fun _ => Iff.rfl, rfl⟩
  | drop w =>
    obtain rfl := recvStep_drop h
    exact .same ⟨rfl, rfl, rfl, rfl, fun _ => Iff.rfl, rfl⟩

/-- A state that looks the same to the session. -/
theorem InStream.congr (h : InStream u s don cur rest q) (ht : SameFor u s t) : InStream u t don cur rest q where
  unread := by rw [ht.buffer, h.unread]
  received := by rw [ht.received, h.received]
  dispatched := by rw [ht.dispatchedFor, h.dispatched]
  front := h.front
  processing pl hpl := h.processing pl ((ht.processing pl).1 hpl)
  idle hi := h.idle (fun pl hpl => hi pl ((ht.processing pl).2 hpl))
  incomplete hi := h.incomplete (ht.receiving ▸ hi)

/-- The bytes of a chunk that fits go behind the unread ones. -/
theorem InStream.addData (h : InStream u s don cur rest q) (hs : BuffersInv s) (hp : s.processing = none)
    {data : List UInt8} (hfit : data.length ≤ (s.buffer u).freeSize) (hfront : q ++ data <+: Framing.stream rest) :
    InStream u (s.addData u data) don cur rest (q ++ data) where
  unread := by
    rw [buffer_of_some (addData_sessionBuffers s u data), PacketBuffer.unread_onWrite (hs.buffer_wellFormed u) hfit, h.unread, List.append_assoc]
  received := by
    rw [addData_received, h.received, List.append_assoc]
  dispatched := h.dispatched
  front := hfront
  processing pl hpl := by
    rw [show (s.addData u data).processing = s.processing from rfl, hp] at hpl
    cases hpl
  idle _ := h.idle (fun pl hpl => by rw [hp] at hpl; cases hpl)
  incomplete hi := by
    rw [addData_receiving] at hi
    cases hi

/-- A packet whole at the front of the bytes not yet processed is the next of the stream. -/
theorem InStream.dispatch (h : InStream u s don cur rest q) {b : PacketBuffer} (hb : s.sessionBuffers u = some b) {k : Nat}
    (hp : s.processing = some (u, (k : Int))) (hc : ¬packetFraming.Incomplete (b.unread.drop k)) {t : RecvState}
    (ht : t = s.dispatch n (queueItem u b ⟨k, packetFraming.size (b.unread.drop k)⟩)
      ((k + packetFraming.size (b.unread.drop k) : Nat) : Int)) (hr : s.receiving u = true) :
    ∃ f rest' q', rest = f :: rest' ∧ InStream u t don (cur ++ [f]) rest' q' := by
  have hbuf : s.buffer u = b := buffer_of_some hb
  have hk : k = (Framing.stream cur).length := by exact_mod_cast h.processing k hp
  have hunread := h.unread
  have hdrop : b.unread.drop k = q := by
    rw [← hbuf, hunread, hk, List.drop_left' rfl]
  rw [hdrop] at hc ht
  obtain ⟨f, rest', q', rfl, rfl, hq'⟩ := Framing.next_frame h.front hc
  rw [f.size_bytes_append] at ht
  have hbytes : Slice.bytes ⟨k, f.bytes.length⟩ b.unread = f.bytes := by
    simp only [Slice.bytes, Int.toNat_natCast]
    rw [hdrop, List.take_left' rfl]
  refine ⟨f, rest', q', rfl, ?_⟩
  subst ht
  constructor
  · rw [Framing.stream_append, Framing.stream_cons, Framing.stream_nil, List.append_nil, List.append_assoc]
    exact hunread
  · rw [← List.append_assoc, Framing.stream_append, Framing.stream_cons, Framing.stream_nil, List.append_nil,
      List.append_assoc]
    exact h.received
  · rw [dispatchedFor_dispatch, if_pos rfl, hbytes, h.dispatched]
    simp only [List.map_append, List.map_cons, List.map_nil, dispatchOf, List.append_assoc]
  · exact hq'
  · intro pl hpl
    obtain ⟨-, rfl⟩ := Prod.mk.inj (Option.some.inj hpl)
    rw [Framing.stream_append, Framing.stream_cons, Framing.stream_nil, List.append_nil, List.length_append, hk]
  · intro hi
    exact absurd rfl (hi _)
  · intro hi
    rw [show (s.dispatch n (queueItem u b ⟨k, f.bytes.length⟩) ((k + f.bytes.length : Nat) : Int)).receiving u =
      s.receiving u from rfl, hr] at hi
    cases hi

/-- At the end of `ProcessSessionBuffer` the packets dispatched are consumed, and the rest stays unread. -/
theorem InStream.finish (h : InStream u s don cur rest q) {b : PacketBuffer} (hb : s.sessionBuffers u = some b) {k : Nat}
    (hp : s.processing = some (u, (k : Int))) (hk : k ≤ b.dataSize)
    (hc : 0 < k → (b.onRead k).2.compacts = false) (hi : packetFraming.Incomplete (b.unread.drop k)) :
    InStream u (s.finish u b k) (don ++ cur) [] rest q := by
  have hbuf : s.buffer u = b := buffer_of_some hb
  have hkc : k = (Framing.stream cur).length := by exact_mod_cast h.processing k hp
  have hdrop : b.unread.drop k = q := by
    rw [← hbuf, h.unread, hkc, List.drop_left' rfl]
  constructor
  · rw [buffer_of_some (finish_sessionBuffers s u b k), unread_consume hk hc, hdrop, Framing.stream_nil, List.nil_append]
  · rw [List.append_nil]
    exact h.received
  · rw [List.append_nil]
    exact h.dispatched
  · exact h.front
  · intro pl hpl
    cases hpl
  · intro _
    rfl
  · intro _
    exact hdrop ▸ hi

theorem ReassemblyInv.init (u : Int) (fs : List WirePacket) : ReassemblyInv u fs RecvState.init where
  buffers := BuffersInv.init
  inStream _ _ := by
    refine ⟨[], [], fs, [], rfl, ?_⟩
    exact ⟨rfl, rfl, rfl, List.nil_prefix, nofun, fun _ => rfl, fun _ => Framing.incomplete_nil⟩

/-- What has come after the packets consumed and dispatched is the front of the others. -/
theorem InStream.front_of_received (h : InStream u s don cur rest q) {data : List UInt8}
    (hp : s.received u ++ data <+: Framing.stream (don ++ cur ++ rest)) : q ++ data <+: Framing.stream rest := by
  rw [h.received, Framing.stream_append (don ++ cur) rest, List.append_assoc] at hp
  exact (List.prefix_append_right_inj _).1 hp

/-- Every step that keeps the partial packets of the session keeps it in its stream. -/
theorem ReassemblyInv.step (hs : ReassemblyInv u fs s) {l : RecvStep} (hl : movesPartial u s l = false)
    (h : recvStep n s l = some t) : ReassemblyInv u fs t := by
  refine ⟨hs.buffers.step h, ?_⟩
  intro ho hpre
  cases hs.buffers.sessionStep h u with
  | same ht =>
    obtain ⟨don, cur, rest, q, rfl, hin⟩ := hs.inStream (ht.overflowed ▸ ho) (ht.received ▸ hpre)
    exact ⟨don, cur, rest, q, rfl, hin.congr ht⟩
  | @addData data hp _ ht =>
    subst ht
    rw [addData_received] at hpre
    rw [addData_overflowed, Bool.or_eq_false_iff, decide_eq_false_iff_not, Nat.not_lt] at ho
    obtain ⟨ho, hfit⟩ := ho
    obtain ⟨don, cur, rest, q, rfl, hin⟩ := hs.inStream ho ((List.prefix_append _ _).trans hpre)
    exact ⟨don, cur, rest, q ++ data, rfl, hin.addData hs.buffers hp hfit (hin.front_of_received hpre)⟩
  | noBuffer hp hb ht =>
    subst ht
    obtain ⟨don, cur, rest, q, rfl, hin⟩ := hs.inStream ho hpre
    refine ⟨don, cur, rest, q, rfl, hin.unread, hin.received, hin.dispatched, hin.front, hin.processing, hin.idle, ?_⟩
    intro _
    -- there is no buffer yet, so nothing is unread
    have hq := hin.unread
    rw [RecvState.buffer, hb, Option.getD_none, PacketBuffer.new_unread] at hq
    rw [(List.append_eq_nil_iff.1 hq.symm).2]
    exact Framing.incomplete_nil
  | start hp ht =>
    subst ht
    obtain ⟨don, cur, rest, q, rfl, hin⟩ := hs.inStream ho hpre
    have hidle := hin.idle (fun pl hpl => by rw [hp] at hpl; cases hpl)
    subst hidle
    refine ⟨don, [], rest, q, rfl, hin.unread, hin.received, hin.dispatched, hin.front, ?_, fun _ => rfl, hin.incomplete⟩
    intro pl hpl
    obtain ⟨-, rfl⟩ := Prod.mk.inj (Option.some.inj hpl)
    rfl
  | dispatch hp hr hb hc ht =>
    subst ht
    obtain ⟨don, cur, rest, q, rfl, hin⟩ := hs.inStream ho hpre
    obtain ⟨f, rest', q', rfl, hin'⟩ := hin.dispatch (n := n) hb hp hc rfl hr
    exact ⟨don, cur ++ [f], rest', q', by simp, hin'⟩
  | @finish b k hp hb hk hi ht =>
    subst ht
    obtain ⟨don, cur, rest, q, rfl, hin⟩ := hs.inStream ho hpre
    have hbuf : s.buffer u = b := buffer_of_some hb
    have hc : 0 < k → (b.onRead k).2.compacts = false := by
      intro h0
      simpa [movesPartial, hp, hbuf, h0] using hl
    exact ⟨don ++ cur, [], rest, q, by simp, hin.finish hb hp hk hc hi⟩

end

/-! ## Between two calls of `RecvData` -/

/-- A session between two `RecvData` that stands in its stream has had the packets dispatched that its bytes hold whole. -/
theorem InStream.dispatchedFor_eq {u : Int} {s : RecvState} {don cur rest : List WirePacket} {q : List UInt8}
    (h : InStream u s don cur rest q) (hs : BuffersInv s) (hr : s.receiving u = false) :
    s.dispatchedFor u = (Framing.within (don ++ cur ++ rest) (s.received u).length).map dispatchOf := by
  have hidle : cur = [] := by
    refine h.idle ?_
    intro pl hp
    rw [(hs.processing u pl hp).1] at hr
    cases hr
  subst hidle
  rw [h.dispatched, h.received, List.append_nil, List.length_append, Framing.within_append,
    Framing.within_of_incomplete h.front (h.incomplete hr), List.append_nil]

/-- In a run in which `Clear` moves no partial packet of a session whose bytes are those of a stream of packets, and no
overflow is reported for it, exactly the packets its bytes hold whole have been dispatched for it, in order and unaltered,
whenever no `RecvData` of it is under way. -/
theorem dispatched_eq_within (n : Nat) (u : Int) (fs : List WirePacket) {ls : List RecvStep} {s : RecvState}
    (hk : (recvSystem n).Meets (fun s l => movesPartial u s l = false) RecvState.init ls) (hrun : (recvSystem n).run RecvState.init ls = some s)
    (hstream : s.received u <+: Framing.stream fs) (ho : s.overflowed u = false) (hr : s.receiving u = false) :
    s.dispatchedFor u = (Framing.within fs (s.received u).length).map dispatchOf := by
  have hinv : ReassemblyInv u fs s :=
    (recvSystem n).meets_invariant (fun _ _ _ hl hs h => hs.step hl h) (ReassemblyInv.init u fs) hk hrun
  obtain ⟨don, cur, rest, q, rfl, hin⟩ := hinv.inStream ho hstream
  exact hin.dispatchedFor_eq hinv.buffers hr

/-- A packet with a payload of zeros. -/
def zeroPacket (payload : Nat) (h : sizeofPacketHeader + payload < 4294967296) : WirePacket where
  bytes := PacketHeader.toBytes { packetType := 1010, packetSize := sizeofPacketHeader + payload, seqNum := 1 } (0, 0) ++
    List.replicate payload 0
  header_le := by
    rw [List.length_append, PacketHeader.toBytes_length]
    exact Nat.le_add_right _ _
  size_eq := by
    show (PacketHeader.ofBytes _).packetSize = _
    rw [PacketHeader.ofBytes_toBytes _ _ _ (by simp) h (by simp), List.length_append, PacketHeader.toBytes_length,
      List.length_replicate]

theorem zeroPacket_length (payload : Nat) (h : sizeofPacketHeader + payload < 4294967296) :
    (zeroPacket payload h).bytes.length = 12 + payload := by
  rw [zeroPacket, List.length_append, PacketHeader.toBytes_length, List.length_replicate]
  rfl

/-- Two packets of 12 bytes, in a chunk of 17 bytes and one of 7. -/
def twoCut : List RecvStep :=
  let bytes := (zeroPacket 0 (by decide)).bytes
  [.addData 0 (bytes ++ bytes.take 5), .process 0, .dispatch, .finish, .addData 0 (bytes.drop 5), .process 0, .dispatch, .finish]

/-- `dispatched_eq_within` at two packets, the second cut after its fifth byte. -/
theorem dispatched_eq_within_twoCut : ∃ s, (recvSystem 1).run RecvState.init twoCut = some s ∧
    s.dispatchedFor 0 = [dispatchOf (zeroPacket 0 (by decide)), dispatchOf (zeroPacket 0 (by decide))] := by
  have hrun : ((recvSystem 1).run RecvState.init twoCut).map (fun s => (s.received 0, s.overflowed 0, s.receiving 0)) =
      some (Framing.stream [zeroPacket 0 (by decide), zeroPacket 0 (by decide)], false, false) := by decide
  obtain ⟨s, hs, hfields⟩ := Option.map_eq_some_iff.1 hrun
  simp only [Prod.mk.injEq] at hfields
  obtain ⟨hrec, ho, hr⟩ := hfields
  have h := dispatched_eq_within 1 0 [zeroPacket 0 (by decide), zeroPacket 0 (by decide)] (by decide) hs
    (by rw [hrec]) ho hr
  rw [hrec] at h
  exact ⟨s, hs, h⟩

/-! ## A partial packet is lost -/

/-- The labels of one `RecvData` that dispatches `k` packets. -/
def recvData (u : Int) (data : List UInt8) (k : Nat) : List RecvStep :=
  .addData u data :: .process u :: (List.replicate k .dispatch ++ [.finish])

/-- The loop of `ProcessPacket` over the packets it finds whole. -/
theorem run_dispatch {n : Nat} {u : Int} {b : PacketBuffer} (hlen : b.unread.length < 2147483648) (fs : List WirePacket)
    (p : List UInt8) {s : RecvState} (hb : s.sessionBuffers u = some b) {k : Nat} (hp : s.processing = some (u, (k : Int)))
    (hk : k ≤ b.unread.length) (hdrop : b.unread.drop k = Framing.stream fs ++ p) :
    ∃ t, (recvSystem n).run s (List.replicate fs.length .dispatch) = some t ∧ t.sessionBuffers = s.sessionBuffers ∧
      t.received = s.received ∧ t.overflowed = s.overflowed ∧
      t.processing = some (u, ((k + (Framing.stream fs).length : Nat) : Int)) ∧
      t.dispatchedFor u = s.dispatchedFor u ++ fs.map dispatchOf := by
  induction fs generalizing s k with
  | nil => exact ⟨s, rfl, rfl, rfl, rfl, hp, (List.append_nil _).symm⟩
  | cons f fs ih =>
    rw [Framing.stream_cons, List.append_assoc] at hdrop
    have hle : k + f.bytes.length ≤ b.unread.length := by
      have h := congrArg List.length hdrop
      rw [List.length_drop, List.length_append] at h
      omega
    have hstep : processPacketStep b.unread k = some (⟨k, f.bytes.length⟩, ((k + f.bytes.length : Nat) : Int)) := by
      rw [processPacketStep_eq hlen hk, hdrop, if_neg (f.not_incomplete _), f.size_bytes_append]
    have hrun : recvStep n s .dispatch =
        some (s.dispatch n (queueItem u b ⟨k, f.bytes.length⟩) ((k + f.bytes.length : Nat) : Int)) := by
      simp only [recvStep, hp, hb, Option.bind_some, hstep, Option.map_some]
    have hbytes : Slice.bytes ⟨k, f.bytes.length⟩ b.unread = f.bytes := by
      simp only [Slice.bytes, Int.toNat_natCast]
      rw [hdrop, List.take_left' rfl]
    obtain ⟨t, ht, hb', hr', ho', hp', hd'⟩ :=
      ih (s := s.dispatch n (queueItem u b ⟨k, f.bytes.length⟩) ((k + f.bytes.length : Nat) : Int)) hb rfl hle
        (by rw [← List.drop_drop, hdrop, List.drop_left' rfl])
    refine ⟨t, ?_, hb', hr', ho', ?_, ?_⟩
    · rw [List.length_cons, List.replicate_succ, Lts.run_step hrun, ht]
    · rw [hp', Framing.stream_cons, List.length_append, Nat.add_assoc]
    · rw [hd', dispatchedFor_dispatch, if_pos rfl, hbytes, List.append_assoc]
      rfl

/-- A `RecvData` whose chunk fits runs to its end: it dispatches the packets that are whole then, and takes them out of the
buffer. -/
theorem run_recvData {n : Nat} {u : Int} {s : RecvState} (hp : s.processing = none) (hr : s.receiving u = false)
    (hw : (s.buffer u).WellFormed) (hc : (s.buffer u).capacity = 655360) {data : List UInt8} (hne : data ≠ [])
    (hfit : data.length ≤ (s.buffer u).freeSize) (fs : List WirePacket) {p : List UInt8} (hi : packetFraming.Incomplete p)
    (hq : (s.buffer u).unread ++ data = Framing.stream fs ++ p) :
    ∃ t, (recvSystem n).run s (recvData u data fs.length) = some t ∧ t.processing = none ∧ t.receiving u = false ∧
      t.received u = s.received u ++ data ∧ t.overflowed u = s.overflowed u ∧
      t.buffer u = consume ((s.buffer u).onWrite data).2 (Framing.stream fs).length ∧
      t.dispatchedFor u = s.dispatchedFor u ++ fs.map dispatchOf := by
  have hunread : ((s.buffer u).onWrite data).2.unread = Framing.stream fs ++ p := by
    rw [PacketBuffer.unread_onWrite hw hfit, hq]
  have hlen : ((s.buffer u).onWrite data).2.unread.length < 2147483648 := by
    have hle := (hw.onWrite data).write_le
    rw [PacketBuffer.onWrite_capacity, hc] at hle
    rw [PacketBuffer.unread_length, PacketBuffer.dataSize]
    omega
  have hadd : recvStep n s (.addData u data) = some (s.addData u data) := by
    refine if_pos ⟨hp, hr, hne, Nat.le_trans hfit ?_⟩
    rw [PacketBuffer.freeSize, hc]
    omega
  have hproc : recvStep n (s.addData u data) (.process u) = some { s.addData u data with processing := some (u, 0) } := by
    simp only [recvStep, addData_sessionBuffers]
    exact if_pos ⟨hp, addData_receiving ..⟩
  obtain ⟨t, ht, hb', hr', ho', hp', hd'⟩ := run_dispatch (n := n) (b := ((s.buffer u).onWrite data).2) hlen fs p
    (s := { s.addData u data with processing := some (u, 0) }) (addData_sessionBuffers s u data) (k := 0) rfl
    (Nat.zero_le _) (by rw [List.drop_zero, hunread])
  have hb : t.sessionBuffers u = some ((s.buffer u).onWrite data).2 := by
    rw [hb']
    exact addData_sessionBuffers s u data
  rw [Nat.zero_add] at hp'
  have hfin : recvStep n t .finish =
      some (t.finish u ((s.buffer u).onWrite data).2 ((Framing.stream fs).length : Nat)) := by
    have hle : (Framing.stream fs).length ≤ ((s.buffer u).onWrite data).2.unread.length := by
      rw [hunread, List.length_append]
      omega
    have hnone := (processPacketStep_eq_none hlen hle).2 (by rw [hunread, List.drop_left' rfl]; exact hi)
    simp only [recvStep, hp', hb, Option.bind_some]
    exact if_pos hnone
  refine ⟨t.finish u ((s.buffer u).onWrite data).2 ((Framing.stream fs).length : Nat), ?_, rfl, finish_receiving .., ?_, ?_,
    buffer_of_some (finish_sessionBuffers ..), hd'⟩
  · rw [recvData, Lts.run_step hadd, Lts.run_step hproc, Lts.run_append_of ht, Lts.run_step hfin, Lts.run_nil]
  · show t.received u = _
    rw [hr']
    exact addData_received s u data
  · show t.overflowed u = _
    rw [ho']
    show (s.addData u data).overflowed u = _
    rw [addData_overflowed, decide_eq_false (Nat.not_lt.2 hfit), Bool.or_false]

/-- A chunk with one packet and the front of the next, and a chunk with the rest of that. -/
def cutInSecond (f g : WirePacket) (k : Nat) : List RecvStep :=
  recvData 0 (f.bytes ++ g.bytes.take k) 1 ++ recvData 0 (g.bytes.drop k) 0

/-- When the first chunk ends behind address 589824 with a partial packet, and the rest of that packet is less than a
header, the packet is never dispatched although all its bytes were received. -/
theorem cutInSecond_loses (f g : WirePacket) {k : Nat} (h0 : 0 < k) (hk : k < g.bytes.length)
    (hshort : g.bytes.length < k + sizeofPacketHeader) (hlo : 589824 < f.bytes.length + k)
    (hhi : f.bytes.length + k ≤ 655360) :
    ∃ s, (recvSystem 1).run RecvState.init (cutInSecond f g k) = some s ∧ s.received 0 = Framing.stream [f, g] ∧
      s.overflowed 0 = false ∧ s.receiving 0 = false ∧ s.dispatchedFor 0 = [dispatchOf f] := by
  have hf := f.length_pos
  have htake : (g.bytes.take k).length = k := List.length_take_of_le (Nat.le_of_lt hk)
  have hdrop : (g.bytes.drop k).length = g.bytes.length - k := List.length_drop
  have hlen : (f.bytes ++ g.bytes.take k).length = f.bytes.length + k := by rw [List.length_append, htake]
  unfold sizeofPacketHeader at hshort
  -- the first chunk: one packet is dispatched, and `Clear` moves the front of the other
  obtain ⟨s, hs, hp, hr, hrec, ho, hbuf, hd⟩ := @run_recvData 1 0 RecvState.init rfl rfl PacketBuffer.new_wellFormed rfl
    (f.bytes ++ g.bytes.take k) (by rw [← List.length_pos_iff_ne_nil]; omega) (by rw [hlen]; exact hhi) [f] (g.bytes.take k)
    (g.incomplete_of_prefix (List.take_prefix _ _) (by omega))
    (by rw [Framing.stream_cons, Framing.stream_nil, List.append_nil]; rfl)
  have hfit : (f.bytes ++ g.bytes.take k).length ≤ PacketBuffer.new.freeSize := by
    rw [hlen]
    exact hhi
  have hread : f.bytes.length ≤ (PacketBuffer.new.onWrite (f.bytes ++ g.bytes.take k)).2.dataSize := by
    rw [← PacketBuffer.unread_length, PacketBuffer.unread_onWrite PacketBuffer.new_wellFormed hfit]
    simp
  have hcompacts : ((PacketBuffer.new.onWrite (f.bytes ++ g.bytes.take k)).2.onRead f.bytes.length).2.compacts = true := by
    rw [PacketBuffer.onRead_of_le _ hread, PacketBuffer.onWrite_of_fits _ hfit, hlen]
    simp only [PacketBuffer.compacts, PacketBuffer.dataSize, PacketBuffer.freeSize, PacketBuffer.new, PacketBuffer.init,
      Bool.and_eq_true, bne_iff_ne, ne_eq, decide_eq_true_eq]
    omega
  have hbuf' : s.buffer 0 = ((PacketBuffer.new.onWrite (f.bytes ++ g.bytes.take k)).2.onRead f.bytes.length).2.clear := by
    rw [hbuf, Framing.stream_cons, Framing.stream_nil, List.append_nil]
    show consume (PacketBuffer.new.onWrite _).2 _ = _
    rw [consume_eq _ hread, if_neg (by omega)]
  obtain ⟨hr0, hw0⟩ := PacketBuffer.clear_of_compacts _ hcompacts
  rw [← hbuf'] at hr0 hw0
  have hcap : (s.buffer 0).capacity = 655360 := by
    rw [hbuf', PacketBuffer.clear_capacity, PacketBuffer.onRead_capacity, PacketBuffer.onWrite_capacity,
      PacketBuffer.new_capacity]
  have hun : (s.buffer 0).unread = [] := by
    rw [← List.length_eq_zero_iff, PacketBuffer.unread_length, PacketBuffer.dataSize, hr0, hw0]
  -- the second chunk: nothing of the packet is left before it
  obtain ⟨t, ht, -, hr', hrec', ho', -, hd'⟩ := @run_recvData 1 0 s hp hr
    ⟨by omega, by omega⟩ hcap (g.bytes.drop k) (by rw [← List.length_pos_iff_ne_nil]; omega)
    (by rw [PacketBuffer.freeSize, hcap]; omega) [] (g.bytes.drop k)
    (Or.inl (by show _ < sizeofPacketHeader; unfold sizeofPacketHeader; omega)) (by rw [hun]; rfl)
  refine ⟨t, ?_, ?_, ho'.trans ho, hr', ?_⟩
  · exact (Lts.run_append_of hs _).trans ht
  · rw [hrec', hrec]
    show [] ++ (f.bytes ++ g.bytes.take k) ++ g.bytes.drop k = _
    rw [List.nil_append, List.append_assoc, List.take_append_drop]
    simp
  · rw [hd', hd]
    rfl

/-- A packet can be lost without an overflow: one of 600000 bytes and the front of the next in one chunk, then the rest. -/
theorem not_every_stream_dispatched :
    ¬∀ (n : Nat) (u : Int) (fs : List WirePacket) (ls : List RecvStep) (s : RecvState),
      (recvSystem n).run RecvState.init ls = some s → s.received u <+: Framing.stream fs → s.overflowed u = false →
      s.receiving u = false → s.dispatchedFor u = (Framing.within fs (s.received u).length).map dispatchOf := by
  intro h
  have hlen := zeroPacket_length
  obtain ⟨s, hs, hrec, ho, hr, hd⟩ := cutInSecond_loses (zeroPacket 599988 (by decide)) (zeroPacket 0 (by decide)) (k := 5)
    (by omega) (by rw [hlen]; omega) (by rw [hlen]; unfold sizeofPacketHeader; omega) (by rw [hlen]; omega)
    (by rw [hlen]; omega)
  have heq := h 1 0 [zeroPacket 599988 (by decide), zeroPacket 0 (by decide)] _ s hs (by rw [hrec]) ho hr
  rw [hrec, Framing.within_stream, hd] at heq
  have hcount := congrArg List.length heq
  simp at hcount

end ProjectYJ
