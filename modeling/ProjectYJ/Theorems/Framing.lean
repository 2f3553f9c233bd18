import ProjectYJ.ProcessPacket

/-!
# What one call of ProcessPacket does

For any bytes at all the call ends, unless dropping the packets they declare comes to a header of size 0
(`processPacket_ends_iff`). For a stream of packets the call dispatches those that are there whole, and it does not matter
where the stream was cut (`processPacket_stream`).
-/

namespace ProjectYJ

/-! ## Termination -/

/-- For every byte array and every `int32` length within it: the call ends exactly if no chain of whole packets of any other
declared size leads from the front of these bytes to a whole header that declares the size 0. -/
theorem processPacket_ends_iff (bytes : List UInt8) (len : Nat) (hlen : len ≤ bytes.length) (hint : len < 2147483648) :
    ProcessPacketEnds (bytes.take len) ↔ ¬packetFraming.Stalls (bytes.take len) := by
  have hl : (bytes.take len).length < 2147483648 := by
    rw [List.length_take_of_le hlen]
    exact hint
  exact processPacketLoop_ends_iff hl (Nat.zero_le _)

/-- `processPacket_ends_iff` at a header of size 0, twelve bytes into what has arrived. -/
theorem processPacket_ends_iff_zero_size :
    ProcessPacketEnds
        ([240, 3, 0, 0, 12, 0, 0, 0, 1, 0, 0, 0, 240, 3, 0, 0, 0, 0, 0, 0, 2, 0, 0, 0, 7].take 24) ↔
      ¬packetFraming.Stalls
        ([240, 3, 0, 0, 12, 0, 0, 0, 1, 0, 0, 0, 240, 3, 0, 0, 0, 0, 0, 0, 2, 0, 0, 0, 7].take 24) :=
  processPacket_ends_iff
    [240, 3, 0, 0, 12, 0, 0, 0, 1, 0, 0, 0, 240, 3, 0, 0, 0, 0, 0, 0, 2, 0, 0, 0, 7] 24 (by decide) (by decide)

/-- Twelve bytes with a registered type and the size 0: however many iterations the loop is allowed, it has not ended. -/
theorem processPacket_never_ends_zero_size :
    ¬ProcessPacketEnds ([240, 3, 0, 0, 0, 0, 0, 0, 1, 0, 0, 0].take 12) := by
  rintro ⟨n, r, hr⟩
  have hst : packetFraming.Stalled ([240, 3, 0, 0, 0, 0, 0, 0, 1, 0, 0, 0].drop 0) := by
    constructor <;> decide
  rw [List.take_of_length_le (by decide)] at hr
  rw [show (0 : Int) = ((0 : Nat) : Int) from rfl,
    processPacketLoop_of_stalled (by decide) n (Nat.zero_le _) hst] at hr
  cases hr

/-! ## A stream and its cuts -/

/-- The slices of packets that lie end to end hold the bytes of the packets. -/
theorem slicesFrom_bytes (ps : List WirePacket) (front rest : List UInt8) :
    (slicesFrom front.length ps).map (·.bytes (front ++ Framing.stream ps ++ rest)) = ps.map (·.bytes) := by
  induction ps generalizing front with
  | nil => rfl
  | cons p ps ih =>
    have happ : front ++ Framing.stream (p :: ps) ++ rest = (front ++ p.bytes) ++ Framing.stream ps ++ rest := by
      rw [Framing.stream_cons]
      simp only [List.append_assoc]
    have hhead : (⟨front.length, p.bytes.length⟩ : Slice).bytes (front ++ Framing.stream (p :: ps) ++ rest) = p.bytes := by
      rw [happ, List.append_assoc, List.append_assoc]
      simp only [Slice.bytes, Int.toNat_natCast, List.drop_left', List.take_left']
    rw [slicesFrom, List.map_cons, List.map_cons, hhead, happ, ← List.length_append, ih]

/-- Whole packets and behind them bytes that hold no whole packet at their front: the call dispatches exactly the packets, in
order, and returns their length. -/
theorem processPacketReturns_stream (ps : List WirePacket) {q : List UInt8} (hq : packetFraming.Incomplete q)
    (hlen : (Framing.stream ps ++ q).length < 2147483648) :
    ProcessPacketReturns (Framing.stream ps ++ q) (ps.map (·.bytes)) ((Framing.stream ps).length : Nat) := by
  have hrun := @processPacketLoop_stream ps [] q hq hlen (ps.length + 1) (Nat.lt_succ_self _)
  rw [List.nil_append, List.length_nil, Nat.zero_add] at hrun
  exact ⟨ps.length + 1, slicesFrom 0 ps, hrun, slicesFrom_bytes ps [] q⟩

/-- For all packets `ps` and every proper prefix `q` of one more, together shorter than `2 ^ 31`: the call dispatches exactly
`ps`, in order, and returns their length; and for every cut of these bytes into `a` and `b`, a call on `a` and then one on what
it left over followed by `b` dispatch together what the call on `a ++ b` dispatches, and leave over what it leaves. What a call
dispatches and returns is unique (`ProcessPacketReturns.unique`). -/
theorem processPacket_stream (ps : List WirePacket) (p : WirePacket) (q : List UInt8) (hq : q <+: p.bytes)
    (hproper : q ≠ p.bytes) (hlen : (Framing.stream ps ++ q).length < 2147483648) :
    ProcessPacketReturns (Framing.stream ps ++ q) (ps.map (·.bytes)) ((Framing.stream ps).length : Nat) ∧
      ∀ a b, a ++ b = Framing.stream ps ++ q →
        ∃ (da db : List (List UInt8)) (ra rb r : Nat), ProcessPacketReturns a da ra ∧
          ProcessPacketReturns (a.drop ra ++ b) db rb ∧ ProcessPacketReturns (a ++ b) (da ++ db) r ∧
          (a.drop ra ++ b).drop rb = (a ++ b).drop r := by
  have hlt : q.length < p.bytes.length := Nat.lt_of_le_of_ne hq.length_le fun h => hproper (hq.eq_of_length h)
  have hinc : packetFraming.Incomplete q := p.incomplete_of_prefix hq hlt
  refine ⟨processPacketReturns_stream ps hinc hlen, ?_⟩
  intro a b hab
  have hpre : a <+: Framing.stream (ps ++ [p]) := by
    have h : a <+: Framing.stream ps ++ q := hab ▸ List.prefix_append a b
    rw [Framing.stream_append]
    exact h.trans ((List.prefix_append_right_inj _).2 (by simpa using hq))
  obtain ⟨ps₁, ps₂, q₁, hsplit, rfl, -, hinc₁⟩ := Framing.exists_stream_append_incomplete hpre
  -- the last packet is not in `a`: it did not arrive whole
  obtain ⟨ps₃, rfl⟩ : ∃ ps₃, ps = ps₁ ++ ps₃ := by
    rcases List.eq_nil_or_concat ps₂ with rfl | ⟨l, x, rfl⟩
    · have h := congrArg List.length hab
      rw [List.append_nil] at hsplit
      rw [← hsplit, Framing.stream_append] at h
      simp only [Framing.stream_cons, Framing.stream_nil, List.append_nil, List.length_append] at h
      omega
    · rw [List.concat_eq_append, ← List.append_assoc] at hsplit
      exact ⟨l, (List.append_inj' hsplit rfl).1⟩
  have hrest : q₁ ++ b = Framing.stream ps₃ ++ q := by
    rw [Framing.stream_append, List.append_assoc, List.append_assoc] at hab
    exact List.append_cancel_left hab
  rw [Framing.stream_append, List.append_assoc, ← hrest, ← List.append_assoc] at hlen
  have hla : (Framing.stream ps₁ ++ q₁).length < 2147483648 := by
    rw [List.length_append] at hlen
    omega
  have hlb : (Framing.stream ps₃ ++ q).length < 2147483648 := by
    rw [← hrest]
    simp only [List.length_append] at hlen ⊢
    omega
  have hleft : (Framing.stream ps₁ ++ q₁).drop (Framing.stream ps₁).length = q₁ := List.drop_left' rfl
  refine ⟨ps₁.map (·.bytes), ps₃.map (·.bytes), (Framing.stream ps₁).length, (Framing.stream ps₃).length,
    (Framing.stream (ps₁ ++ ps₃)).length, processPacketReturns_stream ps₁ hinc₁ hla, ?_, ?_, ?_⟩
  · rw [hleft, hrest]
    exact processPacketReturns_stream ps₃ hinc hlb
  · rw [hab, ← List.map_append]
    refine processPacketReturns_stream (ps₁ ++ ps₃) hinc ?_
    rw [← hab]
    exact hlen
  · rw [hleft, hrest, hab, List.drop_left' rfl, List.drop_left' rfl]

/-- `processPacket_stream` at one packet of 12 bytes and the first byte of another. -/
theorem processPacket_stream_refresh :
    ProcessPacketReturns
        (Framing.stream [(⟨[240, 3, 0, 0, 12, 0, 0, 0, 1, 0, 0, 0], by decide, by decide⟩ : WirePacket)] ++ [240])
        [[240, 3, 0, 0, 12, 0, 0, 0, 1, 0, 0, 0]] (12 : Nat) :=
  (processPacket_stream [⟨[240, 3, 0, 0, 12, 0, 0, 0, 1, 0, 0, 0], by decide, by decide⟩]
    ⟨[240, 3, 0, 0, 12, 0, 0, 0, 1, 0, 0, 0], by decide, by decide⟩ [240] (by decide) (by decide) (by decide)).1

end ProjectYJ
