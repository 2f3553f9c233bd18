import ProjectYJ.Packet

/-!
# Splitting received bytes into packets

`AsioSession::ProcessPacket`: a loop over the received bytes that dispatches a packet whenever the bytes left hold one whole.
The loop body is `processPacketStep`; the loop itself need not end (a header may declare a size of 0), so it is run for a
number of iterations.
-/

namespace ProjectYJ

/-- The arguments of one call of `Dispatch`: the offset of `&buffer[processLen]` and the `int32` length. -/
structure Slice where
  offset : Int
  size : Int
  deriving DecidableEq, Repr

/-- One iteration of the loop of `ProcessPacket(buffer, len)` from `processLen`: `none` at a `break`, otherwise the call of
`Dispatch` and the next `processLen`. The arithmetic is the source's: `dataSize` is a `uint32`, `len` and `processLen` are
`int32`, and the declared size is narrowed to `int32` for the call and added modulo `2 ^ 32`. -/
def processPacketStep (buffer : List UInt8) (processLen : Int) : Option (Slice × Int) :=
  let dataSize := toUInt32 (buffer.length - processLen)
  if dataSize < sizeofPacketHeader then none
  else
    let header := PacketHeader.ofBytes (buffer.drop processLen.toNat)
    if dataSize < header.packetSize then none
    else some (⟨processLen, toInt32 header.packetSize⟩, toInt32 (processLen + header.packetSize))

/-- The loop for at most `n` iterations from `processLen`: the calls of `Dispatch` in order, and the result of `ProcessPacket`
if the loop has ended. -/
def processPacketLoop (buffer : List UInt8) : Nat → Int → List Slice × Option Int
  | 0, _ => ([], none)
  | n + 1, processLen =>
    match processPacketStep buffer processLen with
    | none => ([], some processLen)
    | some (s, next) => (s :: (processPacketLoop buffer n next).1, (processPacketLoop buffer n next).2)

/-- The bytes a slice of a buffer names. -/
def Slice.bytes (s : Slice) (buffer : List UInt8) : List UInt8 :=
  (buffer.drop s.offset.toNat).take s.size.toNat

/-- `ProcessPacket(buffer, len)` ends after finitely many iterations. -/
def ProcessPacketEnds (buffer : List UInt8) : Prop :=
  ∃ n r, (processPacketLoop buffer n 0).2 = some r

/-- `ProcessPacket(buffer, len)` ends: it dispatches packets with these bytes, in this order, and returns this length. -/
def ProcessPacketReturns (buffer : List UInt8) (dispatched : List (List UInt8)) (processLen : Int) : Prop :=
  ∃ n slices, processPacketLoop buffer n 0 = (slices, some processLen) ∧ slices.map (·.bytes buffer) = dispatched

/-- A loop that has ended stays as it is however many more iterations it is allowed. -/
theorem processPacketLoop_of_le {buffer : List UInt8} {n m : Nat} (hle : n ≤ m) {processLen r : Int}
    (h : (processPacketLoop buffer n processLen).2 = some r) :
    processPacketLoop buffer m processLen = processPacketLoop buffer n processLen := by
  induction n generalizing m processLen with
  | zero => cases h
  | succ n ih =>
    obtain ⟨m, rfl⟩ := Nat.exists_eq_succ_of_ne_zero (show m ≠ 0 by omega)
    rw [processPacketLoop] at h
    rw [processPacketLoop, processPacketLoop]
    cases hstep : processPacketStep buffer processLen with
    | none => rfl
    | some sn =>
      rw [hstep] at h
      simp only [ih (Nat.le_of_succ_le_succ hle) h]

/-- What a call dispatches and returns is determined by its bytes. -/
theorem ProcessPacketReturns.unique {buffer : List UInt8} {d d' : List (List UInt8)} {r r' : Int}
    (h : ProcessPacketReturns buffer d r) (h' : ProcessPacketReturns buffer d' r') : d = d' ∧ r = r' := by
  obtain ⟨n, slices, hn, rfl⟩ := h
  obtain ⟨m, slices', hm, rfl⟩ := h'
  have heq : processPacketLoop buffer n 0 = processPacketLoop buffer m 0 := by
    rcases Nat.le_total n m with hle | hle
    · exact (processPacketLoop_of_le hle (congrArg Prod.snd hn)).symm
    · exact processPacketLoop_of_le hle (congrArg Prod.snd hm)
  rw [hn, hm] at heq
  obtain ⟨rfl, hr⟩ := Prod.mk.injEq .. ▸ heq
  exact ⟨rfl, Option.some.inj hr⟩

/-! ## The loop body, without machine arithmetic -/

section

variable {buffer : List UInt8} (hlen : buffer.length < 2147483648) {processLen : Nat}

include hlen

/-- Inside the buffer no conversion of the loop body changes a value. -/
theorem processPacketStep_eq (hp : processLen ≤ buffer.length) :
    processPacketStep buffer processLen =
      if packetFraming.Incomplete (buffer.drop processLen) then none
      else some (Slice.mk processLen (packetFraming.size (buffer.drop processLen)),
        ((processLen + packetFraming.size (buffer.drop processLen) : Nat) : Int)) := by
  have hd : toUInt32 ((buffer.length : Int) - (processLen : Int)) = (buffer.drop processLen).length := by
    rw [List.length_drop]
    unfold toUInt32
    omega
  have hsize : (PacketHeader.ofBytes (buffer.drop processLen)).packetSize =
      packetFraming.size (buffer.drop processLen) := rfl
  have hheader : sizeofPacketHeader = packetFraming.header := rfl
  unfold processPacketStep
  simp only [hd, Int.toNat_natCast, hsize, hheader]
  by_cases hi : packetFraming.Incomplete (buffer.drop processLen)
  · rw [if_pos hi]
    rcases hi with h1 | h2
    · exact if_pos h1
    · rw [if_pos h2, ite_self]
  · rw [if_neg hi]
    obtain ⟨h1, h2⟩ := not_or.1 hi
    rw [if_neg h1, if_neg h2]
    rw [List.length_drop] at h2
    have e1 : toInt32 ((packetFraming.size (buffer.drop processLen) : Nat) : Int) =
        packetFraming.size (buffer.drop processLen) := toInt32_of_lt (by omega)
    have e2 : toInt32 ((processLen : Int) + (packetFraming.size (buffer.drop processLen) : Nat)) =
        ((processLen + packetFraming.size (buffer.drop processLen) : Nat) : Int) := by
      rw [← Int.natCast_add]
      exact toInt32_of_lt (by omega)
    rw [e1, e2]

/-- The loop ends where the bytes left hold no whole packet. -/
theorem processPacketStep_eq_none (hp : processLen ≤ buffer.length) :
    processPacketStep buffer processLen = none ↔ packetFraming.Incomplete (buffer.drop processLen) := by
  rw [processPacketStep_eq hlen hp]
  split <;> simp_all

/-- What an iteration that dispatches does: the slice starts where the loop stands, its size is the one the header there
declares, it ends inside the buffer, and the loop goes on behind it. -/
theorem processPacketStep_eq_some (hp : processLen ≤ buffer.length) {s : Slice} {next : Int}
    (h : processPacketStep buffer processLen = some (s, next)) :
    ∃ size : Nat, s = ⟨processLen, size⟩ ∧ next = ((processLen + size : Nat) : Int) ∧ processLen + size ≤ buffer.length ∧
      sizeofPacketHeader ≤ (buffer.drop processLen).length ∧ size = packetFraming.size (buffer.drop processLen) := by
  rw [processPacketStep_eq hlen hp] at h
  split at h
  · cases h
  · rename_i hi
    simp only [Option.some.injEq, Prod.mk.injEq] at h
    obtain ⟨rfl, rfl⟩ := h
    simp only [Framing.Incomplete, not_or, Nat.not_lt, List.length_drop] at hi
    refine ⟨_, rfl, rfl, by omega, ?_, rfl⟩
    rw [List.length_drop]
    exact hi.1

/-- What a dispatched slice is: it starts at a position the loop reached, where a whole header is, has the size that header
declares, and ends inside the buffer. -/
theorem mem_processPacketLoop (n : Nat) (hp : processLen ≤ buffer.length) {s : Slice}
    (hs : s ∈ (processPacketLoop buffer n processLen).1) :
    ∃ off size : Nat, s = ⟨off, size⟩ ∧ off + size ≤ buffer.length ∧
      sizeofPacketHeader ≤ (buffer.drop off).length ∧ size = packetFraming.size (buffer.drop off) := by
  induction n generalizing processLen with
  | zero => cases hs
  | succ n ih =>
    rw [processPacketLoop] at hs
    cases hstep : processPacketStep buffer processLen with
    | none =>
      rw [hstep] at hs
      cases hs
    | some r =>
      obtain ⟨s', next⟩ := r
      obtain ⟨size, rfl, rfl, hle, hh, hsz⟩ := processPacketStep_eq_some hlen hp hstep
      rw [hstep] at hs
      rcases List.mem_cons.1 hs with rfl | hs
      · exact ⟨processLen, size, rfl, hle, hh, hsz⟩
      · exact ih hle hs

/-- Where a whole header declares the size 0 the loop comes back to where it stands. -/
theorem processPacketLoop_of_stalled (n : Nat) (hp : processLen ≤ buffer.length)
    (hst : packetFraming.Stalled (buffer.drop processLen)) : (processPacketLoop buffer n processLen).2 = none := by
  induction n with
  | zero => rfl
  | succ n ih =>
    rw [processPacketLoop, processPacketStep_eq hlen hp, if_neg hst.not_incomplete, hst.2]
    exact ih

/-- The loop ends exactly if dropping whole packets from the bytes left does not stall. -/
theorem processPacketLoop_ends_iff (hp : processLen ≤ buffer.length) :
    (∃ n r, (processPacketLoop buffer n processLen).2 = some r) ↔ ¬packetFraming.Stalls (buffer.drop processLen) := by
  constructor
  · rintro ⟨n, r, hr⟩
    induction n generalizing processLen with
    | zero => cases hr
    | succ n ih =>
      by_cases hi : packetFraming.Incomplete (buffer.drop processLen)
      · exact Framing.not_stalls_of_incomplete hi
      · have hle := Nat.not_lt.1 (mt Or.inr hi)
        have hhere : ¬packetFraming.Stalled (buffer.drop processLen) := by
          intro hst
          rw [processPacketLoop_of_stalled hlen (n + 1) hp hst] at hr
          cases hr
        rw [processPacketLoop, processPacketStep_eq hlen hp, if_neg hi] at hr
        rw [List.length_drop] at hle
        have hrest := ih (by omega) hr
        rw [← List.drop_drop] at hrest
        rw [Framing.stalls_iff_of_not_incomplete hi]
        exact not_or.2 ⟨hhere, hrest⟩
  · intro hns
    -- the bytes left are what the induction is on: they determine `processLen`
    have key : ∀ q, ¬packetFraming.Stalls q → ∀ processLen ≤ buffer.length, buffer.drop processLen = q →
        ∃ n r, (processPacketLoop buffer n processLen).2 = some r := by
      refine Framing.induction_of_not_stalls ?_ ?_
      · rintro q hi p hp rfl
        refine ⟨1, p, ?_⟩
        rw [processPacketLoop, (processPacketStep_eq_none hlen hp).2 hi]
      · rintro q hi ih p hp rfl
        have hle := Nat.not_lt.1 (mt Or.inr hi)
        rw [List.length_drop] at hle
        obtain ⟨n, r, hr⟩ := ih (p + packetFraming.size (buffer.drop p)) (by omega) List.drop_drop.symm
        refine ⟨n + 1, r, ?_⟩
        rw [processPacketLoop, processPacketStep_eq hlen hp, if_neg hi]
        exact hr
    exact key _ hns processLen hp rfl

end

/-! ## A stream of packets -/

/-- The slices of packets that lie end to end from an offset. -/
def slicesFrom : Nat → List WirePacket → List Slice
  | _, [] => []
  | off, f :: fs => ⟨off, f.bytes.length⟩ :: slicesFrom (off + f.bytes.length) fs

/-- The loop over packets put end to end, followed by bytes that hold no whole packet at their front: one slice for each
packet, in order, and the loop ends behind the last. -/
theorem processPacketLoop_stream (fs : List WirePacket) {front rest : List UInt8} (hrest : packetFraming.Incomplete rest)
    (hlen : (front ++ Framing.stream fs ++ rest).length < 2147483648) {n : Nat} (hn : fs.length < n) :
    processPacketLoop (front ++ Framing.stream fs ++ rest) n front.length =
      (slicesFrom front.length fs, some ((front.length + (Framing.stream fs).length : Nat) : Int)) := by
  induction fs generalizing front n with
  | nil =>
    obtain ⟨n, rfl⟩ := Nat.exists_eq_succ_of_ne_zero (Nat.ne_of_gt (Nat.lt_of_le_of_lt (Nat.zero_le _) hn))
    have hstep : processPacketStep (front ++ Framing.stream ([] : List WirePacket) ++ rest) front.length = none := by
      refine (processPacketStep_eq_none hlen ?_).2 ?_
      · simp
      · rwa [Framing.stream_nil, List.append_nil, List.drop_left' rfl]
    rw [processPacketLoop, hstep]
    rfl
  | cons f fs ih =>
    obtain ⟨n, rfl⟩ := Nat.exists_eq_succ_of_ne_zero (Nat.ne_of_gt (Nat.lt_of_le_of_lt (Nat.zero_le _) hn))
    have hdrop : (front ++ Framing.stream (f :: fs) ++ rest).drop front.length = f.bytes ++ (Framing.stream fs ++ rest) := by
      rw [List.append_assoc, List.drop_left' rfl, Framing.stream_cons, List.append_assoc]
    have happ : front ++ Framing.stream (f :: fs) ++ rest = (front ++ f.bytes) ++ Framing.stream fs ++ rest := by
      rw [Framing.stream_cons]
      simp only [List.append_assoc]
    have hstep : processPacketStep (front ++ Framing.stream (f :: fs) ++ rest) front.length =
        some (⟨front.length, f.bytes.length⟩, ((front.length + f.bytes.length : Nat) : Int)) := by
      rw [processPacketStep_eq hlen (by rw [List.append_assoc, List.length_append]; omega), hdrop,
        if_neg (f.not_incomplete _), f.size_bytes_append]
    have hrun := @ih (front ++ f.bytes) (happ ▸ hlen) n
      (by rw [List.length_cons] at hn; omega)
    rw [List.length_append] at hrun
    rw [processPacketLoop, hstep]
    simp only
    rw [happ, hrun, slicesFrom, Framing.stream_cons, List.length_append, Nat.add_assoc]

end ProjectYJ
