import ProjectYJ.ProcessPacket

/-!
# ProcessPacket stays inside its buffer

Whatever the bytes are, and however often the loop of `ProcessPacket` has run: `processLen` lies inside the buffer, a header is
only read where a whole one is, and the slices handed to `Dispatch` lie end to end from the front of the buffer to `processLen`,
each with the size its header declares. The loop condition bounds the declared size by the bytes left, so that neither the
narrowing to `int32` nor the addition to `processLen` wraps around (`processPacketStep_eq_some`).
-/

namespace ProjectYJ

/-- The `processLen` of the loop after `n` iterations, or where it ended before. -/
def processLenAfter (buffer : List UInt8) : Nat → Int → Int
  | 0, processLen => processLen
  | n + 1, processLen =>
    match processPacketStep buffer processLen with
    | none => processLen
    | some (_, next) => processLenAfter buffer n next

/-- Slices that lie end to end between two offsets. -/
def EndToEnd : Int → List Slice → Int → Prop
  | start, [], stop => start = stop
  | start, s :: slices, stop => s.offset = start ∧ EndToEnd (s.offset + s.size) slices stop

/-- A slice handed to `Dispatch` lies in the buffer, and its size is the `uint32` its header declares. -/
structure Slice.Within (s : Slice) (buffer : List UInt8) : Prop where
  offset_nonneg : 0 ≤ s.offset
  size_eq : s.size = (PacketHeader.ofBytes (buffer.drop s.offset.toNat)).packetSize
  stop_le : s.offset + s.size ≤ buffer.length

/-- What `n` iterations of the loop do without leaving the buffer. -/
structure StaysInside (buffer : List UInt8) (n : Nat) : Prop where
  processLen_nonneg : 0 ≤ processLenAfter buffer n 0
  processLen_le : processLenAfter buffer n 0 ≤ buffer.length
  result : ∀ r, (processPacketLoop buffer n 0).2 = some r → r = processLenAfter buffer n 0
  header : sizeofPacketHeader ≤ toUInt32 (buffer.length - processLenAfter buffer n 0) →
    processLenAfter buffer n 0 + sizeofPacketHeader ≤ buffer.length
  slices : ∀ s ∈ (processPacketLoop buffer n 0).1, s.Within buffer
  endToEnd : EndToEnd 0 (processPacketLoop buffer n 0).1 (processLenAfter buffer n 0)
  disjoint : (processPacketLoop buffer n 0).1.Pairwise fun s s' => s.offset + s.size ≤ s'.offset

/-! ## Slices that lie end to end -/

/-- Slices of sizes that are not negative, end to end from some offset on, start no earlier. -/
theorem EndToEnd.start_le {start stop : Int} {slices : List Slice} (h : EndToEnd start slices stop)
    (hsize : ∀ s ∈ slices, 0 ≤ s.size) : ∀ s ∈ slices, start ≤ s.offset := by
  induction slices generalizing start with
  | nil => exact fun s hs => absurd hs List.not_mem_nil
  | cons s slices ih =>
    obtain ⟨rfl, hrest⟩ := h
    obtain ⟨hs, hslices⟩ := List.forall_mem_cons.1 hsize
    refine List.forall_mem_cons.2 ⟨Int.le_refl _, fun s' hs' => ?_⟩
    have hle := ih hrest hslices s' hs'
    omega

/-- Slices that lie end to end do not overlap. -/
theorem EndToEnd.disjoint {start stop : Int} {slices : List Slice} (h : EndToEnd start slices stop)
    (hsize : ∀ s ∈ slices, 0 ≤ s.size) : slices.Pairwise fun s s' => s.offset + s.size ≤ s'.offset := by
  induction slices generalizing start with
  | nil => exact List.Pairwise.nil
  | cons s slices ih =>
    obtain ⟨-, hrest⟩ := h
    obtain ⟨-, hslices⟩ := List.forall_mem_cons.1 hsize
    exact List.pairwise_cons.2 ⟨hrest.start_le hslices, ih hrest hslices⟩

/-! ## The loop -/

section

variable {buffer : List UInt8} (hlen : buffer.length < 2147483648) {processLen : Nat}

include hlen

/-- The loop started inside the buffer stays there. -/
theorem processLenAfter_le (n : Nat) (hp : processLen ≤ buffer.length) :
    ∃ k : Nat, processLenAfter buffer n processLen = k ∧ k ≤ buffer.length := by
  induction n generalizing processLen with
  | zero => exact ⟨processLen, rfl, hp⟩
  | succ n ih =>
    rw [processLenAfter]
    cases hstep : processPacketStep buffer processLen with
    | none => exact ⟨processLen, rfl, hp⟩
    | some r =>
      obtain ⟨s, next⟩ := r
      obtain ⟨size, -, rfl, hle, -, -⟩ := processPacketStep_eq_some hlen hp hstep
      exact ih hle

/-- The loop returns the `processLen` it ends with, and its slices lie end to end up to there. -/
theorem processPacketLoop_endToEnd (n : Nat) (hp : processLen ≤ buffer.length) :
    EndToEnd processLen (processPacketLoop buffer n processLen).1 (processLenAfter buffer n processLen) ∧
      ∀ r, (processPacketLoop buffer n processLen).2 = some r → r = processLenAfter buffer n processLen := by
  induction n generalizing processLen with
  | zero => exact ⟨rfl, fun r hr => by cases hr⟩
  | succ n ih =>
    rw [processPacketLoop, processLenAfter]
    cases hstep : processPacketStep buffer processLen with
    | none => exact ⟨rfl, fun r hr => (Option.some.inj hr).symm⟩
    | some r =>
      obtain ⟨s, next⟩ := r
      obtain ⟨size, rfl, rfl, hle, -, -⟩ := processPacketStep_eq_some hlen hp hstep
      obtain ⟨hend, hres⟩ := ih hle
      refine ⟨⟨rfl, ?_⟩, hres⟩
      rw [Int.natCast_add] at hend
      exact hend

end

/-- For every byte array shorter than `2 ^ 31`, whatever it holds, and every number of iterations: the loop of `ProcessPacket`
stays inside the array. -/
theorem processPacket_staysInside (buffer : List UInt8) (hlen : buffer.length < 2147483648) (n : Nat) :
    StaysInside buffer n := by
  have h0 : (0 : Nat) ≤ buffer.length := Nat.zero_le _
  obtain ⟨k, hk, hkle⟩ := processLenAfter_le hlen n h0
  obtain ⟨hend, hres⟩ := processPacketLoop_endToEnd hlen n h0
  rw [show ((0 : Nat) : Int) = 0 from rfl] at hk hend hres
  have hslices : ∀ s ∈ (processPacketLoop buffer n 0).1, s.Within buffer := by
    intro s hs
    obtain ⟨off, size, rfl, hle, -, hsize⟩ := mem_processPacketLoop hlen n h0 hs
    refine ⟨Int.natCast_nonneg off, congrArg Nat.cast hsize, ?_⟩
    rw [← Int.natCast_add]
    exact Int.ofNat_le.2 hle
  have hsize : ∀ s ∈ (processPacketLoop buffer n 0).1, 0 ≤ s.size := by
    intro s hs
    rw [(hslices s hs).size_eq]
    exact Int.natCast_nonneg _
  refine ⟨by omega, by omega, hres, ?_, hslices, hend, hend.disjoint hsize⟩
  -- the bytes left are counted in `uint32`, which changes nothing inside the array
  intro hheader
  rw [hk] at hheader ⊢
  unfold toUInt32 at hheader
  omega

/-- `processPacket_staysInside` at a packet whose header declares 4 bytes, and behind it one that declares `2 ^ 32 - 1`. -/
theorem processPacket_staysInside_malformed :
    StaysInside [240, 3, 0, 0, 4, 0, 0, 0, 255, 255, 255, 255, 1, 0, 0, 0, 0, 0, 0, 0] 2 :=
  processPacket_staysInside [240, 3, 0, 0, 4, 0, 0, 0, 255, 255, 255, 255, 1, 0, 0, 0, 0, 0, 0, 0] (by decide) 2

end ProjectYJ
