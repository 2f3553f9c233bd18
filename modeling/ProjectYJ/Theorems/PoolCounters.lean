import ProjectYJ.Lib.Lts
import ProjectYJ.PacketPool

/-!
# The counters of the packet pool

`Init`, `Pop`, `Push` and `Clear` in any order on the one pool. `Init` on an empty queue, `Pop` and `Clear` keep the counters
true. `Push` does not, in either of its branches: it counts a packet it puts back as one available packet less, and a packet
it frees as no packet less (`PoolUse.Truthful.not_push`).
-/

namespace ProjectYJ

/-- The calls. -/
inductive PoolCall where
  | init (poolSize : UInt32)
  | pop
  | push (packet : Nat)
  | clear

/-- The pool; and, for the statements only, the packets obtained from `Pop` and not pushed since, and whether a counter that was
0 was decremented. -/
structure PoolUse where
  pool : PacketPool
  out : List Nat
  wrapped : Bool

/-- The pool as the constructor leaves it; what `m_PoolSize` holds is not known. -/
def PoolUse.start (poolSize : UInt32) : PoolUse where
  pool := PacketPool.constructed poolSize.toNat
  out := []
  wrapped := false

/-- Whether a call decrements a counter that is 0: `Pop` from the queue and `Push` that puts back decrement `m_AvailableCount`,
every `Push` decrements `m_UseConut`. -/
def PacketPool.wraps (pool : PacketPool) : PoolCall → Bool
  | .pop => !pool.packetPool.isEmpty && pool.availableCount == 0
  | .push _ => (decide (pool.availableCount < pool.poolSize) && pool.availableCount == 0) || pool.useCount == 0
  | _ => false

/-- The step function: a packet is pushed that is out. -/
def poolStep (s : PoolUse) (call : PoolCall) : Option PoolUse :=
  let wrapped := s.wrapped || s.pool.wraps call
  match call with
  | .init poolSize => some { s with pool := s.pool.initFrom poolSize.toNat, wrapped := wrapped }
  | .pop => some { s with pool := s.pool.pop.2, out := s.out ++ [s.pool.pop.1], wrapped := wrapped }
  | .push packet =>
    if packet ∈ s.out then some { s with pool := s.pool.push packet, out := s.out.erase packet, wrapped := wrapped } else none
  | .clear => some { s with pool := s.pool.clear, wrapped := wrapped }

/-- The pool and its calls. -/
def poolSystem (poolSize : UInt32) : Lts PoolUse PoolCall where
  init := PoolUse.start poolSize
  step := poolStep

/-- The counters are true: the available packets are those in the queue, all packets are the available ones and those in use
(in the arithmetic of `size_t`), no counter has passed below 0, and the queue is no longer than the pool is to be. -/
structure PoolUse.Truthful (s : PoolUse) : Prop where
  available : s.pool.availableCount = s.pool.packetPool.length
  total : s.pool.totalCount = toSizeT ((s.pool.availableCount : Int) + s.pool.useCount)
  wrapped : s.wrapped = false
  size : s.pool.packetPool.length ≤ s.pool.poolSize

/-- A call that keeps the counters true: no `Push`, and `Init` only on an empty queue. -/
def keepsCounters (s : PoolUse) : PoolCall → Prop
  | .init _ => s.pool.packetPool = []
  | .push _ => False
  | _ => True

instance (s : PoolUse) (call : PoolCall) : Decidable (keepsCounters s call) := by
  cases call <;> unfold keepsCounters <;> infer_instance

/-- The counters are true, and the size is a `uint32`. -/
structure PoolUse.CountersInv (s : PoolUse) : Prop where
  truthful : s.Truthful
  poolSize : s.pool.poolSize < 4294967296

namespace PoolUse

variable {s : PoolUse}

/-- `Init` adds as many packets as the queue may hold. -/
theorem CountersInv.init (h : s.CountersInv) (poolSize : UInt32) {t : PoolUse}
    (ht : t = { s with pool := s.pool.initFrom poolSize.toNat, wrapped := s.wrapped || s.pool.wraps (.init poolSize) }) :
    (s.pool.packetPool = [] → t.CountersInv) ∧ (t.Truthful → s.pool.packetPool = []) := by
  have hn := poolSize.toNat_lt
  have hsize := h.truthful.size
  have hbound := h.poolSize
  have hpool : t.pool = PacketPool.addPackets poolSize.toNat { s.pool with poolSize := poolSize.toNat } := by
    rw [ht]
    rfl
  have ha : s.pool.availableCount = toSizeT (s.pool.availableCount : Int) := by
    rw [h.truthful.available]
    unfold toSizeT
    omega
  have hspec := PacketPool.addPackets_spec poolSize.toNat { s.pool with poolSize := poolSize.toNat }
  have htot0 : ({ s.pool with poolSize := poolSize.toNat } : PacketPool).totalCount = _ := h.truthful.total
  have hcount := PacketPool.addPackets_counters poolSize.toNat htot0 ha
  rw [← hpool] at hspec hcount
  obtain ⟨hlen, -, hp⟩ := hspec
  obtain ⟨htot, hav, huse⟩ := hcount
  simp only at hlen hp huse
  constructor
  · intro hnil
    have h0 : s.pool.availableCount = 0 := by rw [h.truthful.available, hnil, List.length_nil]
    rw [hnil, List.length_nil, Nat.zero_add] at hlen
    rw [h0] at hav htot
    unfold toSizeT at hav htot
    refine ⟨⟨?_, ?_, ?_, ?_⟩, ?_⟩
    · omega
    · unfold toSizeT
      omega
    · rw [ht]
      show (s.wrapped || false) = false
      rw [h.truthful.wrapped]
      rfl
    · omega
    · omega
  · intro hq
    have hle := hq.size
    rw [hlen, hp] at hle
    exact List.eq_nil_of_length_eq_zero (by omega)

/-- `Pop` counts one packet from available to in use, or one more packet in use. -/
theorem CountersInv.pop (h : s.CountersInv) :
    CountersInv { s with pool := s.pool.pop.2, out := s.out ++ [s.pool.pop.1], wrapped := s.wrapped || s.pool.wraps .pop } := by
  have hav := h.truthful.available
  have htot := h.truthful.total
  have hsize := h.truthful.size
  have hbound := h.poolSize
  have hw : (s.wrapped || s.pool.wraps .pop) = false := by
    rw [h.truthful.wrapped, PacketPool.wraps, hav]
    cases s.pool.packetPool <;> rfl
  cases hq : s.pool.packetPool with
  | nil =>
    rw [PacketPool.pop_of_nil hq]
    refine ⟨⟨hav, ?_, hw, hsize⟩, hbound⟩
    show PacketPool.fetchAdd s.pool.totalCount = toSizeT (s.pool.availableCount + PacketPool.fetchAdd s.pool.useCount)
    rw [htot]
    unfold PacketPool.fetchAdd toSizeT
    omega
  | cons packet rest =>
    rw [hq, List.length_cons] at hav hsize
    rw [PacketPool.pop_of_cons hq]
    refine ⟨⟨?_, ?_, hw, ?_⟩, hbound⟩
    · show PacketPool.fetchSub s.pool.availableCount = rest.length
      rw [hav]
      unfold PacketPool.fetchSub toSizeT
      omega
    · show s.pool.totalCount =
        toSizeT (PacketPool.fetchSub s.pool.availableCount + PacketPool.fetchAdd s.pool.useCount)
      rw [htot]
      unfold PacketPool.fetchAdd PacketPool.fetchSub toSizeT
      omega
    · show rest.length ≤ s.pool.poolSize
      omega

/-- After `Clear` there is no packet, and none is counted. -/
theorem CountersInv.clear (h : s.CountersInv) :
    CountersInv { s with pool := s.pool.clear, wrapped := s.wrapped || s.pool.wraps .clear } where
  truthful :=
    { available := rfl
      total := rfl
      wrapped := by
        show (s.wrapped || false) = false
        rw [h.truthful.wrapped]
        rfl
      size := Nat.zero_le _ }
  poolSize := h.poolSize

/-- No `Push` leaves the counters true: what it puts back is counted as taken, and what it frees is still counted. -/
theorem Truthful.not_push (h : s.CountersInv) (packet : Nat) {t : PoolUse} (ht : t.pool = s.pool.push packet) :
    ¬t.Truthful := by
  intro hq
  have hav := h.truthful.available
  have htot := h.truthful.total
  have hsize := h.truthful.size
  have hbound := h.poolSize
  have hav' := hq.available
  have htot' := hq.total
  rw [ht] at hav' htot'
  unfold PacketPool.push at hav' htot'
  by_cases hlt : s.pool.availableCount < s.pool.poolSize
  · rw [if_pos hlt] at hav'
    have hlen : PacketPool.fetchSub s.pool.availableCount = (s.pool.packetPool ++ [packet]).length := hav'
    rw [List.length_append, List.length_singleton] at hlen
    unfold PacketPool.fetchSub toSizeT at hlen
    omega
  · rw [if_neg hlt] at htot'
    have hsum : s.pool.totalCount = toSizeT (s.pool.availableCount + PacketPool.fetchSub s.pool.useCount) := htot'
    rw [htot] at hsum
    unfold PacketPool.fetchSub toSizeT at hsum
    omega

end PoolUse

/-- A call keeps the counters true exactly when it meets the condition. -/
theorem poolStep_truthful {s t : PoolUse} {call : PoolCall} (h : s.CountersInv) (hs : poolStep s call = some t) :
    (keepsCounters s call → t.CountersInv) ∧ (t.Truthful → keepsCounters s call) := by
  cases call with
  | init poolSize => exact h.init poolSize (Option.some.inj hs).symm
  | pop =>
    obtain rfl := Option.some.inj hs
    exact ⟨fun _ => h.pop, fun _ => trivial⟩
  | push packet =>
    simp only [poolStep, Option.ite_none_right_eq_some, Option.some.injEq] at hs
    obtain ⟨-, rfl⟩ := hs
    exact ⟨nofun, fun hq => PoolUse.Truthful.not_push h packet rfl hq⟩
  | clear =>
    obtain rfl := Option.some.inj hs
    exact ⟨fun _ => h.clear, fun _ => trivial⟩

/-- In a run of calls the counters are true throughout exactly when it has no `Push`, and `Init` finds the queue empty. -/
theorem truthful_iff {poolSize : UInt32} {calls : List PoolCall} {t : PoolUse}
    (hr : (poolSystem poolSize).run (PoolUse.start poolSize) calls = some t) :
    (∀ front s, front <+: calls → (poolSystem poolSize).run (PoolUse.start poolSize) front = some s → s.Truthful) ↔
      (poolSystem poolSize).Meets keepsCounters (PoolUse.start poolSize) calls := by
  have h0 : (PoolUse.start poolSize).CountersInv := ⟨⟨rfl, rfl, rfl, Nat.zero_le _⟩, poolSize.toNat_lt⟩
  exact (poolSystem poolSize).reached_iff_meets (fun _ h => h.truthful) (fun _ _ _ h _ hs => poolStep_truthful h hs) h0
    ((poolSystem poolSize).meets_true _ _) hr

/-- The rule at `Init(2)`, a `Pop` of each packet, one more, and `Clear`. -/
theorem truthful_iff_popAll :
    (∀ front s, front <+: [.init 2, .pop, .pop, .pop, .clear] →
        (poolSystem 0).run (PoolUse.start 0) front = some s → s.Truthful) ↔
      (poolSystem 0).Meets keepsCounters (PoolUse.start 0) [.init 2, .pop, .pop, .pop, .clear] :=
  truthful_iff rfl

/-- `Init(2)`, a `Pop` and the `Push` of its packet: two packets are free, and none is counted; one more `Pop`, and the count of
available packets has wrapped around. -/
theorem push_miscounts :
    (∃ t, (poolSystem 0).run (PoolUse.start 0) [.init 2, .pop, .push 0] = some t ∧
        t.pool.packetPool = [1, 0] ∧ t.pool.availableCount = 0 ∧ ¬t.Truthful) ∧
      ∃ t, (poolSystem 0).run (PoolUse.start 0) [.init 2, .pop, .push 0, .pop] = some t ∧
        t.pool.availableCount = 18446744073709551615 ∧ ¬t.Truthful := by
  constructor
  · exact ⟨_, rfl, by decide, by decide, fun hq => absurd hq.available (by decide)⟩
  · exact ⟨_, rfl, by decide, fun hq => absurd hq.wrapped (by decide)⟩

end ProjectYJ
