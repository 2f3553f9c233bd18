import ProjectYJ.Lib.MachineInt
import Mathlib.Data.List.Nodup

/-!
# The packet pool

`PacketPool` of `Pool.h`: a concurrent queue of packets and three counters. A packet is named by a number, the next unused one
for each `make_shared<Packet>`. The counters are `size_t` atomics, so a `fetch_sub` below zero wraps around.
-/

namespace ProjectYJ

/-- `PacketPool`: the free queue (`m_PacketPool`), `m_PoolSize`, `m_UseConut`, `m_TotalCount` and `m_AvailableCount`; and
how many packets were made. -/
structure PacketPool where
  packetPool : List Nat
  poolSize : Nat
  useCount : Nat
  totalCount : Nat
  availableCount : Nat
  created : Nat
  deriving DecidableEq, Repr

namespace PacketPool

/-- `fetch_add(1)` on a `size_t`. -/
def fetchAdd (counter : Nat) : Nat := toSizeT ((counter : Int) + 1)

/-- `fetch_sub(1)` on a `size_t`. -/
def fetchSub (counter : Nat) : Nat := toSizeT ((counter : Int) - 1)

/-- One turn of the loop of `Init`. -/
def addNew (pool : PacketPool) : PacketPool :=
  { pool with
    packetPool := pool.packetPool ++ [pool.created]
    totalCount := fetchAdd pool.totalCount
    availableCount := fetchAdd pool.availableCount
    created := pool.created + 1 }

/-- The loop of `Init`. -/
def addPackets : Nat → PacketPool → PacketPool
  | 0, pool => pool
  | n + 1, pool => addPackets n pool.addNew

/-- A pool as the constructor leaves it. `m_PoolSize` has no initializer. -/
def constructed (poolSize : Nat) : PacketPool where
  packetPool := []
  poolSize := poolSize
  useCount := 0
  totalCount := 0
  availableCount := 0
  created := 0

/-- `Init`, on a pool in any state. -/
def initFrom (pool : PacketPool) (poolSize : Nat) : PacketPool :=
  addPackets poolSize { pool with poolSize := poolSize }

/-- `Init` on a pool as the constructor leaves it. -/
def init (poolSize : Nat) : PacketPool := (constructed poolSize).initFrom poolSize

/-- `Pop`: the first packet of the queue, or a new one when the queue is empty. -/
def pop (pool : PacketPool) : Nat × PacketPool :=
  match pool.packetPool with
  | packet :: rest =>
    (packet, { pool with
      packetPool := rest
      useCount := fetchAdd pool.useCount
      availableCount := fetchSub pool.availableCount })
  | [] =>
    (pool.created, { pool with
      totalCount := fetchAdd pool.totalCount
      useCount := fetchAdd pool.useCount
      created := pool.created + 1 })

/-- `Push`: the packet goes back to the queue when fewer than `m_PoolSize` are counted available, and is freed otherwise. The
count of available packets is decremented here, as in `Pop`. -/
def push (pool : PacketPool) (packet : Nat) : PacketPool :=
  if pool.availableCount < pool.poolSize then
    { pool with
      packetPool := pool.packetPool ++ [packet]
      availableCount := fetchSub pool.availableCount
      useCount := fetchSub pool.useCount }
  else { pool with useCount := fetchSub pool.useCount }

/-- `Clear`: the queue is emptied and the counters are set to 0. Packets that are out stay out. -/
def clear (pool : PacketPool) : PacketPool :=
  { pool with packetPool := [], totalCount := 0, useCount := 0, availableCount := 0 }

/-- The free packets are distinct and were made by the pool. -/
structure WellFormed (pool : PacketPool) : Prop where
  nodup : pool.packetPool.Nodup
  lt_created : ∀ packet ∈ pool.packetPool, packet < pool.created

theorem WellFormed.addNew {pool : PacketPool} (h : pool.WellFormed) : pool.addNew.WellFormed where
  nodup := by
    show (pool.packetPool ++ [pool.created]).Nodup
    rw [List.nodup_append_comm, List.singleton_append, List.nodup_cons]
    exact ⟨fun hmem => Nat.lt_irrefl _ (h.lt_created _ hmem), h.nodup⟩
  lt_created packet hp := by
    show packet < pool.created + 1
    rcases List.mem_append.1 hp with hp | hp
    · exact Nat.lt_succ_of_lt (h.lt_created packet hp)
    · rw [List.mem_singleton.1 hp]
      exact Nat.lt_succ_self _

theorem WellFormed.addPackets {pool : PacketPool} (h : pool.WellFormed) (n : Nat) : (addPackets n pool).WellFormed := by
  induction n generalizing pool with
  | zero => exact h
  | succ n ih => exact ih h.addNew

theorem init_wellFormed (poolSize : Nat) : (init poolSize).WellFormed :=
  WellFormed.addPackets ⟨List.nodup_nil, fun _ h => absurd h List.not_mem_nil⟩ poolSize

theorem pop_of_nil {pool : PacketPool} (h : pool.packetPool = []) :
    pool.pop = (pool.created, { pool with
      totalCount := fetchAdd pool.totalCount
      useCount := fetchAdd pool.useCount
      created := pool.created + 1 }) := by
  simp only [pop, h]

theorem pop_of_cons {pool : PacketPool} {packet : Nat} {rest : List Nat} (h : pool.packetPool = packet :: rest) :
    pool.pop = (packet, { pool with
      packetPool := rest
      useCount := fetchAdd pool.useCount
      availableCount := fetchSub pool.availableCount }) := by
  simp only [pop, h]

/-- `Pop` either takes the first free packet or makes a new one. -/
theorem pop_cases (pool : PacketPool) :
    (∃ rest, pool.packetPool = pool.pop.1 :: rest ∧ pool.pop.2.packetPool = rest ∧ pool.pop.2.created = pool.created) ∨
      (pool.packetPool = [] ∧ pool.pop.1 = pool.created ∧ pool.pop.2.packetPool = [] ∧
        pool.pop.2.created = pool.created + 1) := by
  unfold pop
  split
  · rename_i packet rest hq
    exact Or.inl ⟨rest, hq, rfl, rfl⟩
  · rename_i hq
    exact Or.inr ⟨hq, rfl, hq, rfl⟩

/-- `Push` puts the packet behind the free ones or leaves them. -/
theorem push_cases (pool : PacketPool) (packet : Nat) :
    (pool.push packet).created = pool.created ∧
      ((pool.push packet).packetPool = pool.packetPool ++ [packet] ∨ (pool.push packet).packetPool = pool.packetPool) := by
  unfold push
  split
  · exact ⟨rfl, Or.inl rfl⟩
  · exact ⟨rfl, Or.inr rfl⟩

/-! ## The counters -/

@[simp] theorem fetchAdd_toSizeT (x : Int) : fetchAdd (toSizeT x) = toSizeT (x + 1) := by
  unfold fetchAdd toSizeT
  omega

@[simp] theorem fetchSub_toSizeT (x : Int) : fetchSub (toSizeT x) = toSizeT (x - 1) := by
  unfold fetchSub toSizeT
  omega

/-- The counters say how many packets were made, and how many `Pop`s and free packets there are, modulo `2 ^ 64`. -/
structure Counts (pool : PacketPool) (use available : Int) : Prop where
  useCount : pool.useCount = toSizeT use
  totalCount : pool.totalCount = toSizeT pool.created
  availableCount : pool.availableCount = toSizeT available

theorem Counts.addPackets {pool : PacketPool} {use available : Int} (h : pool.Counts use available) (n : Nat) :
    (addPackets n pool).Counts use (available + n) := by
  induction n generalizing pool available with
  | zero => simpa [PacketPool.addPackets] using h
  | succ n ih =>
    have hnew : pool.addNew.Counts use (available + 1) :=
      ⟨h.useCount, by simp [addNew, h.totalCount], by simp [addNew, h.availableCount]⟩
    have hi := ih hnew
    rwa [show available + 1 + (n : Int) = available + ((n + 1 : Nat) : Int) by omega] at hi

/-- What the loop of `Init` adds, besides counting. -/
theorem addPackets_spec (n : Nat) (pool : PacketPool) :
    (addPackets n pool).packetPool.length = pool.packetPool.length + n ∧ (addPackets n pool).created = pool.created + n ∧
      (addPackets n pool).poolSize = pool.poolSize := by
  induction n generalizing pool with
  | zero => exact ⟨rfl, rfl, rfl⟩
  | succ n ih =>
    obtain ⟨hl, hc, hp⟩ := ih pool.addNew
    refine ⟨hl.trans ?_, hc.trans ?_, hp⟩
    · simp only [addNew, List.length_append, List.length_singleton]
      omega
    · simp only [addNew]
      omega

/-- The loop of `Init` counts each packet it adds as made and as available. -/
theorem addPackets_counters (n : Nat) {pool : PacketPool} {total available : Int} (ht : pool.totalCount = toSizeT total)
    (ha : pool.availableCount = toSizeT available) :
    (addPackets n pool).totalCount = toSizeT (total + n) ∧ (addPackets n pool).availableCount = toSizeT (available + n) ∧
      (addPackets n pool).useCount = pool.useCount := by
  induction n generalizing pool total available with
  | zero => exact ⟨by simpa [addPackets] using ht, by simpa [addPackets] using ha, rfl⟩
  | succ n ih =>
    have ht' : pool.addNew.totalCount = toSizeT (total + 1) := by simp [addNew, ht]
    have ha' : pool.addNew.availableCount = toSizeT (available + 1) := by simp [addNew, ha]
    obtain ⟨h1, h2, h3⟩ := ih ht' ha'
    refine ⟨h1.trans ?_, h2.trans ?_, h3⟩
    · rw [show total + 1 + (n : Int) = total + ((n + 1 : Nat) : Int) by omega]
    · rw [show available + 1 + (n : Int) = available + ((n + 1 : Nat) : Int) by omega]

theorem init_counts (n : Nat) : (init n).Counts 0 n := by
  have h0 : (constructed n).Counts 0 0 := ⟨rfl, rfl, rfl⟩
  have h := h0.addPackets n
  rwa [Int.zero_add] at h

/-- `Pop` from a queue that is not empty. -/
theorem Counts.pop_of_ne_nil {pool : PacketPool} {use available : Int} (h : pool.Counts use available)
    (hne : pool.packetPool ≠ []) :
    pool.pop.2.Counts (use + 1) (available - 1) ∧ pool.pop.2.packetPool.length + 1 = pool.packetPool.length ∧
      pool.pop.2.created = pool.created := by
  unfold pop
  split
  · rename_i packet rest hq
    exact ⟨⟨by simp [h.useCount], h.totalCount, by simp [h.availableCount]⟩, by simp [hq], rfl⟩
  · rename_i hq
    exact absurd hq hne

/-- `Pop` from an empty queue. -/
theorem Counts.pop_of_nil {pool : PacketPool} {use available : Int} (h : pool.Counts use available)
    (hnil : pool.packetPool = []) :
    pool.pop.2.Counts (use + 1) available ∧ pool.pop.2.packetPool = [] ∧ pool.pop.2.created = pool.created + 1 := by
  unfold pop
  split
  · rename_i packet rest hq
    cases hq.symm.trans hnil
  · exact ⟨⟨by simp [h.useCount], by simp [h.totalCount], h.availableCount⟩, hnil, rfl⟩

/-- `Push` while fewer than `m_PoolSize` are counted available. -/
theorem Counts.push_of_lt {pool : PacketPool} {use available : Int} (h : pool.Counts use available)
    (hlt : pool.availableCount < pool.poolSize) (packet : Nat) :
    (pool.push packet).Counts (use - 1) (available - 1) ∧
      (pool.push packet).packetPool.length = pool.packetPool.length + 1 ∧ (pool.push packet).created = pool.created := by
  unfold push
  rw [if_pos hlt]
  exact ⟨⟨by simp [h.useCount], h.totalCount, by simp [h.availableCount]⟩, by simp, rfl⟩

/-- `Push` otherwise. -/
theorem Counts.push_of_not_lt {pool : PacketPool} {use available : Int} (h : pool.Counts use available)
    (hlt : ¬pool.availableCount < pool.poolSize) (packet : Nat) :
    (pool.push packet).Counts (use - 1) available ∧ (pool.push packet).packetPool = pool.packetPool ∧
      (pool.push packet).created = pool.created := by
  unfold push
  rw [if_neg hlt]
  exact ⟨⟨by simp [h.useCount], h.totalCount, h.availableCount⟩, rfl, rfl⟩

@[simp] theorem pop_poolSize (pool : PacketPool) : pool.pop.2.poolSize = pool.poolSize := by
  unfold pop
  split <;> rfl

@[simp] theorem push_poolSize (pool : PacketPool) (packet : Nat) : (pool.push packet).poolSize = pool.poolSize := by
  unfold push
  split <;> rfl

end PacketPool

end ProjectYJ
