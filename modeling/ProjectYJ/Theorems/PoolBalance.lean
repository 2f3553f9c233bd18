import ProjectYJ.Lemmas.SendPath

/-!
# The balance of the packet pool

What `Pop` takes should come back by one `Push` each. `MakePacket` takes a packet it does not use and never gives back, and
`Push` counts a packet that came back as one more taken: after as many operations as the pool has packets, its count of
available ones has passed below zero and `Push` frees what comes back. `poolBalanced_iff` says exactly when the pool is still
in balance.
-/

namespace ProjectYJ

/-- The send path, and what passed through the pool: the packets `Pop` took, those `Push` gave back, those of the former that
`MakePacket` took, and the most that were out at once. -/
structure PoolAccount where
  send : SendState
  popped : List Nat
  pushed : List Nat
  made : List Nat
  mostOut : Nat

namespace PoolAccount

/-- The packet a step takes from the pool. -/
def taken (s : SendState) : SendStep → List Nat
  | .makePacket => [s.pool.pop.1]
  | .pop _ _ => [s.pool.pop.1]
  | _ => []

/-- The packet a step takes from the pool in `MakePacket`. -/
def takenByMake (s : SendState) : SendStep → List Nat
  | .makePacket => [s.pool.pop.1]
  | _ => []

/-- The packet a step gives back. -/
def givenBack (s : SendState) : SendStep → List Nat
  | .handleWrite i _ => (s.writes[i]?).toList.map OutstandingWrite.packet
  | _ => []

/-- The account after a step to `t`. -/
def record (r : PoolAccount) (l : SendStep) (t : SendState) : PoolAccount where
  send := t
  popped := r.popped ++ taken r.send l
  pushed := r.pushed ++ givenBack r.send l
  made := r.made ++ takenByMake r.send l
  mostOut := max r.mostOut ((r.popped ++ taken r.send l).length - (r.pushed ++ givenBack r.send l).length)

/-- The send path after `Init(n)`, with its account. -/
def system (n : Nat) : Lts PoolAccount SendStep where
  init := { send := SendState.init n, popped := [], pushed := [], made := [], mostOut := 0 }
  step r l := (sendStep r.send l).map (r.record l)

end PoolAccount

/-- The pool is in balance: every packet taken was given back by exactly one `Push`, none is counted in use, and if at most
`n` were ever out at once, then `n` are free again and no other was made. -/
structure PoolBalanced (n : Nat) (r : PoolAccount) : Prop where
  paired : r.popped.Perm r.pushed
  useCount : r.send.pool.useCount = 0
  refilled : r.mostOut ≤ n →
    r.send.pool.packetPool.length = n ∧ r.send.pool.created = n ∧ r.send.pool.totalCount = n

/-! ## The pool alone -/

/-- After `ops` operations with `out` packets out: no packet was made or freed since `Init(n)`, and every operation has
counted one less available. Since the count passed zero there were only `Pop`s. -/
structure Intact (n out ops : Nat) (pool : PacketPool) : Prop where
  free : pool.packetPool.length + out = n
  created : pool.created = n
  available : pool.availableCount = toSizeT ((n : Int) - ops)
  few : ops ≤ n + 1 + out

/-- After `ops` operations with `out` packets out: a packet that came back was freed. -/
structure Lost (n out ops : Nat) (pool : PacketPool) : Prop where
  free : pool.packetPool.length + out < pool.created
  many : n + 2 ≤ ops

variable {n out ops : Nat} {pool : PacketPool} {use available : Int}

/-- While no packet was lost, a `Pop` that leaves at most `n` out finds a free packet. -/
theorem Intact.pop (h : Intact n out ops pool) (hc : pool.Counts use available) (hout : out + 1 ≤ n) :
    Intact n (out + 1) (ops + 1) pool.pop.2 := by
  have hne : pool.packetPool ≠ [] := by
    intro hnil
    have hfree := h.free
    rw [hnil, List.length_nil] at hfree
    omega
  have hc' : pool.Counts use ((n : Int) - ops) := ⟨hc.useCount, hc.totalCount, h.available⟩
  obtain ⟨hcounts, hlen, hcreated⟩ := hc'.pop_of_ne_nil hne
  have hfree := h.free
  have hfew := h.few
  refine ⟨by omega, hcreated.trans h.created, ?_, by omega⟩
  rw [hcounts.availableCount]
  congr 1
  omega

/-- A lost packet stays lost over a `Pop`. -/
theorem Lost.pop (h : Lost n out ops pool) (hc : pool.Counts use available) : Lost n (out + 1) (ops + 1) pool.pop.2 := by
  have hfree := h.free
  have hmany := h.many
  by_cases hnil : pool.packetPool = []
  · obtain ⟨-, hq, hcreated⟩ := hc.pop_of_nil hnil
    rw [hnil] at hfree
    refine ⟨?_, by omega⟩
    rw [hq, hcreated]
    simp only [List.length_nil] at hfree ⊢
    omega
  · obtain ⟨-, hlen, hcreated⟩ := hc.pop_of_ne_nil hnil
    exact ⟨by omega, by omega⟩

/-- While no packet was lost, a `Push` gives its packet back or loses it: it loses it if the count has passed zero. -/
theorem Intact.push (h : Intact n (out + 1) ops pool) (hc : pool.Counts use available) (hn : n < 4294967296)
    (hsize : pool.poolSize = n) (hops : 1 ≤ ops) (hout : out + 1 ≤ n) (packet : Nat) :
    Intact n out (ops + 1) (pool.push packet) ∨ Lost n out (ops + 1) (pool.push packet) := by
  have hc' : pool.Counts use ((n : Int) - ops) := ⟨hc.useCount, hc.totalCount, h.available⟩
  have hfree := h.free
  have hfew := h.few
  have hcreated := h.created
  by_cases hlt : pool.availableCount < pool.poolSize
  · obtain ⟨hcounts, hlen, hcr⟩ := hc'.push_of_lt hlt packet
    have hle : ops ≤ n := by
      rw [h.available, hsize] at hlt
      unfold toSizeT at hlt
      omega
    refine Or.inl ⟨by omega, by omega, ?_, by omega⟩
    rw [hcounts.availableCount]
    congr 1
    omega
  · obtain ⟨-, hq, hcr⟩ := hc'.push_of_not_lt hlt packet
    have hle : n + 1 ≤ ops := by
      rw [h.available, hsize] at hlt
      unfold toSizeT at hlt
      omega
    refine Or.inr ⟨?_, by omega⟩
    rw [hq]
    omega

/-- A lost packet stays lost over a `Push`. -/
theorem Lost.push (h : Lost n (out + 1) ops pool) (hc : pool.Counts use available) (packet : Nat) :
    Lost n out (ops + 1) (pool.push packet) := by
  have hfree := h.free
  have hmany := h.many
  by_cases hlt : pool.availableCount < pool.poolSize
  · obtain ⟨-, hlen, hcr⟩ := hc.push_of_lt hlt packet
    exact ⟨by omega, by omega⟩
  · obtain ⟨-, hq, hcr⟩ := hc.push_of_not_lt hlt packet
    refine ⟨?_, by omega⟩
    rw [hq]
    omega

/-! ## The account -/

/-- What the account says in every state: the packets taken are those given back, those `MakePacket` took, and those in use;
`m_UseConut` is the number out; and as long as `MakePacket` took none and at most `n` were out, the pool is intact or has
lost a packet. -/
structure Tally (n : Nat) (r : PoolAccount) : Prop where
  owned : r.popped.Perm (r.pushed ++ (r.made ++ r.send.inUse))
  poolSize : r.send.pool.poolSize = n
  counts : ∃ available, r.send.pool.Counts ((r.popped.length : Int) - r.pushed.length) available
  mostOut : r.popped.length - r.pushed.length ≤ r.mostOut
  books : r.made = [] → r.mostOut ≤ n →
    Intact n (r.popped.length - r.pushed.length) (r.popped.length + r.pushed.length) r.send.pool ∨
      Lost n (r.popped.length - r.pushed.length) (r.popped.length + r.pushed.length) r.send.pool

namespace Tally

variable {r : PoolAccount}

theorem init (n : Nat) : Tally n (PoolAccount.system n).init where
  owned := List.Perm.refl _
  poolSize := (PacketPool.addPackets_spec n _).2.2
  counts := ⟨n, PacketPool.init_counts n⟩
  mostOut := Nat.le_refl _
  books _ _ := by
    obtain ⟨hlen, hcreated, -⟩ := PacketPool.addPackets_spec n (PacketPool.constructed n)
    refine Or.inl ⟨?_, ?_, ?_, Nat.le_add_left _ _⟩
    · exact hlen.trans (Nat.zero_add n)
    · exact hcreated.trans (Nat.zero_add n)
    · exact (PacketPool.init_counts n).availableCount

theorem pushed_le (h : Tally n r) : r.pushed.length ≤ r.popped.length := by
  have hlen := h.owned.length_eq
  rw [List.length_append] at hlen
  omega

/-- A step that takes a packet. -/
theorem took (h : Tally n r) {t : SendState} {p : Nat} {made : List Nat} (hpool : t.pool = r.send.pool.pop.2)
    (hmade : made = [] → r.made = []) (howned : (r.popped ++ [p]).Perm (r.pushed ++ (made ++ t.inUse))) :
    Tally n ⟨t, r.popped ++ [p], r.pushed ++ [], made,
      max r.mostOut ((r.popped ++ [p]).length - (r.pushed ++ []).length)⟩ := by
  obtain ⟨available, hc⟩ := h.counts
  have hle := h.pushed_le
  have hout : (r.popped.length + 1) - r.pushed.length = (r.popped.length - r.pushed.length) + 1 := by omega
  have hops : r.popped.length + 1 + r.pushed.length = r.popped.length + r.pushed.length + 1 := by omega
  have huse : ((r.popped.length + 1 : Nat) : Int) - r.pushed.length = r.popped.length - r.pushed.length + 1 := by omega
  rw [List.append_nil]
  refine ⟨howned, ?_, ?_, Nat.le_max_right _ _, ?_⟩
  · rw [hpool, PacketPool.pop_poolSize]
    exact h.poolSize
  · simp only [hpool, List.length_append, List.length_singleton, huse]
    by_cases hnil : r.send.pool.packetPool = []
    · exact ⟨_, (hc.pop_of_nil hnil).1⟩
    · exact ⟨_, (hc.pop_of_ne_nil hnil).1⟩
  · intro hm hmost
    simp only [hpool, List.length_append, List.length_singleton, hout, hops] at hmost ⊢
    obtain ⟨hmost, hnew⟩ := max_le_iff.1 hmost
    rcases h.books (hmade hm) hmost with hi | hl
    · exact Or.inl (hi.pop hc hnew)
    · exact Or.inr (hl.pop hc)

/-- A step that gives a packet back. -/
theorem gave (h : Tally n r) (hn : n < 4294967296) {t : SendState} {p : Nat} (hpool : t.pool = r.send.pool.push p)
    (howned : r.popped.Perm ((r.pushed ++ [p]) ++ (r.made ++ t.inUse))) :
    Tally n ⟨t, r.popped ++ [], r.pushed ++ [p], r.made ++ [],
      max r.mostOut ((r.popped ++ []).length - (r.pushed ++ [p]).length)⟩ := by
  obtain ⟨available, hc⟩ := h.counts
  have hlt : r.pushed.length + 1 ≤ r.popped.length := by
    have hlen := howned.length_eq
    simp only [List.length_append, List.length_singleton] at hlen
    omega
  have hout : r.popped.length - r.pushed.length = (r.popped.length - (r.pushed.length + 1)) + 1 := by omega
  have hops : r.popped.length + (r.pushed.length + 1) = r.popped.length + r.pushed.length + 1 := by omega
  have huse : (r.popped.length : Int) - ((r.pushed.length + 1 : Nat) : Int) =
      r.popped.length - r.pushed.length - 1 := by omega
  rw [List.append_nil, List.append_nil]
  refine ⟨howned, ?_, ?_, Nat.le_max_right _ _, ?_⟩
  · rw [hpool, PacketPool.push_poolSize]
    exact h.poolSize
  · simp only [hpool, List.length_append, List.length_singleton, huse]
    by_cases hfull : r.send.pool.availableCount < r.send.pool.poolSize
    · exact ⟨_, (hc.push_of_lt hfull p).1⟩
    · exact ⟨_, (hc.push_of_not_lt hfull p).1⟩
  · intro hm hmost
    simp only [hpool, List.length_append, List.length_singleton, hops] at hmost ⊢
    have hmost' := (max_le_iff.1 hmost).1
    have hn' := h.mostOut
    have hbooks := h.books hm hmost'
    rw [hout] at hbooks hn'
    rcases hbooks with hi | hl
    · exact hi.push hc hn h.poolSize (by omega) (by omega) p
    · exact Or.inr (hl.push hc p)

/-- A step that does not touch the pool. -/
theorem idle (h : Tally n r) {t : SendState} (hpool : t.pool = r.send.pool) (hinUse : t.inUse.Perm r.send.inUse) :
    Tally n ⟨t, r.popped ++ [], r.pushed ++ [], r.made ++ [],
      max r.mostOut ((r.popped ++ []).length - (r.pushed ++ []).length)⟩ := by
  simp only [List.append_nil, max_eq_left h.mostOut]
  refine ⟨h.owned.trans ((hinUse.symm.append_left _).append_left _), ?_, ?_, h.mostOut, ?_⟩
  · rw [hpool]
    exact h.poolSize
  · rw [hpool]
    exact h.counts
  · rw [hpool]
    exact h.books

/-- Every step keeps the account. -/
theorem step (h : Tally n r) (hn : n < 4294967296) {l : SendStep} {r' : PoolAccount}
    (hr : (PoolAccount.system n).step r l = some r') : Tally n r' := by
  obtain ⟨t, ht, rfl⟩ := Option.map_eq_some_iff.1 hr
  cases l with
  | makePacket =>
    obtain rfl := sendStep_makePacket ht
    have howned := h.owned
    refine h.took rfl (fun hm => (List.append_eq_nil_iff.1 hm).1) ?_
    rw [List.perm_iff_count] at howned ⊢
    grind [PoolAccount.takenByMake, SendState.inUse]
  | pop u k =>
    obtain ⟨-, rfl⟩ := sendStep_pop ht
    have howned := h.owned
    have huse := inUse_pop r.send r.send.pool.pop.2 ⟨u, r.send.pool.pop.1, k⟩
    refine h.took rfl (fun hm => (List.append_eq_nil_iff.1 hm).1) ?_
    rw [List.perm_iff_count] at howned huse ⊢
    grind [PoolAccount.takenByMake]
  | start i =>
    obtain ⟨x, hx, rfl⟩ := sendStep_start ht
    exact h.idle rfl (inUse_start hx)
  | transfer i k =>
    obtain ⟨w, -, -, -, rfl⟩ := sendStep_transfer ht
    exact h.idle rfl (List.Perm.refl _)
  | handleWrite i error =>
    obtain ⟨w, hw, rfl⟩ := sendStep_handleWrite ht
    have hback : PoolAccount.givenBack r.send (.handleWrite i error) = [w.packet] := by
      simp [PoolAccount.givenBack, hw]
    have howned := h.owned
    have huse := inUse_handleWrite hw
    rw [PoolAccount.record, hback]
    refine h.gave hn rfl ?_
    rw [List.perm_iff_count] at howned huse ⊢
    grind

end Tally

/-- `MakePacket` has taken no packet exactly if it was not called. -/
theorem made_eq_nil_iff {r r' : PoolAccount} {ls : List SendStep} (hr : (PoolAccount.system n).run r ls = some r') :
    r'.made = [] ↔ r.made = [] ∧ ∀ l ∈ ls, l ≠ .makePacket := by
  induction ls generalizing r with
  | nil =>
    obtain rfl := Option.some.inj hr
    simp
  | cons l ls ih =>
    obtain ⟨r₁, h1, h2⟩ := Option.bind_eq_some_iff.1 hr
    obtain ⟨t, -, rfl⟩ := Option.map_eq_some_iff.1 h1
    have hl : PoolAccount.takenByMake r.send l = [] ↔ l ≠ .makePacket := by
      cases l <;> simp [PoolAccount.takenByMake]
    rw [ih h2, List.forall_mem_cons, ← hl, PoolAccount.record, List.append_eq_nil_iff, and_assoc]

/-- For every `n` and every run after `Init(n)`, in a state without an outstanding write: the pool is in balance exactly if
no `Send` is under way, `MakePacket` was never called, and either more than `n` packets were out at once or there were at
most `(n + 1) / 2` calls of `Send`. -/
theorem poolBalanced_iff (n : Nat) (hn : n < 4294967296) (ls : List SendStep) (r : PoolAccount)
    (hr : (PoolAccount.system n).run (PoolAccount.system n).init ls = some r) (hw : r.send.writes = []) :
    PoolBalanced n r ↔
      r.send.sending = [] ∧ (∀ l ∈ ls, l ≠ .makePacket) ∧ (n < r.mostOut ∨ 2 * r.popped.length ≤ n + 1) := by
  have h : Tally n r := (PoolAccount.system n).run_invariant (fun _ _ _ h hs => h.step hn hs) (Tally.init n) hr
  have hmade : r.made = [] ↔ ∀ l ∈ ls, l ≠ .makePacket := (made_eq_nil_iff hr).trans (and_iff_right rfl)
  have hinUse : r.send.inUse = [] ↔ r.send.sending = [] := by
    simp [SendState.inUse, hw]
  rw [← hmade, ← hinUse]
  have hlen := h.owned.length_eq
  simp only [List.length_append] at hlen
  obtain ⟨available, hc⟩ := h.counts
  constructor
  · intro hb
    have hpaired := hb.paired.length_eq
    have hm : r.made = [] := List.length_eq_zero_iff.1 (by omega)
    refine ⟨List.length_eq_zero_iff.1 (by omega), hm, ?_⟩
    by_cases hmost : r.mostOut ≤ n
    · obtain ⟨hfree, hcreated, -⟩ := hb.refilled hmost
      rcases h.books hm hmost with hi | hl
      · have hfew := hi.few
        omega
      · have hlost := hl.free
        omega
    · exact Or.inl (Nat.not_le.1 hmost)
  · rintro ⟨hu, hm, hcase⟩
    have howned := h.owned
    rw [hu, hm, List.append_nil, List.append_nil] at howned
    have heq := howned.length_eq
    refine ⟨howned, ?_, ?_⟩
    · rw [hc.useCount, heq, Int.sub_self]
      rfl
    · intro hmost
      have hmany : 2 * r.popped.length ≤ n + 1 := hcase.resolve_left (Nat.not_lt.2 hmost)
      rcases h.books hm hmost with hi | hl
      · have hfree := hi.free
        refine ⟨by omega, hi.created, ?_⟩
        rw [hc.totalCount, hi.created]
        unfold toSizeT
        omega
      · have hops := hl.many
        omega

/-- A `Send` and its completion. -/
def sendAndComplete : List SendStep :=
  [.pop 7 ⟨some [1], 1, 1000⟩, .start 0, .transfer 0 1, .handleWrite 0 false]

/-- `poolBalanced_iff` after one `Send` with a pool of two packets: they are both free again. -/
theorem poolBalanced_iff_sendAndComplete :
    ∃ r, (PoolAccount.system 2).run (PoolAccount.system 2).init sendAndComplete = some r ∧ PoolBalanced 2 r := by
  obtain ⟨r, hr, hw⟩ := Option.map_eq_some_iff.1
    (show ((PoolAccount.system 2).run (PoolAccount.system 2).init sendAndComplete).map
      (fun r => (r.send.writes.map OutstandingWrite.packet, r.send.sending.map Sending.packet, r.popped.length)) =
        some ([], [], 1) by decide)
  simp only [Prod.mk.injEq, List.map_eq_nil_iff] at hw
  obtain ⟨hw, hs, hp⟩ := hw
  exact ⟨r, hr, (poolBalanced_iff 2 (by decide) sendAndComplete r hr hw).2
    ⟨hs, by simp [sendAndComplete], Or.inr (by omega)⟩⟩

/-- Not every run is in balance: one `MakePacket` has taken a packet that no `Push` gives back. -/
theorem not_poolBalanced_makePacket :
    ∃ r, (PoolAccount.system 1).run (PoolAccount.system 1).init [.makePacket] = some r ∧ r.send.writes = [] ∧
      ¬PoolBalanced 1 r := by
  refine ⟨_, rfl, rfl, ?_⟩
  intro h
  exact absurd h.useCount (by decide)

end ProjectYJ
