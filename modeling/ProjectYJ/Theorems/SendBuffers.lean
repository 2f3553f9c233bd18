import ProjectYJ.Lemmas.SendPath

/-!
# Exclusive send buffers

Whatever the counters of the pool say and however often it is initialised, a packet behind an outstanding write is nowhere
else: not free, and behind no other write. So nothing but its own `Send` ever assigned to it.
-/

namespace ProjectYJ

/-- Every step of a process keeps the packets exclusive. -/
theorem SendInv.userStep {s t : SendState} (hs : SendInv s) {l : PoolUserStep} (h : poolUserStep s l = some t) :
    SendInv t := by
  cases l with
  | init poolSize =>
    obtain rfl := Option.some.inj h
    exact hs.initFrom poolSize
  | send l => exact hs.step h

/-- Before the first `Init` there are no packets. -/
theorem SendInv.constructed (poolSize : Nat) : SendInv (poolUserSystem poolSize).init where
  nodup := List.nodup_nil
  lt_created _ h := absurd h List.not_mem_nil
  sending _ h := absurd h List.not_mem_nil
  content _ h := absurd h List.not_mem_nil
  transferred _ _ := rfl

/-- In every run of `Init`, `MakePacket`, `Send` on any sessions and write completions, in any order: the packets behind the
outstanding writes are not free and pairwise different, the free queue holds no packet twice, and the packet behind each
write is the one that was passed to the `Send` that started it. -/
theorem sendBuffers_exclusive (poolSize : Nat) (ls : List PoolUserStep) (s : SendState)
    (hr : (poolUserSystem poolSize).run (poolUserSystem poolSize).init ls = some s) :
    (∀ w ∈ s.writes, w.packet ∉ s.pool.packetPool) ∧ (s.writes.map OutstandingWrite.packet).Nodup ∧
      s.pool.packetPool.Nodup ∧
      ∀ w ∈ s.writes, ∃ argument, s.sends[w.serial]? = some (w.session, argument) ∧ s.packets w.packet = argument ∧
        w.size = argument.size := by
  have hs : SendInv s :=
    (poolUserSystem poolSize).run_invariant (fun _ _ _ h hstep => h.userStep hstep) (SendInv.constructed poolSize) hr
  obtain ⟨hfree, huse, hdisj⟩ := List.nodup_append.1 hs.nodup
  refine ⟨?_, (List.nodup_append.1 huse).2.1, hfree, ?_⟩
  · intro w hw hmem
    exact hdisj w.packet hmem w.packet (List.mem_append_right _ (List.mem_map_of_mem hw)) rfl
  · intro w hw
    obtain ⟨k, hk, hpk, hsize, -⟩ := hs.content w hw
    exact ⟨k, hk, hpk, hsize⟩

/-- `Init(1)` and two calls of `Send`, the second of which finds the pool empty. -/
def twoSends : List PoolUserStep :=
  [.init 1, .send (.pop 7 ⟨some [1], 1, 1000⟩), .send (.pop 8 ⟨some [2], 1, 1000⟩), .send (.start 0), .send (.start 0)]

/-- `sendBuffers_exclusive` after `twoSends`. -/
theorem sendBuffers_exclusive_twoSends :
    ∃ s, (poolUserSystem 9).run (poolUserSystem 9).init twoSends = some s ∧ s.writes.map OutstandingWrite.packet = [0, 1] ∧
      ∀ w ∈ s.writes, ∃ argument, s.sends[w.serial]? = some (w.session, argument) ∧ s.packets w.packet = argument ∧
        w.size = argument.size := by
  obtain ⟨s, hs, hw⟩ := Option.map_eq_some_iff.1
    (show ((poolUserSystem 9).run (poolUserSystem 9).init twoSends).map (·.writes.map OutstandingWrite.packet) =
      some [0, 1] by decide)
  exact ⟨s, hs, hw, (sendBuffers_exclusive 9 twoSends s hs).2.2.2⟩

end ProjectYJ
