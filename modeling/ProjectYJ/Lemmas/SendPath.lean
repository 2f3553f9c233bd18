import ProjectYJ.Lib.Line
import ProjectYJ.SendPath
import Mathlib.Data.List.Perm.Basic

/-!
# Steps of the send path, and its packets

The packets of the pool are exclusive: a packet is free, or taken by one call of `Send`, or behind one outstanding write. So
the bytes behind a write stay those of the packet passed to `Send`, and what goes out on a socket is a `Line` to which the
packets are handed.
-/

namespace ProjectYJ

open SendState

variable {s t : SendState}

/-! ## One label at a time -/

theorem sendStep_makePacket (h : sendStep s .makePacket = some t) : t = { s with pool := s.pool.pop.2 } :=
  (Option.some.inj h).symm

theorem sendStep_pop {u : Int} {k : Packet} (h : sendStep s (.pop u k) = some t) :
    k.WellFormed ∧ t = { s with pool := s.pool.pop.2, sending := s.sending ++ [⟨u, s.pool.pop.1, k⟩] } := by
  simp only [sendStep, Option.ite_none_right_eq_some, Option.some.injEq] at h
  exact ⟨h.1, h.2.symm⟩

theorem sendStep_start {i : Nat} (h : sendStep s (.start i) = some t) : ∃ x, s.sending[i]? = some x ∧ t = s.start i x := by
  obtain ⟨x, hx, rfl⟩ := Option.map_eq_some_iff.1 h
  exact ⟨x, hx, rfl⟩

theorem sendStep_transfer {i n : Nat} (h : sendStep s (.transfer i n) = some t) :
    ∃ w, s.writes[i]? = some w ∧ 0 < n ∧ s.transferred w.serial + n ≤ w.size ∧ t = s.transfer w n := by
  obtain ⟨w, hw, h⟩ := Option.bind_eq_some_iff.1 h
  simp only [Option.ite_none_right_eq_some, Option.some.injEq] at h
  exact ⟨w, hw, h.1.1, h.1.2, h.2.symm⟩

theorem sendStep_handleWrite {i : Nat} {error : Bool} (h : sendStep s (.handleWrite i error) = some t) :
    ∃ w, s.writes[i]? = some w ∧ t = s.handleWrite i w := by
  obtain ⟨w, hw, h⟩ := Option.bind_eq_some_iff.1 h
  simp only [Option.ite_none_right_eq_some, Option.some.injEq] at h
  exact ⟨w, hw, h.2.symm⟩

/-! ## The packets -/

namespace SendState

/-- The packets taken from the pool by a call of `Send` or behind a write. -/
def inUse (s : SendState) : List Nat := s.sending.map Sending.packet ++ s.writes.map OutstandingWrite.packet

end SendState

/-- No packet is free and in use or used twice; behind each outstanding write are the bytes passed to `Send`; and nothing was
transferred of writes not yet started. -/
structure SendInv (s : SendState) : Prop where
  nodup : (s.pool.packetPool ++ s.inUse).Nodup
  lt_created : ∀ p ∈ s.pool.packetPool ++ s.inUse, p < s.pool.created
  sending : ∀ x ∈ s.sending, x.argument.WellFormed
  content : ∀ w ∈ s.writes, ∃ k, s.sends[w.serial]? = some (w.session, k) ∧ s.packets w.packet = k ∧ w.size = k.size ∧
    k.WellFormed
  transferred : ∀ k, s.sends.length ≤ k → s.transferred k = 0

/-- An element of a list and the others. -/
theorem perm_map_eraseIdx {α β : Type*} (f : α → β) {l : List α} {i : Nat} {x : α} (h : l[i]? = some x) :
    (f x :: (l.eraseIdx i).map f).Perm (l.map f) := by
  obtain ⟨hi, rfl⟩ := List.getElem?_eq_some_iff.1 h
  exact (List.getElem_cons_eraseIdx_perm hi).map f

/-- A call of `Send` that takes a packet has one more in use. -/
theorem inUse_pop (s : SendState) (pool : PacketPool) (x : Sending) :
    ({ s with pool := pool, sending := s.sending ++ [x] } : SendState).inUse.Perm (x.packet :: s.inUse) := by
  simp only [inUse, List.map_append, List.map_cons, List.map_nil, List.append_assoc]
  exact List.perm_middle

/-- The start of a write leaves the packets in use as they are. -/
theorem inUse_start {i : Nat} {x : Sending} (hx : s.sending[i]? = some x) : (s.start i x).inUse.Perm s.inUse := by
  have h := perm_map_eraseIdx Sending.packet hx
  have hlast : ∀ l : List Nat, (l ++ [x.packet]).Perm (x.packet :: l) := fun _ => List.perm_append_comm
  simp only [inUse, SendState.start, List.map_append, List.map_cons, List.map_nil, ← List.append_assoc]
  exact (hlast _).trans (h.append_right _)

/-- The packet of a write that completes is in use no more. -/
theorem inUse_handleWrite {i : Nat} {w : OutstandingWrite} (hw : s.writes[i]? = some w) :
    (w.packet :: (s.handleWrite i w).inUse).Perm s.inUse :=
  List.perm_middle.symm.trans ((perm_map_eraseIdx OutstandingWrite.packet hw).append_left _)

namespace SendInv

theorem init (poolSize : Nat) : SendInv (SendState.init poolSize) where
  nodup := by
    show ((PacketPool.init poolSize).packetPool ++ []).Nodup
    rw [List.append_nil]
    exact (PacketPool.init_wellFormed poolSize).nodup
  lt_created p hp := by
    rw [show (SendState.init poolSize).inUse = [] from rfl, List.append_nil] at hp
    exact (PacketPool.init_wellFormed poolSize).lt_created p hp
  sending _ hx := absurd hx List.not_mem_nil
  content _ hw := absurd hw List.not_mem_nil
  transferred _ _ := rfl

/-- A turn of the loop of `Init` puts a new packet among the free ones. -/
theorem addNew (hs : SendInv s) : SendInv { s with pool := s.pool.addNew } := by
  have hperm : (s.pool.addNew.packetPool ++ s.inUse).Perm (s.pool.created :: (s.pool.packetPool ++ s.inUse)) := by
    rw [show s.pool.addNew.packetPool = s.pool.packetPool ++ [s.pool.created] from rfl, List.append_assoc]
    exact List.perm_middle
  refine ⟨hperm.nodup_iff.2 (List.nodup_cons.2 ⟨fun h => Nat.lt_irrefl _ (hs.lt_created _ h), hs.nodup⟩), ?_, hs.sending,
    hs.content, hs.transferred⟩
  intro p hp
  have hc : s.pool.addNew.created = s.pool.created + 1 := rfl
  rcases List.mem_cons.1 (hperm.mem_iff.1 hp) with rfl | hp
  · exact hc ▸ Nat.lt_succ_self _
  · exact hc ▸ Nat.lt_succ_of_lt (hs.lt_created p hp)

/-- `Init` keeps the packets exclusive, whenever it is called. -/
theorem initFrom (hs : SendInv s) (poolSize : Nat) : SendInv { s with pool := s.pool.initFrom poolSize } := by
  have key : ∀ n (pool : PacketPool), SendInv { s with pool := pool } →
      SendInv { s with pool := PacketPool.addPackets n pool } := by
    intro n
    induction n with
    | zero => exact fun pool h => h
    | succ n ih => exact fun pool h => ih pool.addNew h.addNew
  exact key poolSize { s.pool with poolSize := poolSize }
    ⟨hs.nodup, hs.lt_created, hs.sending, hs.content, hs.transferred⟩

/-- The free packets and those in use after a `Pop`, with the packet popped among those in use, are those before it and at
most a new one. -/
theorem pop_owned (hs : SendInv s) {inUse : List Nat} (hperm : inUse.Perm (s.pool.pop.1 :: s.inUse)) :
    (s.pool.pop.2.packetPool ++ inUse).Nodup ∧ ∀ p ∈ s.pool.pop.2.packetPool ++ inUse, p < s.pool.pop.2.created := by
  have hp : (s.pool.pop.2.packetPool ++ inUse).Perm (s.pool.pop.1 :: (s.pool.pop.2.packetPool ++ s.inUse)) :=
    (hperm.append_left _).trans List.perm_middle
  have hnodup := hs.nodup
  have hlt := hs.lt_created
  rcases s.pool.pop_cases with ⟨rest, hq, hrest, hc⟩ | ⟨hq, hnew, hrest, hc⟩
  · rw [hrest] at hp ⊢
    rw [hq] at hnodup hlt
    rw [hc]
    exact ⟨hp.nodup_iff.2 hnodup, fun p hpm => hlt p (hp.mem_iff.1 hpm)⟩
  · rw [hrest, List.nil_append] at hp ⊢
    rw [hq, List.nil_append] at hnodup hlt
    rw [hnew] at hp
    refine ⟨hp.nodup_iff.2 (List.nodup_cons.2 ⟨fun hmem => Nat.lt_irrefl _ (hlt _ hmem), hnodup⟩), ?_⟩
    intro p hpm
    rw [hc]
    rcases List.mem_cons.1 (hp.mem_iff.1 hpm) with rfl | hpm
    · exact Nat.lt_succ_self _
    · exact Nat.lt_succ_of_lt (hlt p hpm)

/-- The packet a call of `Send` has taken is behind no outstanding write. -/
theorem packet_ne (hs : SendInv s) {x : Sending} (hx : x ∈ s.sending) {w : OutstandingWrite} (hw : w ∈ s.writes) :
    w.packet ≠ x.packet := by
  intro heq
  have hdisj := (List.nodup_append.1 (List.nodup_append.1 hs.nodup).2.1).2.2
  exact hdisj x.packet (List.mem_map_of_mem hx) w.packet (List.mem_map_of_mem hw) heq.symm

/-- A call of `Send` goes on from its `Pop` to the start of its write. -/
theorem start (hs : SendInv s) {i : Nat} {x : Sending} (hx : s.sending[i]? = some x) : SendInv (s.start i x) := by
  have hmem := List.mem_of_getElem? hx
  have hperm := inUse_start hx
  refine ⟨(hperm.append_left _).nodup_iff.2 hs.nodup, fun p hp => hs.lt_created p ((hperm.append_left _).mem_iff.1 hp),
    fun y hy => hs.sending y (List.mem_of_mem_eraseIdx hy), ?_, ?_⟩
  · intro w hw
    rcases List.mem_append.1 hw with hw | hw
    · obtain ⟨k, hk, hpk, hsize, hwf⟩ := hs.content w hw
      refine ⟨k, ?_, ?_, hsize, hwf⟩
      · show (s.sends ++ _)[w.serial]? = _
        rw [List.getElem?_append_left (List.getElem?_eq_some_iff.1 hk).1, hk]
      · exact (Function.update_of_ne (hs.packet_ne hmem hw) ..).trans hpk
    · obtain rfl := List.mem_singleton.1 hw
      exact ⟨x.argument, List.getElem?_concat_length, Function.update_self .., rfl, hs.sending x hmem⟩
  · intro k hk
    refine hs.transferred k ?_
    have hle : (s.sends ++ [(x.session, x.argument)]).length ≤ k := hk
    rw [List.length_append] at hle
    omega

/-- Every step keeps the packets exclusive. -/
theorem step (hs : SendInv s) {l : SendStep} (h : sendStep s l = some t) : SendInv t := by
  cases l with
  | makePacket =>
    obtain rfl := sendStep_makePacket h
    obtain ⟨hn, hlt⟩ := hs.pop_owned (List.Perm.refl _)
    rw [List.perm_middle.nodup_iff, List.nodup_cons] at hn
    exact ⟨hn.2, fun p hp => hlt p (List.perm_middle.mem_iff.2 (List.mem_cons_of_mem _ hp)), hs.sending, hs.content,
      hs.transferred⟩
  | pop u k =>
    obtain ⟨hk, rfl⟩ := sendStep_pop h
    obtain ⟨hn, hlt⟩ := hs.pop_owned (inUse_pop s s.pool.pop.2 ⟨u, s.pool.pop.1, k⟩)
    refine ⟨hn, hlt, ?_, hs.content, hs.transferred⟩
    intro x hx
    rcases List.mem_append.1 hx with hx | hx
    · exact hs.sending x hx
    · rw [List.mem_singleton.1 hx]
      exact hk
  | start i =>
    obtain ⟨x, hx, rfl⟩ := sendStep_start h
    exact hs.start hx
  | transfer i n =>
    obtain ⟨w, hw, _, _, rfl⟩ := sendStep_transfer h
    obtain ⟨k, hk, _⟩ := hs.content w (List.mem_of_getElem? hw)
    refine ⟨hs.nodup, hs.lt_created, hs.sending, hs.content, ?_⟩
    intro j hj
    have hlt := (List.getElem?_eq_some_iff.1 hk).1
    have hne : j ≠ w.serial := by
      rintro rfl
      exact absurd hlt (Nat.not_lt.2 hj)
    exact (Function.update_of_ne hne ..).trans (hs.transferred j hj)
  | handleWrite i error =>
    obtain ⟨w, hw, rfl⟩ := sendStep_handleWrite h
    have hall : (s.pool.packetPool ++ [w.packet] ++ (s.handleWrite i w).inUse).Perm (s.pool.packetPool ++ s.inUse) := by
      rw [List.append_assoc]
      exact (inUse_handleWrite hw).append_left _
    obtain ⟨hc, hq⟩ := s.pool.push_cases w.packet
    have hsub : ((s.handleWrite i w).pool.packetPool ++ (s.handleWrite i w).inUse).Sublist
        (s.pool.packetPool ++ [w.packet] ++ (s.handleWrite i w).inUse) := by
      refine List.Sublist.append_right ?_ _
      show (s.pool.push w.packet).packetPool.Sublist _
      rcases hq with hq | hq
      · rw [hq]
      · rw [hq]
        exact List.sublist_append_left ..
    refine ⟨hsub.nodup (hall.nodup_iff.2 hs.nodup), ?_, hs.sending, ?_, hs.transferred⟩
    · intro p hp
      show p < (s.pool.push w.packet).created
      rw [hc]
      exact hs.lt_created p (hall.mem_iff.1 (hsub.subset hp))
    · intro v hv
      exact hs.content v (List.mem_of_mem_eraseIdx hv)

end SendInv

end ProjectYJ
